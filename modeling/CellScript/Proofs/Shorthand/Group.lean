import Mathlib
import CellScript.Proofs.Script.Conjunction
import CellScript.Proofs.Shorthand.Context
import CellScript.Proofs.Shorthand.Field
import CellScript.Proofs.Shorthand.Filter

/-! Filters in parentheses. A parenthesis runs together with the script text beside it, and all else
is cut as it is on its own, so the code of a filter in parentheses is its code in parentheses. -/
namespace CellScript.Shorthand

open Script (Spot conjunctionCode)

/-- Tokens and what they become in a filter. -/
def Reads (quoting : Bool) (ts : List Token) (ws : List Text) : Prop :=
  List.Forall₂ (fun t w => t.reading quoting = .ok w) ts ws

/-- A source at an offset behind a byte that becomes some code in a filter. The code may depend on
the last byte of the code before it. -/
def Becomes (quoting : Bool) (pos : ℕ) (before : Option UInt8) (src : Text)
    (code : Option UInt8 → Text) : Prop :=
  ∃ ts ws, Cut pos before src ts ∧ Reads quoting ts ws ∧ ∀ last, glueFrom last ws = code last

section

variable {quoting : Bool} {pos : ℕ} {before : Option UInt8} {src : Text}
  {code : Option UInt8 → Text}

lemma becomes_nil : Becomes quoting pos before [] fun _ => [] :=
  ⟨[],[],.nil,.nil,fun _ => rfl⟩

lemma Becomes.congr (h : Becomes quoting pos before src code) {code' : Option UInt8 → Text}
    (hcode : ∀ last, code last = code' last) : Becomes quoting pos before src code' := by
  obtain ⟨ts,ws,hcut,hr,hglue⟩ := h
  exact ⟨ts,ws,hcut,hr,fun last => (hglue last).trans (hcode last)⟩

lemma Becomes.blank {b : UInt8} (h : Becomes quoting (pos+1) (some b) src code)
    (hb : Text.isBlank b = true) (before : Option UInt8) :
    Becomes quoting pos before (b::src) code := by
  obtain ⟨ts,ws,hcut,hr,hglue⟩ := h
  exact ⟨ts,ws,.blank hb hcut,hr,hglue⟩

lemma Becomes.token {k : Kind} {w r : Text} (h : Becomes quoting (pos+w.length) w.getLast? src code)
    (hb : ∀ b ∈ w.head?, Text.isBlank b = false) (hp : Piece before k w src)
    (hr : Token.reading quoting ⟨k,w,pos⟩ = .ok r) :
    Becomes quoting pos before (w ++ src)
      fun last => joint last r ++ (r ++ code (r.getLast?.or last)) := by
  obtain ⟨ts,ws,hcut,hws,hglue⟩ := h
  refine ⟨_,r::ws,.token hb hp hcut,.cons hr hws,fun last => ?_⟩
  rw [glueFrom,hglue]

/-- Code does not depend on a byte before it that no word goes on behind. -/
lemma Becomes.code_of_not_sticks (h : Becomes quoting pos before src code) {b : UInt8}
    (hb : sticks b = false) : code (some b) = code none := by
  obtain ⟨ts,ws,-,-,hglue⟩ := h
  rw [← hglue,← hglue,glueFrom_of_not_sticks hb]

end

/-- A text in which all is closed and no literal holds a closing bracket. -/
structure Tidy (t : Text) : Prop extends Balanced t where
  outside : ∀ p u, t = p ++ Text.ascii ']'::u → Spot.code.after p = .code

lemma Tidy.suffix {x t : Text} (h : Tidy (x ++ t)) (hx : Spot.code.after x = .code) : Tidy t := by
  refine ⟨h.toBalanced.suffix hx,?_⟩
  intro p u ht
  have hp := h.outside (x ++ p) u (by rw [ht,List.append_assoc])
  rwa [Spot.after_append,hx] at hp

/-- Code that compiles is tidy if none of its literals holds a closing bracket. -/
lemma tidy_of_compile {code : Text} {f : Script.Formula} (hf : Script.Formula.compile code = .ok f)
    (hb : Script.Bracketless code) : Tidy code := by
  obtain ⟨-,-,ls,hs,-⟩ := Script.Formula.compile_eq_ok_iff.mp hf
  have hspelled := Script.spelled_of_compile hf hs
  have hlaid := hspelled.laid hs
  refine ⟨balanced_of_laid hspelled hlaid,?_⟩
  intro p u hcode
  by_contra hp
  obtain ⟨l,hl,hk,hm⟩ := hlaid.mem_string hcode hp
  obtain ⟨x,hx,rfl⟩ := List.mem_map.mp hl
  exact hb ls hs x hx hk hm

lemma token?_eq_none_of_head {before : Option UInt8} {b : UInt8} (hc : isCastLetter b = false)
    (hb : b ∉ operatorBytes) (t : Text) : token? before (b::t) = none := by
  cases h : token? before (b::t) with
  | none => rfl
  | some found =>
    obtain ⟨k,n⟩ := found
    exfalso
    rcases token?_eq_some h with ⟨-,ha⟩ | ho
    · obtain ⟨c,body,rest,ht,hcast,-⟩ := accessor?_eq_some_iff.mp ha
      rw [List.cons.injEq] at ht
      rw [ht.1,hcast] at hc
      simp at hc
    · obtain ⟨w,u,ht,-,hne,hall,-⟩ := operator?_eq_some ho
      obtain ⟨c,w,rfl⟩ := List.exists_cons_of_ne_nil hne
      rw [List.cons_append,List.cons.injEq] at ht
      exact hb (ht.1 ▸ hall c (by simp))

/-- A parenthesis, which is script text wherever it stands among code. -/
structure IsParenthesis (b : UInt8) : Prop where
  blank : Text.isBlank b = false
  quote : Text.isQuote b = false
  sticks : sticks b = false
  token : ∀ before t, token? before (b::t) = none

lemma isParenthesis {b : UInt8} (h : b = Text.ascii '(' ∨ b = Text.ascii ')') :
    IsParenthesis b := by
  rcases h with rfl | rfl
  · exact ⟨by decide,by decide,by decide,fun _ => token?_eq_none_of_head (by decide) (by decide)⟩
  · exact ⟨by decide,by decide,by decide,fun _ => token?_eq_none_of_head (by decide) (by decide)⟩

lemma IsParenthesis.run {b : UInt8} (h : IsParenthesis b) {w rest : Text} (start : Bool)
    (before : Option UInt8) (hr : Run false (some b) .code w rest) :
    Run start before .code (b::w) rest := by
  refine .byte h.blank (Or.inr (h.token _ _)) ?_
  rwa [Spot.step_code h.quote]

lemma IsParenthesis.joint {b : UInt8} (h : IsParenthesis b) (last : Option UInt8) (w : Text) :
    Shorthand.joint last (b::w) = [] := by
  refine joint_of_not_sticks ?_ last
  rintro c ⟨⟩
  exact h.sticks

/-- A parenthesis that starts a token. -/
lemma IsParenthesis.becomes {b : UInt8} (h : IsParenthesis b) {quoting : Bool} {pos : ℕ}
    {w t : Text} {code : Option UInt8 → Text}
    (ht : Becomes quoting (pos+(b::w).length) (b::w).getLast? t code)
    (hr : Run false (some b) .code w t) (before : Option UInt8) :
    Becomes quoting pos before (b::(w ++ t)) fun _ => b::(w ++ code (b::w).getLast?) := by
  have hhead : ∀ c ∈ (b::w).head?, Text.isBlank c = false := by
    rintro c ⟨⟩
    exact h.blank
  have hpiece : Piece before .passthrough (b::w) t :=
    .run (by simp) (h.token _ _) (h.run true before hr)
  refine (ht.token hhead hpiece rfl).congr fun last => ?_
  rw [h.joint,List.getLast?_cons,Option.some_or]
  rfl

/-- A parenthesis that is a token of its own. -/
lemma IsParenthesis.becomes_alone {b : UInt8} (h : IsParenthesis b) {quoting : Bool} {pos : ℕ}
    {t : Text} {code : Option UInt8 → Text} (ht : Becomes quoting (pos+1) (some b) t code)
    (hr : Run false (some b) .code [] t) (before : Option UInt8) :
    Becomes quoting pos before (b::t) fun _ => b::code none := by
  rw [← ht.code_of_not_sticks h.sticks]
  exact h.becomes (w := []) ht hr before

/-- A parenthesis in front of a source: it is a token, or the start of the first one. -/
theorem Becomes.opened {quoting : Bool} {pos : ℕ} {t : Text} {code : Option UInt8 → Text}
    (h : Becomes quoting (pos+1) (some (Text.ascii '(')) t code) (before : Option UInt8) :
    Becomes quoting pos before (Text.ascii '('::t) fun _ => Text.ascii '('::code none := by
  have hparen : IsParenthesis (Text.ascii '(') := isParenthesis (Or.inl rfl)
  have halone : Run false (some (Text.ascii '(')) .code [] t →
      Becomes quoting pos before (Text.ascii '('::t) fun _ => Text.ascii '('::code none :=
    fun hstop => hparen.becomes_alone h hstop before
  obtain ⟨ts,ws,hcut,hr,hcode⟩ := h
  cases hcut with
  | nil => exact halone .ended
  | blank hb hc => exact halone (.stop (Or.inl hb))
  | @token _ _ k w t ts hb hp hc =>
    have hfound : (token? (some (Text.ascii '(')) (w ++ t)).isSome = true →
        Run false (some (Text.ascii '(')) .code [] (w ++ t) := by
      obtain ⟨b,w,rfl⟩ := List.exists_cons_of_ne_nil hp.ne_nil
      exact fun htoken => .stop (Or.inr ⟨rfl,htoken⟩)
    cases hp with
    | @accessor c _ body _ ho hcast hbody hkind =>
      have ha := accessor?_eq_some_iff.mpr ⟨c,body,t,rfl,hcast,hbody,hkind,rfl⟩
      refine halone (hfound ?_)
      rw [token?_of_accessor ho (by simpa using ha)]
      rfl
    | operator ho =>
      refine halone (hfound ?_)
      rw [token?_of_operator ho]
      rfl
    | run hne ht hrun =>
      -- script text goes on behind the parenthesis
      cases hr with
      | @cons _ r _ ws hw hws =>
        obtain rfl : w = r := Except.ok.inj hw
        obtain ⟨b,w,rfl⟩ := List.exists_cons_of_ne_nil hne
        have hon : Run false (some (Text.ascii '(')) .code (b::w) t := by
          cases hrun with
          | inside hs => exact absurd rfl hs
          | byte hb _ hr => exact .byte hb (Or.inr ht) hr
        have hrest : Becomes quoting (pos+(Text.ascii '('::b::w).length)
            (Text.ascii '('::b::w).getLast? t fun last => glueFrom last ws := by
          refine ⟨ts,ws,?_,hws,fun _ => rfl⟩
          rwa [List.getLast?_cons_cons,List.length_cons,Nat.add_comm (b::w).length,
            ← Nat.add_assoc]
        refine (hparen.becomes hrest hon before).congr fun _ => ?_
        rw [← hcode,glueFrom,List.getLast?_cons_cons,Option.or_none]
        rfl

/-- A closing bracket in what tokens become comes from the tokens. -/
lemma Cut.mem_of_mem_glueFrom {quoting : Bool} {pos : ℕ} {before : Option UInt8} {t : Text}
    {ts : List Token} (h : Cut pos before t ts) {ws : List Text} (hr : Reads quoting ts ws)
    {last : Option UInt8} (hm : Text.ascii ']' ∈ glueFrom last ws) : Text.ascii ']' ∈ t := by
  induction h generalizing ws last with
  | nil =>
    cases hr
    simp [glueFrom] at hm
  | blank _ _ ih => exact List.mem_cons_of_mem _ (ih hr hm)
  | @token pos before k w t ts hb hp hc ih =>
    cases hr with
    | @cons _ r _ ws hw hws =>
      have hjoint : Text.ascii ']' ∉ joint last r := by
        rw [joint]
        split <;> decide
      simp only [glueFrom,List.mem_append,hjoint,false_or] at hm
      rcases hm with hm | hm
      · refine List.mem_append_left _ ?_
        cases hp with
        | accessor => simp
        | operator ho =>
          obtain ⟨_,_,_,_,_,_,hacc⟩ := operator?_eq_some ho
          rw [Token.reading_of_not_isAccessor quoting hacc,Except.ok.injEq] at hw
          rwa [← hw] at hm
        | run => rwa [← show w = r from Except.ok.inj hw] at hm
      · exact List.mem_append_right _ (ih hws hm)

/-- An accessor in a filter becomes a read. -/
lemma Token.reading_eq_ok {quoting : Bool} {t : Token} (hk : t.kind.isAccessor = true) {r : Text}
    (h : t.reading quoting = .ok r) : ∃ f : Field, r = f.read := by
  have hread : (t.field quoting).map Field.read = .ok r → ∃ f : Field, r = f.read := by
    intro h
    cases hf : t.field quoting with
    | error e => simp [hf,Except.map] at h
    | ok f =>
      simp only [hf,Except.map,Except.ok.injEq] at h
      exact ⟨f,h.symm⟩
  rw [Token.reading] at h
  cases hkind : t.kind with
  | accessor | ambiguous =>
    simp only [hkind] at h
    exact hread h
  | append => simp [hkind] at h
  | assignment | separator | passthrough => simp [hkind,Kind.isAccessor] at hk

/-- What a token becomes closes its literals. -/
lemma Piece.after_reading {quoting : Bool} {pos : ℕ} {before : Option UInt8} {k : Kind}
    {w rest r code : Text} (h : Piece before k w rest)
    (hr : Token.reading quoting ⟨k,w,pos⟩ = .ok r) (ht : Tidy (r ++ code))
    (hrest : rest = [] → code = []) : Spot.code.after r = .code := by
  cases h with
  | accessor ho hcast hbody hkind =>
    obtain ⟨f,rfl⟩ := Token.reading_eq_ok (isAccessor_of_bodyKind? hkind) hr
    obtain ⟨u,hu⟩ := f.read_ends
    rw [hu] at ht ⊢
    have hp := ht.outside (Text.ascii 'r'::u) code (by simp)
    rw [← List.cons_append,Spot.after_append,hp]
    rfl
  | operator ho =>
    obtain ⟨v,u,hv,hlen,-,hall,hacc⟩ := operator?_eq_some ho
    rw [Token.reading_of_not_isAccessor quoting hacc,Except.ok.injEq] at hr
    obtain ⟨rfl,-⟩ := List.append_inj hv hlen
    rw [← hr]
    exact Spot.after_code fun b hb => (not_sticks_of_mem b (hall b hb)).2.2
  | run _ _ hrun =>
    rw [← show w = r from Except.ok.inj hr] at ht ⊢
    by_cases hnil : rest = []
    · rw [hrest hnil,List.append_nil] at ht
      exact ht.closed
    · exact hrun.after hnil

/-- Script text in tidy code has a closing bracket behind every opening one that could be the start
of an accessor. -/
lemma Cut.shut {quoting : Bool} {pos : ℕ} {before : Option UInt8} {t : Text} {ts : List Token}
    (h : Cut pos before t ts) {ws : List Text} (hr : Reads quoting ts ws) {w : Text}
    {last : Option UInt8} (htidy : Tidy (w ++ glueFrom last ws)) : Shut .code w t := by
  intro p c u hw hcode hcast
  have hm := htidy.bracket (p ++ [c]) (u ++ glueFrom last ws) (by simp [hw]) (by
    rw [Spot.after_append,hcode]
    exact Spot.step_code (not_isQuote_of_isCastLetter hcast))
  rcases List.mem_append.mp hm with hm | hm
  · exact List.mem_append_left _ hm
  · exact List.mem_append_right _ (h.mem_of_mem_glueFrom hr hm)

/-- Script text up to the end of a source goes on with a closing parenthesis. -/
lemma Becomes.run_closed {quoting : Bool} {pos : ℕ} {before : Option UInt8} {w more : Text}
    {code : Option UInt8 → Text}
    (h : Becomes quoting (pos+w.length+1) (some (Text.ascii ')')) more code) (hne : w ≠ [])
    (hb : ∀ b ∈ w.head?, Text.isBlank b = false)
    (ht : token? before (w ++ Text.ascii ')'::more) = none)
    (hr : Run true before .code (w ++ [Text.ascii ')']) more) :
    Becomes quoting pos before (w ++ Text.ascii ')'::more)
      fun last => glueFrom last [w] ++ Text.ascii ')'::code none := by
  rw [List.append_cons] at ht ⊢
  have hhead : ∀ b ∈ (w ++ [Text.ascii ')']).head?, Text.isBlank b = false := by
    rwa [List.head?_append_of_ne_nil _ hne]
  have hmore : Becomes quoting (pos+(w ++ [Text.ascii ')']).length)
      (w ++ [Text.ascii ')']).getLast? more code := by
    rwa [List.length_append,List.length_singleton,List.getLast?_concat,← Nat.add_assoc]
  refine (hmore.token hhead (.run (by simp) ht hr) rfl).congr fun last => ?_
  rw [List.getLast?_concat,Option.some_or,h.code_of_not_sticks (by decide),glueFrom,glueFrom,joint,
    joint,List.head?_append_of_ne_nil _ hne]
  simp

/-- A closing parenthesis behind a source whose code is tidy: it is a token, or the end of the last
one. What stands behind the parenthesis starts with a blank. -/
theorem Cut.closed {quoting : Bool} {pos : ℕ} {before : Option UInt8} {t : Text} {ts : List Token}
    (h : Cut pos before t ts) {ws : List Text} (hr : Reads quoting ts ws) {last : Option UInt8}
    (htidy : Tidy (glueFrom last ws)) {more : Text} {code : Option UInt8 → Text}
    (hmore : ∀ b ∈ more.head?, Text.isBlank b = true)
    (hbecomes : Becomes quoting (pos+t.length+1) (some (Text.ascii ')')) more code) :
    Becomes quoting pos before (t ++ Text.ascii ')'::more)
      fun last => glueFrom last ws ++ Text.ascii ')'::code none := by
  have hparen : IsParenthesis (Text.ascii ')') := isParenthesis (Or.inr rfl)
  have hstop : Run false (some (Text.ascii ')')) .code [] more := by
    cases more with
    | nil => exact .ended
    | cons b more => exact .stop (Or.inl (hmore b rfl))
  have hneutral : Neutral (Text.ascii ')'::more) := by
    constructor <;> rw [List.head?_cons] <;> decide
  induction h generalizing ws last with
  | @nil pos before =>
    cases hr
    exact hparen.becomes_alone hbecomes hstop before
  | @blank pos before b t ts hb hc ih =>
    rw [List.length_cons,Nat.add_comm t.length,← Nat.add_assoc] at hbecomes
    exact (ih hr htidy hbecomes).blank hb before
  | @token pos before k w t ts hb hp hc ih =>
    cases hr with
    | @cons _ r _ ws hw hws =>
      have hjoint : Spot.code.after (joint last r) = .code := by
        rw [joint]
        split <;> rfl
      have hrest : Tidy (r ++ glueFrom (r.getLast?.or last) ws) := htidy.suffix hjoint
      have hend : t = [] → ts = [] ∧ ws = [] := by
        rintro rfl
        obtain rfl : ts = [] := hc.scanFrom_eq.symm
        cases hws
        exact ⟨rfl,rfl⟩
      have hafter := hp.after_reading hw hrest fun ht => by rw [(hend ht).2]; rfl
      -- a token that stays as it is, with the rest of the source behind it
      have hstays : Piece before k w (t ++ Text.ascii ')'::more) →
          Becomes quoting pos before (w ++ t ++ Text.ascii ')'::more)
            fun last => glueFrom last (r::ws) ++ Text.ascii ')'::code none := by
        intro hpiece
        rw [List.length_append,← Nat.add_assoc] at hbecomes
        rw [List.append_assoc]
        refine ((ih hws (hrest.suffix hafter) hbecomes).token hb hpiece hw).congr fun last => ?_
        simp only [glueFrom,List.append_assoc]
      cases hp with
      | accessor ho hcast hbody hkind => exact hstays (.accessor ho hcast hbody hkind)
      | operator ho =>
        have hpiece : Piece before k w t := .operator ho
        refine hstays (.operator ?_)
        rw [← List.append_assoc,operator?_append (by simp [hpiece.ne_nil]) hneutral,ho]
      | run hne ht hrun =>
        obtain rfl : w = r := Except.ok.inj hw
        have hshut : Shut .code w t := hc.shut hws hrest
        have hbracket := hrun.head_ne_bracket hne
        have htoken : token? before (w ++ t ++ Text.ascii ')'::more) = none := by
          rw [token?_append before (by simp [hne]) hneutral (hshut.head hbracket hne)]
          exact ht
        by_cases hnil : t = []
        · obtain ⟨rfl,rfl⟩ := hend hnil
          subst hnil
          rw [List.append_nil] at htoken hbecomes ⊢
          exact hbecomes.run_closed hne hb htoken (hrun.goes_on hneutral hshut hafter
            (hparen.run false _ hstop) (Or.inr hne))
        · refine hstays (.run hne ?_ (hrun.append_rest hnil hneutral hshut hbracket))
          rwa [← List.append_assoc]

/-- Two filters as one. -/
def conjunction (p q : Text) : Text :=
  Text.ofString "(" ++ (p ++ (Text.ofString ") and (" ++ (q ++ Text.ofString ")")))

lemma expand_filter_eq_ok_iff {quoting : Bool} {src : Text} {x : Expansion} :
    expand .filter quoting src = .ok x ↔
      ∃ ws, Reads quoting (scan src) ws ∧ x = ⟨glueFrom none ws,[]⟩ := by
  simp only [expand_filter,Reads,← mapM_eq_ok_iff,← glueAll_eq]
  cases (scan src).mapM (Token.reading quoting) with
  | error e => simp [bind,Except.bind]
  | ok ws => simp [bind,Except.bind,pure,Except.pure,eq_comm]

lemma Token.reading_at {quoting : Bool} {t : Token} {w : Text} (h : t.reading quoting = .ok w)
    (pos : ℕ) : Token.reading quoting { t with pos := pos } = .ok w := by
  have hfield : (t.field quoting).map Field.read = .ok w →
      (Token.field quoting { t with pos := pos }).map Field.read = .ok w := by
    intro h
    cases hf : t.field quoting with
    | error e => simp [hf,Except.map] at h
    | ok f =>
      rw [Token.field_at hf pos]
      rwa [hf] at h
  obtain ⟨kind,lexeme,pos'⟩ := t
  cases kind with
  | accessor | ambiguous => exact hfield h
  | append => simp [Token.reading] at h
  | assignment | separator | passthrough => exact h

lemma Reads.shift {quoting : Bool} {ts : List Token} {ws : List Text} (h : Reads quoting ts ws)
    (n : ℕ) : Reads quoting (ts.map (Token.shift n)) ws := by
  induction h with
  | nil => exact .nil
  | cons ht _ ih => exact .cons (Token.reading_at ht _) ih

/-- A source behind an opening parenthesis and in front of a closing one. -/
lemma becomes_group {quoting : Bool} {src : Text} {ws : List Text}
    (hr : Reads quoting (scan src) ws) (ht : Tidy (glueFrom none ws)) {pos : ℕ} {more : Text}
    {code : Option UInt8 → Text} (hmore : ∀ b ∈ more.head?, Text.isBlank b = true)
    (hb : Becomes quoting (pos+1+src.length+1) (some (Text.ascii ')')) more code)
    (before : Option UInt8) :
    Becomes quoting pos before (Text.ascii '('::(src ++ Text.ascii ')'::more))
      fun _ => Text.ascii '('::(glueFrom none ws ++ Text.ascii ')'::code none) := by
  have hopen : Cut 0 (some (Text.ascii '(')) src (scan src) :=
    (cut_scan src).congr_before (by decide)
  have hshift := hopen.shift (pos+1)
  rw [Nat.zero_add] at hshift
  exact (hshift.closed (hr.shift _) ht hmore hb).opened before

/-- Script text in which no token starts, up to a blank. -/
lemma run_of_plain {w t : Text} {b : UInt8} (hb : Text.isBlank b = true)
    (hw : ∀ c ∈ w, Text.isBlank c = false ∧ Text.isQuote c = false ∧ isCastLetter c = false ∧
      c ∉ operatorBytes) (start : Bool) (before : Option UInt8) :
    Run start before .code w (b::t) := by
  induction w generalizing start before with
  | nil => exact .stop (Or.inl hb)
  | cons c w ih =>
    obtain ⟨hblank,hquote,hcast,hop⟩ := hw c (by simp)
    refine .byte hblank (Or.inr (token?_eq_none_of_head hcast hop _)) ?_
    rw [Spot.step_code hquote]
    exact ih (fun d hd => hw d (by simp [hd])) false _

/-- The word between two groups, with the blanks around it. -/
lemma Becomes.and {quoting : Bool} {pos : ℕ} {t : Text} {code : Option UInt8 → Text}
    (h : Becomes quoting (pos+5) (some (Text.ascii ' ')) t code) (before : Option UInt8) :
    Becomes quoting pos before (Text.ofString " and " ++ t) fun last =>
      joint last (Text.ofString "and") ++ (Text.ofString "and" ++ code (some (Text.ascii 'd'))) := by
  have hbyte : ∀ b ∈ Text.ofString "and", Text.isBlank b = false ∧ Text.isQuote b = false ∧
      isCastLetter b = false ∧ b ∉ operatorBytes := by decide +kernel
  have hand : Text.ofString "and" = Text.ascii 'a'::Text.ofString "nd" := by decide
  have hlast : (Text.ofString "and").getLast? = some (Text.ascii 'd') := by decide
  have hblank : Text.isBlank (Text.ascii ' ') = true := by decide
  have htext : Text.ofString " and " =
      Text.ascii ' '::(Text.ofString "and" ++ [Text.ascii ' ']) := by decide
  have hhead : ∀ b ∈ (Text.ofString "and").head?, Text.isBlank b = false := by
    rintro b ⟨⟩
    decide
  have hpiece : Piece (some (Text.ascii ' ')) .passthrough (Text.ofString "and")
      (Text.ascii ' '::t) := by
    refine .run (by decide) ?_ (run_of_plain hblank hbyte _ _)
    rw [hand,List.cons_append]
    exact token?_eq_none_of_head (by decide) (by decide) _
  rw [htext,List.cons_append,List.append_assoc]
  refine (((h.blank hblank _).token hhead hpiece rfl).blank hblank before).congr fun last => ?_
  rw [hlast,Option.some_or]

/-- The code of two filters as one is the code of each of them, in parentheses. -/
theorem expand_conjunction {quoting : Bool} {p q : Text} {x y : Expansion}
    (hp : expand .filter quoting p = .ok x) (hq : expand .filter quoting q = .ok y)
    (hx : Tidy x.code) (hy : Tidy y.code) :
    expand .filter quoting (conjunction p q) = .ok ⟨conjunctionCode x.code y.code,[]⟩ := by
  obtain ⟨ws,hws,rfl⟩ := expand_filter_eq_ok_iff.mp hp
  obtain ⟨xs,hxs,rfl⟩ := expand_filter_eq_ok_iff.mp hq
  -- from the right, each part in front of what is cut already
  have hsecond : Becomes quoting (0+1+p.length+1) (some (Text.ascii ')')) _ _ :=
    (becomes_group hxs hy (by simp) becomes_nil _).and _
  obtain ⟨us,vs,hu,hvs,hcode⟩ := becomes_group hws hx (by rintro b ⟨⟩; decide) hsecond none
  have hsource : conjunction p q = Text.ascii '('::(p ++ Text.ascii ')'::
      (Text.ofString " and " ++ Text.ascii '('::(q ++ [Text.ascii ')']))) := by
    rw [conjunction,show Text.ofString ") and (" =
      Text.ascii ')'::(Text.ofString " and " ++ [Text.ascii '(']) by decide,
      List.cons_append,List.append_assoc]
    rfl
  refine expand_filter_eq_ok_iff.mpr ⟨vs,?_,?_⟩
  · rw [hsource,scan,hu.scanFrom_eq]
    exact hvs
  · rw [hcode,conjunctionCode,show Text.ofString ")and(" =
      Text.ascii ')'::(Text.ofString "and" ++ [Text.ascii '(']) by decide,
      List.cons_append,List.append_assoc]
    rfl

end CellScript.Shorthand
