import Mathlib
import CellScript.Proofs.Shorthand.Partition
import CellScript.Proofs.Shorthand.Sequence

/-! Statements by looking ahead. An expansion holds every accessor back until the next token tells
whether it is a target or a read. The same code comes out when the first assignment operator of each
statement is looked up before anything is written. -/
namespace CellScript.Shorthand

/-- A token with what it stands for. -/
inductive Word where
  /-- An accessor with its field, and with the label of the column if it creates one. -/
  | accessor (field : Field) (label : Option Text)
  /-- An assignment operator without its equals sign. -/
  | assignment (operator : Text)
  | separator
  | script (text : Text)

namespace Word

def isAssignment : Word → Bool
  | assignment _ => true
  | _ => false

def isSeparator : Word → Bool
  | separator => true
  | _ => false

def field? : Word → Option Field
  | accessor f _ => some f
  | _ => none

def label? : Word → Option Text
  | accessor _ label => label
  | _ => none

/-- A word that is no target: accessors are read, and all else stays as it is. -/
def shown : Word → Text
  | accessor f _ => f.read
  | assignment op => op ++ "="
  | separator => ";"
  | script w => w

/-- What a target and the operator behind it become. A compound operator has the old value read in
front of it, and a parenthesis opened behind it. -/
def opening (f : Field) (op : Text) : List Text :=
  (f.target ++ " = ")::if op.isEmpty then [] else [f.read ++ " " ++ op ++ " ("]

/-- The parenthesis at the end of a compound assignment. -/
def closing (op : Text) : List Text := if op.isEmpty then [] else [")"]

/-- The fragments of one statement. An accessor right before the first assignment operator is a
target, and all else is shown. -/
def statement (ws : List Word) : List Text :=
  let front := ws.takeWhile (!·.isAssignment)
  match front.getLast?,ws.dropWhile (!·.isAssignment) with
  | some (accessor f _),assignment op::rest =>
    front.dropLast.map shown ++ (opening f op ++ (rest.map shown ++ closing op))
  | _,_ => ws.map shown

def statements (ws : List Word) : List Text :=
  List.intercalate [Text.ofString ";"] ((ws.splitOnP isSeparator).map statement)

end Word

/-- What a token stands for. A new column without a label is named by its number. -/
def Token.word (quoting : Bool) (number : ℕ) (t : Token) : Except Error Word :=
  match t.kind with
  | .accessor | .ambiguous => do return .accessor (← t.field quoting) none
  | .append => do
    let (cast,own) ← t.newColumn
    let label := if own.isEmpty then "_" ++ Text.ofNat number else own
    return .accessor ⟨cast,"\"" ++ label ++ "\""⟩ (some label)
  | .assignment => .ok (.assignment (Text.dropEnding "=" t.lexeme))
  | .separator => .ok .separator
  | .passthrough => .ok (.script t.lexeme)

def words (quoting : Bool) : ℕ → List Token → Except Error (List Word)
  | _,[] => .ok []
  | k,t::ts => do
    let w ← t.word quoting (k+1)
    let ws ← words quoting (if t.kind = .append then k+1 else k) ts
    return w::ws

def Draft.take (d : Draft) : Word → Draft
  | .accessor f label =>
    { d.flush with pending := some f, newHeaders := d.newHeaders ++ label.toList }
  | .assignment op => if d.atTarget then d.assign (op ++ "=") else d.pass (op ++ "=")
  | .separator => { d.endStatement.write ";" with atTarget := true }
  | .script w => d.pass w

/-- Separators and assignment operators are written in one way only. -/
lemma mem_signs_of_scan {src : Text} {t : Token} (h : t ∈ scan src)
    (hk : t.kind = .separator ∨ t.kind = .assignment) : t.lexeme ∈ t.kind.signs := by
  obtain ⟨p,r,hb⟩ := exists_between h
  have hp := hb.piece
  generalize t.kind = k at hp hk
  generalize t.lexeme = w at hp
  cases hp with
  | accessor _ _ _ hbody =>
    have hx := isAccessor_of_bodyKind? hbody
    rcases hk with rfl | rfl <;> exact absurd hx Bool.false_ne_true
  | operator ho => exact mem_signs ho
  | run => simp at hk

lemma assignment_of_mem_signs {w : Text} (h : w ∈ Kind.assignment.signs) :
    w = Text.dropEnding "=" w ++ Text.ofString "=" := by
  have hall : ∀ w ∈ Kind.assignment.signs, w = Text.dropEnding "=" w ++ Text.ofString "=" := by
    decide +kernel
  exact hall w h

lemma separator_of_mem_signs {w : Text} (h : w ∈ Kind.separator.signs) : w = Text.ofString ";" := by
  simpa [Kind.signs] using h

/-- A token that is no accessor is shown as it is written. -/
lemma exists_shown_word {src : Text} {t : Token} (h : t ∈ scan src)
    (hk : t.kind.isAccessor = false) (quoting : Bool) (n : ℕ) :
    ∃ w, t.word quoting n = .ok w ∧ w.shown = t.lexeme := by
  have hsigns := mem_signs_of_scan h
  obtain ⟨kind,lexeme,pos⟩ := t
  cases kind with
  | accessor | ambiguous | append => exact absurd hk.symm Bool.false_ne_true
  | assignment => exact ⟨_,rfl,(assignment_of_mem_signs (hsigns (Or.inr rfl))).symm⟩
  | separator => exact ⟨_,rfl,(separator_of_mem_signs (hsigns (Or.inl rfl))).symm⟩
  | passthrough => exact ⟨_,rfl,rfl⟩

/-- What a token does to a draft is what it stands for does. -/
lemma Draft.visitStatement_eq_take (quoting : Bool) (d : Draft) {t : Token}
    (ht : t.kind = .separator ∨ t.kind = .assignment → t.lexeme ∈ t.kind.signs) :
    d.visitStatement quoting t =
      do return d.take (← t.word quoting (d.newHeaders.length+1)) := by
  obtain ⟨kind,lexeme,pos⟩ := t
  cases kind with
  | accessor | ambiguous =>
    simp only [visitStatement,Token.word,take,bind_assoc,pure_bind,Option.toList_none,
      List.append_nil,← flush_newHeaders d]
  | append =>
    simp only [visitStatement,Token.word,take,bind_assoc,pure_bind,Option.toList_some]
    rfl
  | assignment =>
    have hsign : lexeme = _ := assignment_of_mem_signs (ht (Or.inr rfl))
    change Except.ok (if d.atTarget then d.assign lexeme else d.pass lexeme) =
      Except.ok (d.take (.assignment (Text.dropEnding "=" lexeme)))
    rw [take,← hsign]
  | separator =>
    have hsign : lexeme = _ := separator_of_mem_signs (ht (Or.inl rfl))
    simp only [visitStatement,Token.word,take,hsign]
    rfl
  | passthrough => rfl

lemma Draft.take_newHeaders (d : Draft) (w : Word) :
    (d.take w).newHeaders = d.newHeaders ++ w.label?.toList := by
  cases w with
  | accessor f label => rfl
  | assignment op =>
    simp only [take,Word.label?,Option.toList_none,List.append_nil]
    split
    · exact d.assign_newHeaders _
    · exact d.flush_newHeaders
  | separator => simp [take,Word.label?,write]
  | script w => simp [take,Word.label?,pass,write,flush_newHeaders]

/-- What a token can stand for. -/
lemma Token.word_eq_ok {quoting : Bool} {n : ℕ} {t : Token} {w : Word}
    (h : t.word quoting n = .ok w) :
    (∃ f, (t.kind = .accessor ∨ t.kind = .ambiguous) ∧ t.field quoting = .ok f ∧
      w = .accessor f none) ∨
    (∃ f label, t.kind = .append ∧ w = .accessor f (some label)) ∨
    (∃ op, t.kind = .assignment ∧ w = .assignment op) ∨
    (t.kind = .separator ∧ w = .separator) ∨
    (t.kind = .passthrough ∧ w = .script t.lexeme) := by
  rw [Token.word] at h
  cases hk : t.kind with
  | accessor | ambiguous =>
    simp only [hk,bind_eq_ok_iff] at h
    obtain ⟨f,hf,h⟩ := h
    exact Or.inl ⟨f,by simp,hf,(Except.ok.inj h).symm⟩
  | append =>
    simp only [hk,bind_eq_ok_iff] at h
    obtain ⟨x,-,h⟩ := h
    exact Or.inr (Or.inl ⟨_,_,rfl,(Except.ok.inj h).symm⟩)
  | assignment | separator | passthrough =>
    simp only [hk,Except.ok.injEq] at h
    simp [← h]

lemma Token.length_label? {quoting : Bool} {n : ℕ} {t : Token} {w : Word}
    (h : t.word quoting n = .ok w) : w.label?.toList.length = if t.kind = .append then 1 else 0 := by
  rcases Token.word_eq_ok h with ⟨f,hk,-,rfl⟩ | ⟨f,label,hk,rfl⟩ | ⟨op,hk,rfl⟩ | ⟨hk,rfl⟩ | ⟨hk,rfl⟩
  · rcases hk with hk | hk <;> rw [hk] <;> rfl
  all_goals
    rw [hk]
    rfl

/-- The tokens of a source are taken in as what they stand for. -/
lemma foldlM_visitStatement (quoting : Bool) {ts : List Token}
    (hts : ∀ t ∈ ts, t.kind = .separator ∨ t.kind = .assignment → t.lexeme ∈ t.kind.signs)
    (d : Draft) : ts.foldlM (Draft.visitStatement quoting) d =
      do return (← words quoting d.newHeaders.length ts).foldl Draft.take d := by
  induction ts generalizing d with
  | nil => rfl
  | cons t ts ih =>
    rw [List.foldlM_cons,d.visitStatement_eq_take quoting (hts t (by simp)),words]
    simp only [bind_assoc,pure_bind,List.foldl_cons]
    cases hw : t.word quoting (d.newHeaders.length+1) with
    | error e => rfl
    | ok w =>
      have hlen : (d.take w).newHeaders.length =
          if t.kind = .append then d.newHeaders.length+1 else d.newHeaders.length := by
        rw [d.take_newHeaders,List.length_append,Token.length_label? hw]
        split <;> rfl
      change List.foldlM _ (d.take w) ts = _
      rw [ih (fun u hu => hts u (by simp [hu])),hlen]
      rfl

/-- A source is expanded by taking in what its tokens stand for. -/
theorem expand_statement (quoting : Bool) (src : Text) : expand .statement quoting src =
    do return ((← words quoting 0 (scan src)).foldl Draft.take {}).finish := by
  rw [expand]
  change (List.foldlM (Draft.visitStatement quoting) {} (scan src) >>= fun d => return d.finish) = _
  rw [foldlM_visitStatement quoting (fun t ht => mem_signs_of_scan ht)]
  simp only [bind_assoc,pure_bind]
  rfl

namespace Draft

/-- A word that ends no statement and makes no target. -/
structure Passes (d : Draft) (w : Word) : Prop where
  inside : w.isSeparator = false
  later : w.isAssignment = true → d.atTarget = false

/-- A later draft in which some words have been shown, the last one of them held back if it is an
accessor. -/
structure Shows (d : Draft) (ws : List Word) (e : Draft) : Prop where
  fragments : e.flush.fragments = d.flush.fragments ++ ws.map Word.shown
  pending : e.pending = (ws.getLast?.map Word.field?).getD d.pending
  atTarget : e.atTarget = d.atTarget
  inGroup : e.inGroup = d.inGroup

lemma Shows.cons {d e f : Draft} {w : Word} {ws : List Word} (h : d.Shows [w] e)
    (h' : e.Shows ws f) : d.Shows (w::ws) f where
  fragments := by rw [h'.fragments,h.fragments,List.append_assoc]; rfl
  pending := by
    rw [h'.pending,h.pending,List.getLast?_singleton,List.getLast?_cons]
    cases ws.getLast? <;> rfl
  atTarget := h'.atTarget.trans h.atTarget
  inGroup := h'.inGroup.trans h.inGroup

lemma flush_of_none {d : Draft} (h : d.pending = none) : d.flush = d := by
  rw [flush,h]

lemma flush_pending (d : Draft) : d.flush.pending = none := by
  obtain ⟨pending,atTarget,inGroup,fragments,newHeaders⟩ := d
  cases pending <;> rfl

lemma flush_inGroup (d : Draft) : d.flush.inGroup = d.inGroup := by
  obtain ⟨pending,atTarget,inGroup,fragments,newHeaders⟩ := d
  cases pending <;> rfl

lemma shows_pass (d : Draft) (w : Text) {x : Word} (hx : x.shown = w) (hf : x.field? = none) :
    d.Shows [x] (d.pass w) where
  fragments := by
    rw [flush_of_none (show (d.pass w).pending = none from d.flush_pending)]
    simp [pass,write,hx]
  pending := by
    rw [show (d.pass w).pending = none from d.flush_pending]
    simp [hf]
  atTarget := d.flush_atTarget
  inGroup := d.flush_inGroup

lemma shows_take {d : Draft} {w : Word} (h : d.Passes w) : d.Shows [w] (d.take w) := by
  cases w with
  | accessor f label =>
    refine ⟨?_,rfl,d.flush_atTarget,d.flush_inGroup⟩
    simp [take,flush,write,Word.shown]
  | assignment op =>
    rw [take,if_neg (by simp [h.later rfl])]
    exact d.shows_pass _ rfl rfl
  | separator => exact absurd h.inside.symm Bool.false_ne_true
  | script w => exact d.shows_pass w rfl rfl

lemma Passes.congr {d e : Draft} {w : Word} (h : d.Passes w) (he : e.atTarget = d.atTarget) :
    e.Passes w :=
  ⟨h.inside,fun ha => he.trans (h.later ha)⟩

/-- Words that pass are shown. -/
lemma shows_foldl {d : Draft} {ws : List Word} (h : ∀ w ∈ ws, d.Passes w) :
    d.Shows ws (ws.foldl take d) := by
  induction ws generalizing d with
  | nil => exact ⟨by simp,rfl,rfl,rfl⟩
  | cons w ws ih =>
    have hw := shows_take (h w (by simp))
    apply hw.cons
    apply ih
    intro x hx
    exact (h x (by simp [hx])).congr hw.atTarget

structure Fresh (d : Draft) : Prop where
  pending : d.pending = none
  atTarget : d.atTarget = true
  inGroup : d.inGroup = false

lemma endStatement_fragments (d : Draft) : d.endStatement.fragments =
    d.flush.fragments ++ if d.inGroup then [Text.ofString ")"] else [] := by
  rw [endStatement]
  simp only [d.flush_inGroup]
  split
  · rfl
  · rw [List.append_nil]

/-- The first assignment operator of a statement and the accessor right before it. -/
lemma take_target {d : Draft} (hd : d.atTarget = true) (f : Field) (label : Option Text)
    (op : Text) : (d.take (.accessor f label)).take (.assignment op) =
      { pending := none
        atTarget := false
        inGroup := d.inGroup || !op.isEmpty
        fragments := d.flush.fragments ++ Word.opening f op
        newHeaders := d.newHeaders ++ label.toList } := by
  have hflush : ({ d.flush with pending := some f, newHeaders := d.newHeaders ++ label.toList } :
      Draft).atTarget = true := d.flush_atTarget.trans hd
  have hequals : Text.ofString "=" = [Text.ascii '='] := by decide
  have hbare : bareOperator (op ++ Text.ofString "=") = op := by
    rw [bareOperator,hequals,List.dropLast_concat]
  have hplain : ((op ++ Text.ofString "=").length == 1) = op.isEmpty := by
    rw [hequals]
    cases op <;> simp
  rw [take,take,if_pos hflush,assign,hbare,hplain,Word.opening]
  cases op.isEmpty <;> simp [write,flush_inGroup]

end Draft

namespace Word

lemma statement_of_shown {ws : List Word} (h : ∀ w ∈ ws, w.isAssignment = false) :
    statement ws = ws.map shown := by
  have hdrop : ws.dropWhile (!·.isAssignment) = [] := by
    apply List.dropWhile_eq_nil_iff.mpr
    intro w hw
    rw [h w hw]
    rfl
  unfold statement
  rw [hdrop]
  dsimp only
  split
  · rename_i hnil
    simp at hnil
  · rfl

/-- The first assignment operator is the one with none in front of it. -/
lemma span_assignment {front : List Word} (h : ∀ w ∈ front, w.isAssignment = false) (op : Text)
    (rest : List Word) :
    (front ++ assignment op::rest).takeWhile (!·.isAssignment) = front ∧
      (front ++ assignment op::rest).dropWhile (!·.isAssignment) = assignment op::rest := by
  have hall : ∀ w ∈ front, (!w.isAssignment) = true := fun w hw => by rw [h w hw]; rfl
  rw [List.takeWhile_append_of_pos hall,List.dropWhile_append_of_pos hall]
  simp [isAssignment]

lemma statement_of_target {front : List Word} (h : ∀ w ∈ front, w.isAssignment = false)
    (f : Field) (label : Option Text) (op : Text) (rest : List Word) :
    statement (front ++ accessor f label::assignment op::rest) =
      front.map shown ++ (opening f op ++ (rest.map shown ++ closing op)) := by
  have hfront : ∀ w ∈ front ++ [accessor f label], w.isAssignment = false := by
    intro w hw
    rcases List.mem_append.mp hw with hw | hw
    · exact h w hw
    · rw [List.mem_singleton.mp hw]
      rfl
  obtain ⟨htake,hdrop⟩ := span_assignment hfront op rest
  rw [List.append_assoc,List.singleton_append] at htake hdrop
  unfold statement
  rw [htake,hdrop]
  simp

lemma statement_of_no_target {front : List Word} (h : ∀ w ∈ front, w.isAssignment = false)
    (hlast : front.getLast?.bind field? = none) (op : Text) (rest : List Word) :
    statement (front ++ assignment op::rest) = (front ++ assignment op::rest).map shown := by
  obtain ⟨htake,hdrop⟩ := span_assignment h op rest
  unfold statement
  rw [htake,hdrop]
  dsimp only
  split
  · rename_i hl _
    rw [hl] at hlast
    simp [field?] at hlast
  · rfl

lemma statements_of_one {ws : List Word} (h : ∀ w ∈ ws, w.isSeparator = false) :
    statements ws = statement ws := by
  rw [statements,List.splitOnP_eq_singleton h]
  simp

lemma statements_separator {front : List Word} (h : ∀ w ∈ front, w.isSeparator = false)
    (rest : List Word) : statements (front ++ separator::rest) =
      statement front ++ Text.ofString ";"::statements rest := by
  rw [statements,List.splitOnP_append_cons_of_forall_mem h _ rfl,statements]
  obtain ⟨ws,wss,hws⟩ := List.exists_cons_of_ne_nil (List.splitOnP_ne_nil isSeparator rest)
  rw [hws,List.map_cons,List.map_cons,List.intercalate_cons_cons]
  simp

/-- The words of a statement by its first assignment operator: there is none, or it has no accessor
right before it, or it has one. -/
inductive Sentence : List Word → Prop
  | shown {ws : List Word} : (∀ w ∈ ws, w.isAssignment = false) → Sentence ws
  | bare {front rest : List Word} {op : Text} : (∀ w ∈ front, w.isAssignment = false) →
      front.getLast?.bind field? = none → Sentence (front ++ assignment op::rest)
  | target {front rest : List Word} {f : Field} {label : Option Text} {op : Text} :
      (∀ w ∈ front, w.isAssignment = false) →
      Sentence (front ++ accessor f label::assignment op::rest)

lemma sentence (ws : List Word) : Sentence ws := by
  cases hfind : ws.find? isAssignment with
  | none =>
    apply Sentence.shown
    simpa using hfind
  | some w =>
    obtain ⟨hw,front,rest,rfl,hfree⟩ := List.find?_eq_some_iff_append.mp hfind
    have hfront : ∀ x ∈ front, x.isAssignment = false := by simpa using hfree
    cases w with
    | assignment op =>
      rcases front.eq_nil_or_concat with rfl | ⟨front,x,rfl⟩
      · exact .bare hfront rfl
      · cases x with
        | accessor f label =>
          rw [List.concat_eq_append,List.append_assoc]
          apply Sentence.target
          intro y hy
          exact hfront y (by simp [hy])
        | _ =>
          apply Sentence.bare hfront
          simp [field?]
    | _ => simp [isAssignment] at hw

end Word

namespace Draft

/-- An assignment operator without a target is shown, and it is the last one that can have one. -/
lemma take_bare {d : Draft} (hp : d.pending = none) (hd : d.atTarget = true) (op : Text) :
    d.take (.assignment op) = { d with
      pending := none
      atTarget := false
      fragments := d.fragments ++ [Word.shown (.assignment op)] } := by
  rw [take,if_pos hd,assign]
  simp only [hp]
  rfl

/-- Words behind the first assignment operator of a statement are shown up to its end. -/
lemma endStatement_behind {d : Draft} (hp : d.pending = none) (hd : d.atTarget = false)
    {ws : List Word} (hsep : ∀ w ∈ ws, w.isSeparator = false) :
    (ws.foldl take d).endStatement.fragments = d.fragments ++ (ws.map Word.shown ++
      if d.inGroup then [Text.ofString ")"] else []) := by
  have hs : d.Shows ws (ws.foldl take d) := by
    apply shows_foldl
    intro w hw
    exact ⟨hsep w hw,fun _ => hd⟩
  rw [endStatement_fragments,hs.fragments,hs.inGroup,flush_of_none hp,List.append_assoc]

/-- Words without assignment operators are shown. -/
lemma shows_front {d : Draft} {ws : List Word} (hsep : ∀ w ∈ ws, w.isSeparator = false)
    (hop : ∀ w ∈ ws, w.isAssignment = false) : d.Shows ws (ws.foldl take d) := by
  apply shows_foldl
  intro w hw
  exact ⟨hsep w hw,fun ha => by simp [hop w hw] at ha⟩

/-- What a statement writes is found by looking ahead in it. -/
theorem endStatement_statement {d : Draft} (hd : d.Fresh) {ws : List Word}
    (hsep : ∀ w ∈ ws, w.isSeparator = false) :
    (ws.foldl take d).endStatement.fragments = d.fragments ++ Word.statement ws := by
  cases Word.sentence ws with
  | shown hop =>
    have hs := shows_front (d := d) hsep hop
    rw [endStatement_fragments,hs.fragments,hs.inGroup,hd.inGroup,flush_of_none hd.pending,
      Word.statement_of_shown hop]
    simp
  | @bare front rest op hop hlast =>
    have hs := shows_front (d := d) (fun w hw => hsep w (by simp [hw])) hop
    have hpending : (front.foldl take d).pending = none := by
      rw [hs.pending,hd.pending]
      cases hl : front.getLast? with
      | none => rfl
      | some w => simpa [hl] using hlast
    have hfragments := hs.fragments
    rw [flush_of_none hpending,flush_of_none hd.pending] at hfragments
    rw [List.foldl_append,List.foldl_cons,take_bare hpending (hs.atTarget.trans hd.atTarget),
      endStatement_behind rfl rfl (fun w hw => hsep w (by simp [hw])),
      Word.statement_of_no_target hop hlast,hfragments,hs.inGroup,hd.inGroup]
    simp
  | @target front rest f label op hop =>
    have hs := shows_front (d := d) (fun w hw => hsep w (by simp [hw])) hop
    rw [List.foldl_append,List.foldl_cons,List.foldl_cons,take_target (hs.atTarget.trans hd.atTarget),
      endStatement_behind rfl rfl (fun w hw => hsep w (by simp [hw])),
      Word.statement_of_target hop,hs.fragments,hs.inGroup,hd.inGroup,flush_of_none hd.pending,
      Word.closing]
    cases op.isEmpty <;> simp

/-- The fragments of words are those of their statements, with separators between them. -/
theorem endStatement_statements {d : Draft} (hd : d.Fresh) (ws : List Word) :
    (ws.foldl take d).endStatement.fragments = d.fragments ++ Word.statements ws := by
  induction hn : ws.length using Nat.strong_induction_on generalizing ws d with
  | _ n ih =>
    cases hfind : ws.find? Word.isSeparator with
    | none =>
      have hsep : ∀ w ∈ ws, w.isSeparator = false := by simpa using hfind
      rw [endStatement_statement hd hsep,Word.statements_of_one hsep]
    | some w =>
      obtain ⟨hw,front,rest,rfl,hfree⟩ := List.find?_eq_some_iff_append.mp hfind
      have hsep : ∀ x ∈ front, x.isSeparator = false := by simpa using hfree
      cases w with
      | separator =>
        have hfresh : ((front.foldl take d).take .separator).Fresh :=
          ⟨endStatement_pending _,rfl,endStatement_inGroup _⟩
        have hlt : rest.length < n := by
          rw [← hn,List.length_append,List.length_cons]
          omega
        rw [List.foldl_append,List.foldl_cons,ih rest.length hlt hfresh rest rfl,
          Word.statements_separator hsep,take]
        change (front.foldl take d).endStatement.fragments ++ [Text.ofString ";"] ++ _ = _
        rw [endStatement_statement hd hsep]
        simp
      | _ => simp [Word.isSeparator] at hw

lemma foldl_take_newHeaders (d : Draft) (ws : List Word) :
    (ws.foldl take d).newHeaders = d.newHeaders ++ ws.filterMap Word.label? := by
  induction ws generalizing d with
  | nil => simp
  | cons w ws ih =>
    rw [List.foldl_cons,ih,take_newHeaders,List.filterMap_cons,List.append_assoc]
    cases w.label? <;> rfl

end Draft

lemma Draft.fresh_empty : Draft.Fresh {} := ⟨rfl,rfl,rfl⟩

/-- What words taken in from the start come to. -/
lemma Draft.finish_words (ws : List Word) :
    (ws.foldl take {}).finish = ⟨glueAll (Word.statements ws),ws.filterMap Word.label?⟩ := by
  have hfragments := endStatement_statements fresh_empty ws
  rw [List.nil_append] at hfragments
  rw [finish,hfragments,endStatement_newHeaders,foldl_take_newHeaders,List.nil_append]

/-- A statement is expanded by looking ahead. Its tokens are words if they are accepted, with new
columns numbered through; the code is made of the fragments of its statements, and the new columns
are the labels in order. Tokens that are no accessors are shown as they are written. -/
theorem expand_looking_ahead (quoting : Bool) (src : Text) :
    (expand .statement quoting src = do
      let ws ← words quoting 0 (scan src)
      return ⟨glueAll (Word.statements ws),ws.filterMap Word.label?⟩) ∧
    ∀ t ∈ scan src, t.kind.isAccessor = false →
      ∀ n, ∃ w, t.word quoting n = .ok w ∧ w.shown = t.lexeme := by
  refine ⟨?_,fun t ht hk n => exists_shown_word ht hk quoting n⟩
  rw [expand_statement]
  congr 1
  funext ws
  rw [Draft.finish_words]

/-- A new column that is assigned to, with a second operator behind it; a compound assignment with two
accessors side by side; and an accessor at the end of a statement without an operator. -/
theorem expand_looking_ahead_chain :
    expand .statement true (Text.ofString "s[+] = f[a] = 2; i[0] += f[1]f[2]; 1 + f[b]") =
      .ok ⟨Text.ofString ("row[\"_1\"] = row.float[\"a\"]=2;" ++
        "row[0] = row.int[0] + (row.float[1]row.float[2]);1+row.float[\"b\"]"),
        [Text.ofString "_1"]⟩ ∧
    ∃ w, Token.word true 1 ⟨.assignment,Text.ofString "=",12⟩ = .ok w ∧
      w.shown = Text.ofString "=" := by
  obtain ⟨hexpand,hshown⟩ :=
    expand_looking_ahead true (Text.ofString "s[+] = f[a] = 2; i[0] += f[1]f[2]; 1 + f[b]")
  constructor
  · rw [hexpand]
    decide +kernel
  · exact hshown ⟨.assignment,Text.ofString "=",12⟩ (by decide +kernel) rfl 1

/-- A token that is no target, ends no statement and creates no column. -/
structure Token.OnlyReads (t : Token) : Prop where
  assignment : t.kind ≠ .assignment
  separator : t.kind ≠ .separator
  append : t.kind ≠ .append

lemma Token.OnlyReads.shown_word {t : Token} (h : t.OnlyReads) (quoting : Bool) (n : ℕ) :
    (do return (← t.word quoting n).shown) = t.reading quoting := by
  obtain ⟨kind,lexeme,pos⟩ := t
  cases kind with
  | accessor | ambiguous =>
    simp only [Token.word,Token.reading,bind_assoc,pure_bind]
    rfl
  | append => exact absurd rfl h.append
  | assignment => exact absurd rfl h.assignment
  | separator => exact absurd rfl h.separator
  | passthrough => rfl

/-- Words of tokens that only read are shown as in a filter. -/
lemma shown_words {ts : List Token} (h : ∀ t ∈ ts, t.OnlyReads) (quoting : Bool) (k : ℕ) :
    (do return (← words quoting k ts).map Word.shown) = ts.mapM (Token.reading quoting) := by
  induction ts generalizing k with
  | nil => rfl
  | cons t ts ih =>
    rw [words,List.mapM_cons,← (h t (by simp)).shown_word quoting (k+1),
      ← ih (fun u hu => h u (by simp [hu])) (if t.kind = .append then k+1 else k)]
    simp only [bind_assoc,pure_bind,List.map_cons]

lemma words_cons_eq_ok {quoting : Bool} {k : ℕ} {t : Token} {ts : List Token} {ws : List Word}
    (h : words quoting k (t::ts) = .ok ws) : ∃ w us, ws = w::us ∧ t.word quoting (k+1) = .ok w ∧
      words quoting (if t.kind = .append then k+1 else k) ts = .ok us := by
  simp only [words,bind_eq_ok_iff] at h
  obtain ⟨w,hw,us,hus,h⟩ := h
  exact ⟨w,us,(Except.ok.inj h).symm,hw,hus⟩

lemma exists_of_mem_words {quoting : Bool} {k : ℕ} {ts : List Token} {ws : List Word}
    (h : words quoting k ts = .ok ws) : ∀ w ∈ ws, ∃ t ∈ ts, ∃ n, t.word quoting n = .ok w := by
  induction ts generalizing k ws with
  | nil =>
    rw [← Except.ok.inj h]
    simp
  | cons t ts ih =>
    obtain ⟨w,us,rfl,hw,hus⟩ := words_cons_eq_ok h
    intro x hx
    rcases List.mem_cons.mp hx with rfl | hx
    · exact ⟨t,by simp,k+1,hw⟩
    · obtain ⟨u,hu,n,hn⟩ := ih hus x hx
      exact ⟨u,by simp [hu],n,hn⟩

/-- The word of a token that only reads is an accessor or script text. -/
lemma Token.OnlyReads.word {quoting : Bool} {n : ℕ} {t : Token} (ht : t.OnlyReads) {w : Word}
    (h : t.word quoting n = .ok w) :
    w.isSeparator = false ∧ w.isAssignment = false ∧ w.label? = none := by
  rcases Token.word_eq_ok h with ⟨f,-,-,rfl⟩ | ⟨f,label,hk,-⟩ | ⟨op,hk,-⟩ | ⟨hk,-⟩ | ⟨-,rfl⟩
  · exact ⟨rfl,rfl,rfl⟩
  · exact absurd hk ht.append
  · exact absurd hk ht.assignment
  · exact absurd hk ht.separator
  · exact ⟨rfl,rfl,rfl⟩

/-- A source that only reads is expanded alike as a statement and as a filter: it is refused with the
same error, or it has the same code and no new columns. -/
theorem expand_reads (quoting : Bool) {src : Text} (h : ∀ t ∈ scan src, t.OnlyReads) :
    expand .statement quoting src = expand .filter quoting src ∧
      ∀ x, expand .statement quoting src = .ok x → x.newHeaders = [] := by
  have hshown := shown_words h quoting 0
  rw [expand_statement,expand_filter,← hshown]
  cases hw : words quoting 0 (scan src) with
  | error e => exact ⟨rfl,fun x hx => absurd hx (by simp [bind,Except.bind])⟩
  | ok ws =>
    have hws : ∀ w ∈ ws, w.isSeparator = false ∧ w.isAssignment = false ∧ w.label? = none := by
      intro w hmem
      obtain ⟨t,ht,n,hn⟩ := exists_of_mem_words hw w hmem
      exact (h t ht).word hn
    have hlabels : ws.filterMap Word.label? = [] := by
      apply List.filterMap_eq_nil_iff.mpr
      exact fun w hmem => (hws w hmem).2.2
    have hfinish : (ws.foldl Draft.take {}).finish = ⟨glueAll (ws.map Word.shown),[]⟩ := by
      rw [Draft.finish_words,Word.statements_of_one fun w hmem => (hws w hmem).1,
        Word.statement_of_shown fun w hmem => (hws w hmem).2.1,hlabels]
    change Except.ok (ws.foldl Draft.take {}).finish = Except.ok _ ∧
      ∀ x, Except.ok (ws.foldl Draft.take {}).finish = Except.ok x → _
    rw [hfinish]
    refine ⟨rfl,?_⟩
    rintro x ⟨⟩
    rfl

/-- Accessors side by side and at the end of a source, and a source with a refused one behind one that
is held back. -/
theorem expand_reads_adjacent :
    (∃ x, expand .statement true (Text.ofString "f[a]f[0] + s['b;']") = .ok x ∧
      expand .filter true (Text.ofString "f[a]f[0] + s['b;']") = .ok x ∧
      x = ⟨Text.ofString "row.float[\"a\"]row.float[0]+row.str['b;']",[]⟩) ∧
    ∃ e, expand .statement true (Text.ofString "f[a] s[ ]") = .error e ∧
      expand .filter true (Text.ofString "f[a] s[ ]") = .error e ∧
      e = ⟨Text.ofString "s[ ]",5,.emptyBracket⟩ := by
  have hkinds : ∀ src ∈ [Text.ofString "f[a]f[0] + s['b;']",Text.ofString "f[a] s[ ]"],
      ∀ t ∈ scan src, t.kind ≠ .assignment ∧ t.kind ≠ .separator ∧ t.kind ≠ .append := by
    decide +kernel
  have hreads : ∀ src ∈ [Text.ofString "f[a]f[0] + s['b;']",Text.ofString "f[a] s[ ]"],
      expand .statement true src = expand .filter true src := by
    intro src hsrc
    apply (expand_reads true _).1
    intro t ht
    obtain ⟨hassign,hseparator,happend⟩ := hkinds src hsrc t ht
    exact ⟨hassign,hseparator,happend⟩
  rw [hreads _ (by simp),hreads _ (by simp)]
  exact ⟨⟨_,by decide +kernel,by decide +kernel,rfl⟩,_,by decide +kernel,by decide +kernel,rfl⟩

end CellScript.Shorthand
