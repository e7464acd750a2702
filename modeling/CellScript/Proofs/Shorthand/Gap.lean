import Mathlib
import CellScript.Proofs.Shorthand.Group
import CellScript.Proofs.Shorthand.Partition
import CellScript.Proofs.Shorthand.Sequence

/-! Tokens with other blanks between them. Nothing but the lexemes of a source tells how it is cut:
with any blanks between them they are cut into the same tokens again. -/
namespace CellScript.Shorthand

open Script (Spot Blank)

/-- Some blanks, as they may stand between two tokens. -/
structure Gap where
  text : Text
  ne_nil : text ≠ []
  blank : Blank text

def spread (gap : ℕ → Gap) : List Text → Text
  | [] => []
  | [w] => w
  | w::v::ws => w ++ ((gap 0).text ++ spread (fun i => gap (i+1)) (v::ws))

def Token.shape (t : Token) : Kind × Text := (t.kind,t.lexeme)

/-- What may stand behind a token in place of a text: nothing or something behind a blank, and no
closing bracket that was not there before. -/
structure Aside (t u : Text) : Prop where
  blank : ∀ b ∈ u.head?, Text.isBlank b = true
  ended : t = [] → u = []
  bracket : Text.ascii ']' ∈ u → Text.ascii ']' ∈ t

lemma Aside.neutral {t u : Text} (h : Aside t u) : Neutral u := by
  constructor
  all_goals
    intro hu
    exact absurd (h.blank _ hu) (by decide)

/-- A byte that is a sign on its own starts one wherever it stands. -/
lemma isSome_operator?_of_singleton {b : UInt8} (h : (operator? [b]).isSome = true) (t : Text) :
    (operator? (b::t)).isSome = true := by
  simp only [operator?,List.head?_nil] at h ⊢
  split_ifs at h ⊢ <;> simp_all

lemma Aside.operator? {t u : Text} (h : Aside t u) {b : UInt8} {w : Text}
    (ho : operator? (b::(w ++ t)) = none) : operator? (b::(w ++ u)) = none := by
  cases w with
  | nil =>
    have hone := operator?_append (t := [b]) (by simp) h.neutral
    rw [List.cons_append,List.nil_append] at hone
    rw [List.nil_append] at ho ⊢
    rw [hone]
    by_contra hsome
    have hfound := isSome_operator?_of_singleton (Option.isSome_iff_ne_none.mpr hsome) t
    rw [ho] at hfound
    simp at hfound
  | cons c w => exact ho

lemma Aside.accessor? {t u : Text} (h : Aside t u) (ht : t.head? ≠ some (Text.ascii ']'))
    {b : UInt8} {w : Text} (ha : accessor? (b::(w ++ t)) = none) :
    accessor? (b::(w ++ u)) = none := by
  by_contra hsome
  obtain ⟨c,x,hx,hc,hm,hhead⟩ := isSome_accessor?_iff.mp (Option.isSome_iff_ne_none.mpr hsome)
  have hfound : (Shorthand.accessor? (b::(w ++ t))).isSome = true := by
    refine isSome_accessor?_iff.mpr ?_
    match w with
    | [] =>
      rw [List.nil_append,List.cons.injEq] at hx
      exact absurd (congrArg List.head? hx.2) h.neutral.bracket
    | [d] =>
      simp only [List.cons_append,List.nil_append,List.cons.injEq] at hx
      obtain ⟨rfl,rfl,rfl⟩ := hx
      exact ⟨b,t,rfl,hc,h.bracket hm,ht⟩
    | d::e::w =>
      simp only [List.cons_append,List.cons.injEq] at hx
      obtain ⟨rfl,rfl,rfl⟩ := hx
      refine ⟨b,e::(w ++ t),rfl,hc,?_,hhead⟩
      simp only [List.mem_cons,List.mem_append] at hm ⊢
      exact hm.imp_right (Or.imp_right h.bracket)
  rw [ha] at hfound
  simp at hfound

lemma token?_eq_none_iff {before : Option UInt8} {t : Text} : token? before t = none ↔
    (opensAfter before = true → accessor? t = none) ∧ operator? t = none := by
  unfold token?
  cases opensAfter before <;> cases accessor? t <;> simp

lemma Aside.token? {t u : Text} (h : Aside t u) (ht : t.head? ≠ some (Text.ascii ']'))
    {before before' : Option UInt8} (ho : opensAfter before' = true → opensAfter before = true)
    {b : UInt8} {w : Text} (hn : token? before (b::(w ++ t)) = none) :
    token? before' (b::(w ++ u)) = none := by
  obtain ⟨ha,hop⟩ := token?_eq_none_iff.mp hn
  exact token?_eq_none_iff.mpr ⟨fun hopens => h.accessor? ht (ha (ho hopens)),h.operator? hop⟩

/-- Script text does not end in front of a closing bracket. -/
lemma Run.head_ne_closing {before : Option UInt8} {w rest : Text}
    (h : Run true before .code w rest) (hne : w ≠ []) : rest.head? ≠ some (Text.ascii ']') := by
  intro hb
  rcases h.boundary (Or.inr hne) _ hb with hblank | htoken
  · exact absurd hblank (by decide)
  · obtain ⟨u,rfl⟩ := List.head?_eq_some_iff.mp hb
    rw [token?_eq_none_of_head (by decide) (by decide)] at htoken
    simp at htoken

/-- Script text ends in front of a gap where it ended before. -/
lemma Run.aside {start : Bool} {before : Option UInt8} {s : Spot} {w t u : Text}
    (h : Run start before s w t) (hu : Aside t u) (ht : t.head? ≠ some (Text.ascii ']')) :
    Run start before s w u := by
  induction h with
  | ended =>
    rw [hu.ended rfl]
    exact .ended
  | stop =>
    cases u with
    | nil => exact .ended
    | cons b u => exact .stop (Or.inl (hu.blank b rfl))
  | inside hs _ ih => exact .inside hs (ih hu ht)
  | byte hb hn _ ih => exact .byte hb (hn.imp_right (hu.token? ht id)) (ih hu ht)

/-- A token in front of a gap, and behind a byte that an accessor may follow. Script text may have no
other byte in front of it to start with, or it would be an accessor now. -/
lemma Piece.aside {before before' : Option UInt8} {k : Kind} {w t u : Text}
    (h : Piece before k w t)
    (ho : opensAfter before = true ∨ (token? before (w ++ t)).isSome = true)
    (ho' : opensAfter before' = true) (hu : Aside t u) : Piece before' k w u := by
  cases h with
  | accessor _ hc hbody hk => exact .accessor ho' hc hbody hk
  | operator h =>
    have halone : ∀ k : Kind, ∀ w ∈ k.signs, operator? w = some (k,w.length) := by
      intro k
      cases k <;> decide +kernel
    have hpiece : Piece before k w t := .operator h
    have hne := hpiece.ne_nil
    refine .operator ?_
    rw [operator?_append hne hu.neutral]
    exact halone k w (mem_signs h)
  | run hne hn hr =>
    have hopens : opensAfter before = true := by
      rcases ho with ho | ho
      · exact ho
      · rw [hn] at ho
        simp at ho
    have hclosing := hr.head_ne_closing hne
    obtain ⟨b,w,rfl⟩ := List.exists_cons_of_ne_nil hne
    refine .run hne (hu.token? hclosing (fun _ => hopens) hn) ?_
    cases hr with
    | inside hs => exact absurd rfl hs
    | byte hb _ hr => exact .byte hb (Or.inl rfl) (hr.aside hu hclosing)

/-- A place where script text goes no further: an accessor may start here, or here is a blank or a
token other than script text. -/
def Ready (before : Option UInt8) (t : Text) : Prop :=
  opensAfter before = true ∨
    ∀ b ∈ t.head?, Text.isBlank b = true ∨ (token? before t).isSome = true

lemma opensAfter_of_isBlank {b : UInt8} (h : Text.isBlank b = true) :
    opensAfter (some b) = true := by
  simp only [Text.isBlank,Bool.or_eq_true,beq_iff_eq,or_assoc] at h
  rcases h with rfl | rfl | rfl | rfl <;> rfl

lemma opensAfter_of_mem : ∀ b ∈ operatorBytes, opensAfter (some b) = true := by
  decide +kernel

/-- The place behind a token. -/
lemma Piece.ready {before : Option UInt8} {k : Kind} {w t : Text} (h : Piece before k w t) :
    Ready w.getLast? t := by
  cases h with
  | accessor =>
    left
    rw [← List.cons_append,← List.cons_append,List.getLast?_concat]
    decide
  | operator h =>
    left
    obtain ⟨v,u,hv,hlen,hne,hall,-⟩ := operator?_eq_some h
    obtain ⟨rfl,-⟩ := List.append_inj hv hlen
    rw [List.getLast?_eq_some_getLast hne]
    exact opensAfter_of_mem _ (hall _ (List.getLast_mem hne))
  | run hne _ hr =>
    right
    intro b hb
    have hbound := hr.boundary (Or.inr hne) b hb
    rw [List.getLast?_eq_some_getLast hne] at hbound ⊢
    exact hbound

lemma spread_cons (gap : ℕ → Gap) (w : Text) {ws : List Text} (h : ws ≠ []) :
    spread gap (w::ws) = w ++ ((gap 0).text ++ spread (fun i => gap (i+1)) ws) := by
  obtain ⟨v,ws,rfl⟩ := List.exists_cons_of_ne_nil h
  rfl

lemma mem_of_mem_spread {gap : ℕ → Gap} {ws : List Text} {b : UInt8} (hb : b ∈ spread gap ws) :
    Text.isBlank b = true ∨ ∃ w ∈ ws, b ∈ w := by
  induction ws generalizing gap with
  | nil => simp [spread] at hb
  | cons w ws ih =>
    by_cases hws : ws = []
    · subst hws
      exact Or.inr ⟨w,by simp,hb⟩
    · rw [spread_cons gap w hws,List.mem_append,List.mem_append] at hb
      rcases hb with hb | hb | hb
      · exact Or.inr ⟨w,by simp,hb⟩
      · exact Or.inl ((gap 0).blank b hb)
      · rcases ih hb with hblank | ⟨v,hv,hbv⟩
        · exact Or.inl hblank
        · exact Or.inr ⟨v,by simp [hv],hbv⟩

/-- The lexemes of a text come from it. -/
lemma Cut.mem_of_mem_spread {pos : ℕ} {before : Option UInt8} {t : Text} {ts : List Token}
    (h : Cut pos before t ts) {gap : ℕ → Gap} {b : UInt8} (hb : Text.isBlank b = false)
    (hm : b ∈ spread gap (ts.map Token.lexeme)) : b ∈ t := by
  rcases Shorthand.mem_of_mem_spread hm with hblank | ⟨w,hw,hbw⟩
  · rw [hb] at hblank
    simp at hblank
  · obtain ⟨x,hx,rfl⟩ := List.mem_map.mp hw
    exact h.lexeme_subset x hx hbw

/-- The lexemes of a text with gaps between them are cut into the same tokens. -/
theorem Cut.spread {pos : ℕ} {before : Option UInt8} {t : Text} {ts : List Token}
    (h : Cut pos before t ts) (hr : Ready before t) (gap : ℕ → Gap) (pos' : ℕ)
    {before' : Option UInt8} (ho : opensAfter before' = true) :
    ∃ us, Cut pos' before' (spread gap (ts.map Token.lexeme)) us ∧
      us.map Token.shape = ts.map Token.shape := by
  induction h generalizing gap pos' before' with
  | nil => exact ⟨[],.nil,rfl⟩
  | blank hb _ ih => exact ih (Or.inl (opensAfter_of_isBlank hb)) gap pos' ho
  | @token pos before k w t ts hb hp hc ih =>
    have hopens : opensAfter before = true ∨ (token? before (w ++ t)).isSome = true := by
      refine hr.imp_right fun hstart => ?_
      obtain ⟨b,w,rfl⟩ := List.exists_cons_of_ne_nil hp.ne_nil
      rcases hstart b rfl with hblank | htoken
      · rw [hb b rfl] at hblank
        simp at hblank
      · exact htoken
    -- the last token keeps its place at the end, also if it is a literal that is never closed
    by_cases hts : ts = []
    · subst hts
      have haside : Aside t [] := ⟨by simp,fun _ => rfl,by simp⟩
      have hcut : Cut pos' _ (w ++ []) _ := .token hb (hp.aside hopens ho haside) .nil
      rw [List.append_nil] at hcut
      exact ⟨_,hcut,rfl⟩
    · have hlast : opensAfter ((gap 0).text.getLast?.or w.getLast?) = true := by
        rw [List.getLast?_eq_some_getLast (gap 0).ne_nil]
        exact opensAfter_of_isBlank ((gap 0).blank _ (List.getLast_mem _))
      obtain ⟨us,hu,hus⟩ := ih hp.ready (fun i => gap (i+1)) (pos'+w.length+(gap 0).text.length) hlast
      have haside : Aside t ((gap 0).text ++
          Shorthand.spread (fun i => gap (i+1)) (ts.map Token.lexeme)) := by
        refine ⟨?_,?_,?_⟩
        · intro b hbg
          rw [List.head?_append_of_ne_nil _ (gap 0).ne_nil] at hbg
          exact (gap 0).blank b (List.mem_of_head? hbg)
        · rintro rfl
          exact absurd hc.scanFrom_eq.symm hts
        · intro hm
          rcases List.mem_append.mp hm with hm | hm
          · exact absurd ((gap 0).blank _ hm) (by decide)
          · exact hc.mem_of_mem_spread (by decide) hm
      refine ⟨⟨k,w,pos'⟩::us,?_,?_⟩
      · rw [List.map_cons,spread_cons gap w (by simpa using hts)]
        exact .token hb (hp.aside hopens ho haside) (Cut.blanks (gap 0).blank hu)
      · rw [List.map_cons,List.map_cons,hus]
        rfl

/-- The lexemes of a source are cut into the same tokens whatever blanks stand between them. -/
theorem scan_spread (gap : ℕ → Gap) (src : Text) :
    (scan (spread gap ((scan src).map Token.lexeme))).map Token.shape =
      (scan src).map Token.shape := by
  obtain ⟨us,hu,hus⟩ := (cut_scan src).spread (Or.inl rfl) gap 0 (show opensAfter none = true from rfl)
  rw [scan,hu.scanFrom_eq]
  exact hus

end CellScript.Shorthand
