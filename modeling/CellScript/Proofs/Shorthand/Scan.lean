import Mathlib
import CellScript.Proofs.Script.Spot
import CellScript.Shorthand.Token

/-! How a source is cut into tokens: blanks, accessors, operators, and runs of script text that end
in front of the next of them. -/
namespace CellScript.Shorthand

open Script (Spot)

/-- A run of script text behind a byte, with what stands behind it. It starts at a place, and ends
among code in front of a blank or another token, or with the source. -/
inductive Run : Bool → Option UInt8 → Spot → Text → Text → Prop
  | ended {start : Bool} {before : Option UInt8} {s : Spot} : Run start before s [] []
  | stop {start : Bool} {before : Option UInt8} {b : UInt8} {rest : Text} :
      Text.isBlank b = true ∨ start = false ∧ (token? before (b::rest)).isSome = true →
      Run start before .code [] (b::rest)
  | inside {start : Bool} {before : Option UInt8} {s : Spot} {b : UInt8} {w rest : Text} :
      s ≠ .code → Run false (some b) (s.step b) w rest → Run start before s (b::w) rest
  | byte {start : Bool} {before : Option UInt8} {b : UInt8} {w rest : Text} :
      Text.isBlank b = false → start = true ∨ token? before (b::(w ++ rest)) = none →
      Run false (some b) (Spot.code.step b) w rest → Run start before .code (b::w) rest

/-- A token behind a byte, with what stands behind it. -/
inductive Piece (before : Option UInt8) : Kind → Text → Text → Prop
  | accessor {c : UInt8} {k : Kind} {body rest : Text} : opensAfter before = true →
      isCastLetter c = true → Text.ascii ']' ∉ body → bodyKind? body = some k →
      Piece before k (c::Text.ascii '['::(body ++ [Text.ascii ']'])) rest
  | operator {k : Kind} {w rest : Text} : operator? (w ++ rest) = some (k,w.length) →
      Piece before k w rest
  | run {w rest : Text} : w ≠ [] → token? before (w ++ rest) = none →
      Run true before .code w rest → Piece before .passthrough w rest

/-- A text at an offset behind a byte, cut into tokens. -/
inductive Cut : ℕ → Option UInt8 → Text → List Token → Prop
  | nil {pos : ℕ} {before : Option UInt8} : Cut pos before [] []
  | blank {pos : ℕ} {before : Option UInt8} {b : UInt8} {t : Text} {ts : List Token} :
      Text.isBlank b = true → Cut (pos+1) (some b) t ts → Cut pos before (b::t) ts
  | token {pos : ℕ} {before : Option UInt8} {k : Kind} {w t : Text} {ts : List Token} :
      (∀ b ∈ w.head?, Text.isBlank b = false) → Piece before k w t →
      Cut (pos+w.length) w.getLast? t ts → Cut pos before (w ++ t) (⟨k,w,pos⟩::ts)

def operatorBytes : List UInt8 := [';','=','!','<','>','+','-','*','/'].map Text.ascii

lemma operator?_eq_some {t : Text} {k : Kind} {n : ℕ} (h : operator? t = some (k,n)) :
    ∃ w rest, t = w ++ rest ∧ n = w.length ∧ w ≠ [] ∧ (∀ b ∈ w, b ∈ operatorBytes) ∧
      k.isAccessor = false := by
  cases t with
  | nil => simp [operator?] at h
  | cons a rest =>
    have hone : a ∈ operatorBytes → ∃ w u, a::rest = w ++ u ∧ 1 = w.length ∧ w ≠ [] ∧
        ∀ b ∈ w, b ∈ operatorBytes :=
      fun ha => ⟨[a],rest,rfl,rfl,by simp,by simpa using ha⟩
    have htwo : a ∈ operatorBytes → (rest.head? == some (Text.ascii '=')) = true →
        ∃ w u, a::rest = w ++ u ∧ 2 = w.length ∧ w ≠ [] ∧ ∀ b ∈ w, b ∈ operatorBytes := by
      intro ha he
      obtain ⟨u,hu⟩ := List.head?_eq_some_iff.mp (beq_iff_eq.mp he)
      refine ⟨[a,Text.ascii '='],u,by simp [hu],rfl,by simp,?_⟩
      intro b hb
      simp only [List.mem_cons,List.not_mem_nil,or_false] at hb
      rcases hb with rfl | rfl
      · exact ha
      · decide
    simp only [operator?] at h
    split_ifs at h with h1 h2 h3 h4
    · simp only [Option.some.injEq,Prod.mk.injEq] at h
      obtain ⟨rfl,rfl⟩ := h
      obtain ⟨w,u,hw⟩ := hone (by simp [operatorBytes,beq_iff_eq.mp h1])
      exact ⟨w,u,hw.1,hw.2.1,hw.2.2.1,hw.2.2.2,rfl⟩
    · simp only [Option.some.injEq,Prod.mk.injEq] at h
      obtain ⟨rfl,rfl⟩ := h
      simp only [Bool.and_eq_true,Bool.or_eq_true,@beq_iff_eq UInt8] at h2
      have ha : a ∈ operatorBytes := by
        rcases h2.2 with ((rfl | rfl) | rfl) | rfl <;> decide
      obtain ⟨w,u,hw⟩ := htwo ha h2.1
      exact ⟨w,u,hw.1,hw.2.1,hw.2.2.1,hw.2.2.2,rfl⟩
    · simp only [Option.some.injEq,Prod.mk.injEq] at h
      obtain ⟨rfl,rfl⟩ := h
      obtain ⟨w,u,hw⟩ := hone (by simp [operatorBytes,beq_iff_eq.mp h3])
      exact ⟨w,u,hw.1,hw.2.1,hw.2.2.1,hw.2.2.2,rfl⟩
    · simp only [Option.some.injEq,Prod.mk.injEq] at h
      obtain ⟨rfl,rfl⟩ := h
      simp only [Bool.and_eq_true,Bool.or_eq_true,@beq_iff_eq UInt8] at h4
      have ha : a ∈ operatorBytes := by
        rcases h4.2 with ((rfl | rfl) | rfl) | rfl <;> decide
      obtain ⟨w,u,hw⟩ := htwo ha h4.1
      exact ⟨w,u,hw.1,hw.2.1,hw.2.2.1,hw.2.2.2,rfl⟩

lemma takeWhile_bracket {body : Text} (hb : Text.ascii ']' ∉ body) (rest : Text) :
    (body ++ Text.ascii ']'::rest).takeWhile (· != Text.ascii ']') = body := by
  refine Script.takeWhile_append_left ?_ (by simp)
  intro b hbb
  simp only [bne_iff_ne,ne_eq]
  rintro rfl
  exact hb hbb

lemma accessor?_eq_some_iff {t : Text} {k : Kind} {n : ℕ} : accessor? t = some (k,n) ↔
    ∃ c body rest, t = c::Text.ascii '['::(body ++ Text.ascii ']'::rest) ∧
      isCastLetter c = true ∧ Text.ascii ']' ∉ body ∧ bodyKind? body = some k ∧
      n = body.length+3 := by
  constructor
  · intro h
    match t,h with
    | [],h | [_],h => simp [accessor?] at h
    | c::b::rest,h =>
      simp only [accessor?] at h
      split_ifs at h with h1 h2
      simp only [Bool.and_eq_true,beq_iff_eq] at h1
      obtain ⟨k',hk,hkn⟩ := Option.map_eq_some_iff.mp h
      simp only [Prod.mk.injEq] at hkn
      obtain ⟨rfl,rfl⟩ := hkn
      have hsplit := List.takeWhile_append_dropWhile (p := (· != Text.ascii ']')) (l := rest)
      cases hd : rest.dropWhile (· != Text.ascii ']') with
      | nil =>
        rw [hd,List.append_nil] at hsplit
        rw [hsplit] at h2
        simp at h2
      | cons x u =>
        have hx := List.head?_dropWhile_not (· != Text.ascii ']') rest
        rw [hd] at hx hsplit
        simp only [List.head?_cons,bne_eq_false_iff_eq] at hx
        subst hx
        refine ⟨c,_,u,?_,h1.1,?_,hk,rfl⟩
        · rw [hsplit,h1.2]
        · intro hm
          simpa using List.mem_takeWhile_imp hm
  · rintro ⟨c,body,rest,rfl,hc,hb,hk,rfl⟩
    have hlen : body.length < (body ++ Text.ascii ']'::rest).length := by
      simp only [List.length_append,List.length_cons]
      omega
    simp only [accessor?,hc,beq_self_eq_true,Bool.and_self,if_true,takeWhile_bracket hb rest,if_pos hlen,
      hk]
    rfl

lemma isAccessor_of_bodyKind? {body : Text} {k : Kind} (h : bodyKind? body = some k) :
    k.isAccessor = true := by
  simp only [bodyKind?] at h
  split_ifs at h <;> simp only [Option.some.injEq] at h <;> subst h <;> rfl

/-- Accessors and operators start with different bytes. -/
lemma not_isCastLetter_of_mem : ∀ b ∈ operatorBytes, isCastLetter b = false := by
  decide +kernel

lemma token?_of_operator {before : Option UInt8} {t : Text} {k : Kind} {n : ℕ}
    (h : operator? t = some (k,n)) : token? before t = some (k,n) := by
  have ha : accessor? t = none := by
    cases hx : accessor? t with
    | none => rfl
    | some found =>
      obtain ⟨c,body,rest,rfl,hc,-⟩ := accessor?_eq_some_iff.mp hx
      obtain ⟨w,u,hw,-,hne,hb,-⟩ := operator?_eq_some h
      obtain ⟨x,w,rfl⟩ := List.exists_cons_of_ne_nil hne
      rw [List.cons_append,List.cons.injEq] at hw
      rw [hw.1,not_isCastLetter_of_mem x (hb x (by simp))] at hc
      simp at hc
  simp [token?,ha,h]

lemma token?_of_accessor {before : Option UInt8} {t : Text} {k : Kind} {n : ℕ}
    (ho : opensAfter before = true) (h : accessor? t = some (k,n)) :
    token? before t = some (k,n) := by
  simp [token?,ho,h]

lemma token?_eq_some {before : Option UInt8} {t : Text} {k : Kind} {n : ℕ}
    (h : token? before t = some (k,n)) :
    (opensAfter before = true ∧ accessor? t = some (k,n)) ∨ operator? t = some (k,n) := by
  unfold token? at h
  split at h
  · next found ha =>
    simp only [Option.some.injEq] at h
    subst h
    by_cases ho : opensAfter before = true
    · rw [if_pos ho] at ha
      exact Or.inl ⟨ho,ha⟩
    · rw [if_neg ho] at ha
      simp at ha
  · exact Or.inr h

/-- How many bytes a literal goes on from a place in it. -/
def remaining : Spot → Text → ℕ
  | _,[] => 0
  | s,b::t => if s = .code then 0 else remaining (s.step b) t + 1

@[simp] lemma remaining_nil (s : Spot) : remaining s [] = 0 := by cases s <;> rfl

@[simp] lemma remaining_code (t : Text) : remaining .code t = 0 := by cases t <;> rfl

lemma remaining_cons {s : Spot} (hs : s ≠ .code) (b : UInt8) (t : Text) :
    remaining s (b::t) = remaining (s.step b) t + 1 := by
  rw [remaining,if_neg hs]

lemma literalRest_eq (q : UInt8) (t : Text) : literalRest q t = remaining (.literal q) t := by
  fun_induction literalRest q t with
  | case1 => simp
  | case2 b hb =>
    rw [remaining_cons (by simp)]
    simp
  | case3 b hb x rest ih =>
    have hb : b = Text.ascii '\\' := by simpa using hb
    rw [remaining_cons (by simp),remaining_cons (by simp [Spot.step,hb]),ih]
    simp [Spot.step,hb]
  | case4 b rest hb hq =>
    have hb : b ≠ Text.ascii '\\' := by simpa using hb
    have hq : b = q := by simpa using hq
    rw [remaining_cons (by simp),Spot.step,if_neg hb,if_pos hq,remaining_code]
  | case5 b rest hb hq ih =>
    have hb : b ≠ Text.ascii '\\' := by simpa using hb
    have hq : b ≠ q := by simpa using hq
    rw [remaining_cons (by simp),Spot.step,if_neg hb,if_neg hq,ih]

lemma runLength_inside {s : Spot} (hs : s ≠ .code) (start : Bool) (before : Option UInt8) (b : UInt8)
    (t : Text) : runLength start before (remaining s (b::t)) (b::t) =
      runLength false (some b) (remaining (s.step b) t) t + 1 := by
  rw [remaining_cons hs,runLength]

lemma runLength_stop {start : Bool} {before : Option UInt8} {b : UInt8} {t : Text}
    (h : Text.isBlank b = true ∨ start = false ∧ (token? before (b::t)).isSome = true) :
    runLength start before (remaining .code (b::t)) (b::t) = 0 := by
  rw [remaining_code,runLength,if_pos]
  rcases h with h | ⟨rfl,h⟩
  · simp [h]
  · simp [h]

lemma runLength_byte {start : Bool} {before : Option UInt8} {b : UInt8} {t : Text}
    (hb : Text.isBlank b = false) (h : start = true ∨ token? before (b::t) = none) :
    runLength start before (remaining .code (b::t)) (b::t) =
      runLength false (some b) (remaining (Spot.code.step b) t) t + 1 := by
  have hn : ¬ (Text.isBlank b || (!start && (token? before (b::t)).isSome)) = true := by
    rcases h with rfl | h
    · simp [hb]
    · simp [hb,h]
  rw [remaining_code,runLength,if_neg hn]
  by_cases hq : Text.isQuote b = true
  · rw [if_pos hq,literalRest_eq,Spot.step,if_pos hq]
  · rw [if_neg hq,Spot.step,if_neg hq,remaining_code]

/-- The bytes that a run takes are a run. -/
lemma run_runLength (start : Bool) (before : Option UInt8) (s : Spot) (t : Text) :
    Run start before s (t.take (runLength start before (remaining s t) t))
      (t.drop (runLength start before (remaining s t) t)) := by
  induction t generalizing start before s with
  | nil => simpa using Run.ended
  | cons b t ih =>
    by_cases hs : s = .code
    · subst hs
      by_cases hstop : Text.isBlank b = true ∨
          start = false ∧ (token? before (b::t)).isSome = true
      · rw [runLength_stop hstop]
        exact .stop hstop
      · simp only [not_or,not_and,Bool.not_eq_true] at hstop
        have hnone : start = true ∨ token? before (b::t) = none := by
          cases start with
          | true => exact Or.inl rfl
          | false => exact Or.inr (by simpa using hstop.2 rfl)
        rw [runLength_byte hstop.1 hnone,List.take_succ_cons,List.drop_succ_cons]
        refine .byte hstop.1 ?_ (ih _ _ _)
        rwa [List.take_append_drop]
    · rw [runLength_inside hs,List.take_succ_cons,List.drop_succ_cons]
      exact .inside hs (ih _ _ _)

lemma Run.runLength_eq {start : Bool} {before : Option UInt8} {s : Spot} {w rest : Text}
    (h : Run start before s w rest) :
    runLength start before (remaining s (w ++ rest)) (w ++ rest) = w.length := by
  induction h with
  | ended => simp [runLength]
  | stop h => exact runLength_stop h
  | inside hs _ ih => rw [List.cons_append,runLength_inside hs,ih,List.length_cons]
  | byte hb h _ ih => rw [List.cons_append,runLength_byte hb h,ih,List.length_cons]

lemma Piece.ne_nil {before : Option UInt8} {k : Kind} {w rest : Text} (h : Piece before k w rest) :
    w ≠ [] := by
  cases h with
  | accessor => simp
  | operator h =>
    obtain ⟨v,_,-,hl,hne,-⟩ := operator?_eq_some h
    have hpos := List.length_pos_of_ne_nil hne
    rintro rfl
    simp only [List.length_nil] at hl
    omega
  | run hne => exact hne

/-- The next token is a piece of the source. -/
theorem nextToken_eq_iff {before : Option UInt8} {k : Kind} {w rest : Text} (hw : w ≠ [])
    (hb : ∀ b ∈ w.head?, Text.isBlank b = false) :
    nextToken before (w ++ rest) = (k,w.length) ↔ Piece before k w rest := by
  constructor
  · intro h
    cases ht : token? before (w ++ rest) with
    | none =>
      rw [nextToken,ht,Option.getD_none,Prod.mk.injEq] at h
      obtain ⟨rfl,h⟩ := h
      refine .run hw ht ?_
      have hr := run_runLength true before .code (w ++ rest)
      rwa [remaining_code,h,List.take_left,List.drop_left] at hr
    | some found =>
      rw [nextToken,ht,Option.getD_some] at h
      subst h
      rcases token?_eq_some ht with ⟨ho,ha⟩ | ho
      · obtain ⟨c,body,u,hu,hc,hbody,hk,hn⟩ := accessor?_eq_some_iff.mp ha
        have hsplit : c::Text.ascii '['::(body ++ Text.ascii ']'::u) =
            (c::Text.ascii '['::(body ++ [Text.ascii ']'])) ++ u := by simp
        rw [hsplit] at hu
        obtain ⟨rfl,rfl⟩ := List.append_inj hu (by simp [hn])
        exact .accessor ho hc hbody hk
      · exact .operator ho
  · intro h
    cases h with
    | @accessor c _ body _ ho hc hbody hk =>
      have ha : accessor? (c::Text.ascii '['::(body ++ [Text.ascii ']']) ++ rest) =
          some (k,body.length+3) :=
        accessor?_eq_some_iff.mpr ⟨c,body,rest,by simp,hc,hbody,hk,rfl⟩
      rw [nextToken,token?_of_accessor ho ha,Option.getD_some]
      simp
    | operator h => rw [nextToken,token?_of_operator h,Option.getD_some]
    | run _ ht hr =>
      have hl := hr.runLength_eq
      rw [remaining_code] at hl
      rw [nextToken,ht,Option.getD_none,hl]

lemma scanFrom_skip (w t : Text) (pos : ℕ) (before : Option UInt8) :
    scanFrom pos before w.length (w ++ t) =
      scanFrom (pos+w.length) (w.getLast?.or before) 0 t := by
  induction w generalizing pos before with
  | nil => simp
  | cons b w ih =>
    rw [List.length_cons,List.cons_append,scanFrom,ih]
    have hlast : (b::w).getLast?.or before = w.getLast?.or (some b) := by
      rw [List.getLast?_cons]
      cases w.getLast? <;> rfl
    rw [hlast,show pos+1+w.length = pos+(w.length+1) by omega]

lemma exists_piece (before : Option UInt8) {b : UInt8} (hb : Text.isBlank b = false) (t : Text) :
    ∃ k w rest, b::t = w ++ rest ∧ w ≠ [] ∧ nextToken before (b::t) = (k,w.length) := by
  cases ht : token? before (b::t) with
  | none =>
    have hlen := @runLength_byte true before b t hb (Or.inl rfl)
    have hr := (run_runLength true before .code (b::t)).runLength_eq
    rw [List.take_append_drop] at hr
    generalize hm : runLength true before (remaining .code (b::t)) (b::t) = m at hlen hr
    refine ⟨.passthrough,(b::t).take m,(b::t).drop m,(List.take_append_drop m _).symm,?_,?_⟩
    · exact List.ne_nil_of_length_pos (by omega)
    · rw [remaining_code] at hm
      rw [nextToken,ht,Option.getD_none,hm,← hr]
  | some found =>
    obtain ⟨k,n⟩ := found
    have hn : nextToken before (b::t) = (k,n) := by rw [nextToken,ht,Option.getD_some]
    rcases token?_eq_some ht with ⟨ho,ha⟩ | ho
    · obtain ⟨c,body,u,hu,-,-,-,rfl⟩ := accessor?_eq_some_iff.mp ha
      refine ⟨k,c::Text.ascii '['::(body ++ [Text.ascii ']']),u,by simp [hu],by simp,?_⟩
      rw [hn]
      simp
    · obtain ⟨w,rest,hw,rfl,hne,-⟩ := operator?_eq_some ho
      exact ⟨k,w,rest,hw,hne,hn⟩

lemma scanFrom_blank {b : UInt8} (hb : Text.isBlank b = true) (pos : ℕ) (before : Option UInt8)
    (t : Text) : scanFrom pos before 0 (b::t) = scanFrom (pos+1) (some b) 0 t := by
  rw [scanFrom,if_pos hb]

lemma scanFrom_token {pos : ℕ} {before : Option UInt8} {k : Kind} {w rest : Text}
    (hb : ∀ b ∈ w.head?, Text.isBlank b = false) (h : Piece before k w rest) :
    scanFrom pos before 0 (w ++ rest) =
      ⟨k,w,pos⟩::scanFrom (pos+w.length) w.getLast? 0 rest := by
  have hk := (nextToken_eq_iff h.ne_nil hb).mpr h
  obtain ⟨b,w,rfl⟩ := List.exists_cons_of_ne_nil h.ne_nil
  have hlast : w.getLast?.or (some b) = (b::w).getLast? := by
    rw [List.getLast?_cons]
    cases w.getLast? <;> rfl
  have hskip : scanFrom (pos+1) (some b) ((b::w).length-1) (w ++ rest) =
      scanFrom (pos+(b::w).length) (b::w).getLast? 0 rest := by
    rw [← hlast,show pos+(b::w).length = pos+1+w.length by simp; omega]
    exact scanFrom_skip w rest (pos+1) (some b)
  have htake : (b::(w ++ rest)).take (b::w).length = b::w := by simp
  have hbb : ¬ Text.isBlank b = true := by simpa using hb b rfl
  rw [List.cons_append] at hk ⊢
  rw [scanFrom,if_neg hbb]
  simp only [hk]
  rw [hskip,htake]

lemma cut_scanFrom (pos : ℕ) (before : Option UInt8) (t : Text) :
    Cut pos before t (scanFrom pos before 0 t) := by
  induction hn : t.length using Nat.strong_induction_on generalizing pos before t with
  | _ n ih =>
    cases t with
    | nil => exact .nil
    | cons b t =>
      by_cases hb : Text.isBlank b = true
      · rw [scanFrom_blank hb]
        exact .blank hb (ih t.length (by simp [← hn]) _ _ t rfl)
      · obtain ⟨k,w,rest,hw,hne,hk⟩ := exists_piece before (by simpa using hb) t
        have hhead : ∀ x ∈ w.head?, Text.isBlank x = false := by
          obtain ⟨c,w,rfl⟩ := List.exists_cons_of_ne_nil hne
          rw [List.cons_append,List.cons.injEq] at hw
          simpa [← hw.1] using hb
        rw [hw] at hk hn ⊢
        have hp := (nextToken_eq_iff hne hhead).mp hk
        rw [scanFrom_token hhead hp]
        refine .token hhead hp (ih rest.length ?_ _ _ rest rfl)
        have hpos := List.length_pos_of_ne_nil hne
        rw [← hn,List.length_append]
        omega

theorem cut_scan (src : Text) : Cut 0 none src (scan src) := cut_scanFrom 0 none src

/-- There is only one way to cut a text. -/
theorem Cut.scanFrom_eq {pos : ℕ} {before : Option UInt8} {t : Text} {ts : List Token}
    (h : Cut pos before t ts) : scanFrom pos before 0 t = ts := by
  induction h with
  | nil => rfl
  | blank hb _ ih => rw [scanFrom_blank hb,ih]
  | token hb hp _ ih => rw [scanFrom_token hb hp,ih]

end CellScript.Shorthand
