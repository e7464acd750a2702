import Mathlib
import CellScript.Proofs.Number.Whole
import CellScript.Script.Function

/-! Comparison of words. Both words are taken as floating point numbers first, so the order is never
turned around, but neighbours beyond 53 bits may be taken as equal. -/
namespace CellScript

open Number

/-- What an operator says of two whole numbers. -/
def Compare.decides (op : Compare) (a b : ℤ) : Bool :=
  match op with
  | .eq => a == b
  | .ne => a != b
  | .lt => a < b
  | .le => a ≤ b
  | .gt => b < a
  | .ge => b ≤ a

namespace Value

section

variable {x y : Float} {a b : ℤ}

lemma lt_iff_of_holds (hx : Holds x.toModel.unpack a) (hy : Holds y.toModel.unpack b) :
    x < y ↔ a < b := by
  calc x < y ↔ x.toModel < y.toModel := decide_eq_true_iff
    _ ↔ x.toModel.unpack.compare y.toModel.unpack = some .lt := beq_iff_eq
    _ ↔ a < b := by rw [hx.compare_eq hy,Option.some_inj,Int.compare_eq_lt]

lemma le_iff_of_holds (hx : Holds x.toModel.unpack a) (hy : Holds y.toModel.unpack b) :
    x ≤ y ↔ a ≤ b := by
  calc x ≤ y ↔ x.toModel ≤ y.toModel := decide_eq_true_iff
    _ ↔ (x.toModel.unpack.compare y.toModel.unpack).any (·.isLE) = true := Iff.rfl
    _ ↔ a ≤ b := by rw [hx.compare_eq hy,Option.any_some,Int.isLE_compare]

lemma beq_iff_of_holds (hx : Holds x.toModel.unpack a) (hy : Holds y.toModel.unpack b) :
    x == y ↔ a = b := by
  calc x == y ↔ x.toModel.unpack.compare y.toModel.unpack == some .eq := Iff.rfl
    _ ↔ a = b := by rw [hx.compare_eq hy,beq_iff_eq,Option.some_inj,Int.compare_eq_eq]

/-- Floating point numbers that hold whole numbers are compared as those. -/
lemma compareFloat_of_holds (op : Compare) (hx : Holds x.toModel.unpack a)
    (hy : Holds y.toModel.unpack b) : compareFloat op x y = op.decides a b := by
  have heq : (x == y) = (a == b) :=
    Bool.eq_iff_iff.mpr ((beq_iff_of_holds hx hy).trans beq_iff_eq.symm)
  cases op with
  | eq => exact heq
  | ne => exact congrArg (!·) heq
  | lt => exact decide_eq_decide.mpr (lt_iff_of_holds hx hy)
  | le => exact decide_eq_decide.mpr (le_iff_of_holds hx hy)
  | gt => exact decide_eq_decide.mpr (lt_iff_of_holds hy hx)
  | ge => exact decide_eq_decide.mpr (le_iff_of_holds hy hx)

end

/-- The number that a word is compared as. -/
lemma holds_word (n : Int64) : Holds (Float.ofInt n.toInt).toModel.unpack (rounded n.toInt) := by
  have hlow := n.le_toInt
  have hhigh := n.toInt_lt
  exact holds_ofInt (by omega)

lemma compare_int (op : Compare) (a b : Int64) :
    Value.compare op (int a) (int b) = .ok (op.decides (rounded a.toInt) (rounded b.toInt)) :=
  congrArg Except.ok (compareFloat_of_holds op (holds_word a) (holds_word b))

lemma rounded_lt_iff {a b : ℤ} (h : rounded a = rounded b → a = b) :
    rounded a < rounded b ↔ a < b := by
  refine ⟨rounded_mono.reflect_lt,fun hlt => lt_of_le_of_ne (rounded_mono hlt.le) fun heq => ?_⟩
  exact hlt.ne (h heq)

/-- Two numbers that do not meet are ordered as before. -/
lemma decides_rounded (op : Compare) {a b : ℤ} (h : rounded a = rounded b → a = b) :
    op.decides (rounded a) (rounded b) = op.decides a b := by
  have heq : rounded a = rounded b ↔ a = b := ⟨h,congrArg rounded⟩
  have hlt := rounded_lt_iff h
  have hgt := rounded_lt_iff fun hround => (h hround.symm).symm
  cases op with
  | eq | ne => simp only [Compare.decides,bne,Bool.beq_eq_decide_eq,heq]
  | lt | ge => simp only [Compare.decides,← not_lt,hlt]
  | le | gt => simp only [Compare.decides,← not_lt,hgt]

lemma compare_exact_iff {a b : Int64} :
    (∀ op, Value.compare op (int a) (int b) = .ok (op.decides a.toInt b.toInt)) ↔
      (rounded a.toInt = rounded b.toInt → a = b) := by
  refine ⟨fun h hround => ?_,fun h op => ?_⟩
  · have heq := h .eq
    rw [compare_int,Except.ok.injEq] at heq
    simpa [Compare.decides,hround,Int64.toInt_inj] using heq
  · rw [compare_int,decides_rounded op fun hround => congrArg _ (h hround)]

/-- One word is better than another, as far as the comparison sees it. -/
def Better (op : Compare) (a b : Int64) : Prop :=
  op.decides (rounded a.toInt) (rounded b.toInt) = true

instance (op : Compare) (a b : Int64) : Decidable (Better op a b) :=
  inferInstanceAs (Decidable (_ = true))

/-- The first of the best words: better than all before it, and none behind it is better. -/
def FirstBest (op : Compare) (ns : List Int64) (m : Int64) : Prop :=
  ∃ before behind, ns = before ++ m::behind ∧ (∀ n ∈ before, Better op m n) ∧
    ∀ n ∈ behind, ¬Better op n m

section

variable {op : Compare} (hop : op = .lt ∨ op = .gt) {n n' m : Int64} {ns : List Int64}

include hop

lemma Better.trans {a b c : Int64} (h : Better op a b) (h' : Better op b c) : Better op a c := by
  rcases hop with rfl | rfl <;> simp only [Better,Compare.decides,decide_eq_true_eq] at * <;> omega

lemma Better.of_not {a b c : Int64} (h : Better op a b) (h' : ¬Better op c b) : Better op a c := by
  rcases hop with rfl | rfl <;> simp only [Better,Compare.decides,decide_eq_true_eq] at * <;> omega

lemma not_better_self (a : Int64) : ¬Better op a a := by
  rcases hop with rfl | rfl <;> simp only [Better,Compare.decides,decide_eq_true_eq] <;> omega

/-- A word in front of a better one is passed over. -/
lemma FirstBest.cons (h : FirstBest op (n'::ns) m) (hbetter : Better op n' n) :
    FirstBest op (n::n'::ns) m := by
  obtain ⟨before,behind,hns,hbefore,hbehind⟩ := h
  refine ⟨n::before,behind,congrArg (n::·) hns,?_,hbehind⟩
  have hm : Better op m n := by
    cases before with
    | nil => rwa [← (List.cons.inj hns).1]
    | cons b before =>
      obtain ⟨rfl,-⟩ := List.cons.inj hns
      exact (hbefore n' (List.mem_cons_self ..)).trans hop hbetter
  rintro x (_ | ⟨_,hx⟩)
  · exact hm
  · exact hbefore x hx

/-- A word that is not better than one before it changes nothing. -/
lemma FirstBest.insert (h : FirstBest op (n::ns) m) (hbetter : ¬Better op n' n) :
    FirstBest op (n::n'::ns) m := by
  obtain ⟨before,behind,hns,hbefore,hbehind⟩ := h
  cases before with
  | nil =>
    obtain ⟨rfl,rfl⟩ := List.cons.inj hns
    refine ⟨[],n'::ns,rfl,by simp,?_⟩
    rintro x (_ | ⟨_,hx⟩)
    · exact hbetter
    · exact hbehind x hx
  | cons b before =>
    obtain ⟨rfl,rfl⟩ := List.cons.inj hns
    refine ⟨n::n'::before,behind,rfl,?_,hbehind⟩
    have hn := hbefore n (List.mem_cons_self ..)
    rintro x (_ | ⟨_,_ | ⟨_,hx⟩⟩)
    · exact hn
    · exact hn.of_not hop hbetter
    · exact hbefore x (List.mem_cons_of_mem n hx)

/-- The loop keeps what it has found until something is better. -/
lemma best_words (n : Int64) (ns : List Int64) :
    ∃ m, Script.Function.best op (int n) (ns.map int) = .ok (int m) ∧ FirstBest op (n::ns) m := by
  induction ns generalizing n with
  | nil => exact ⟨n,rfl,[],[],rfl,by simp,by simp⟩
  | cons n' ns ih =>
    have hstep : Script.Function.best op (int n) ((n'::ns).map int) =
        Script.Function.best op (if Better op n' n then int n' else int n) (ns.map int) := by
      rw [List.map_cons,Script.Function.best,compare_int]
      rfl
    by_cases hbetter : Better op n' n
    · obtain ⟨m,hm,hfirst⟩ := ih n'
      exact ⟨m,by rw [hstep,if_pos hbetter,hm],hfirst.cons hop hbetter⟩
    · obtain ⟨m,hm,hfirst⟩ := ih n
      exact ⟨m,by rw [hstep,if_neg hbetter,hm],hfirst.insert hop hbetter⟩

lemma FirstBest.not_better (h : FirstBest op ns m) (hn : n ∈ ns) : ¬Better op n m := by
  obtain ⟨before,behind,rfl,hbefore,hbehind⟩ := h
  rcases List.mem_append.mp hn with hn | hn
  · exact fun hnm => not_better_self hop n (hnm.trans hop (hbefore n hn))
  · rcases List.mem_cons.mp hn with rfl | hn
    · exact not_better_self hop n
    · exact hbehind n hn

/-- What is found is the best word when it is the best of those that it cannot be told from. -/
lemma FirstBest.best_iff (h : FirstBest op ns m) :
    (∀ n ∈ ns, op.decides n.toInt m.toInt = false) ↔
      ∀ n ∈ ns, rounded n.toInt = rounded m.toInt → op.decides n.toInt m.toInt = false := by
  refine ⟨fun hbest n hn _ => hbest n hn,fun hbest n hn => ?_⟩
  by_cases hround : rounded n.toInt = rounded m.toInt
  · exact hbest n hn hround
  · have hword : op.decides n.toInt m.toInt = op.decides (rounded n.toInt) (rounded m.toInt) :=
      (decides_rounded op fun heq => absurd heq hround).symm
    rw [hword]
    exact Bool.eq_false_of_not_eq_true (h.not_better hop hn)

end

/-- Two words are compared as the nearest numbers of 53 significant bits. The outcome is that of the
words themselves just when they are equal or do not meet there, as words of no more than 53 bits never
do. So an extreme is the first of the best words as far as that comparison can tell them, and is exact
just when no better word meets it. -/
theorem compare_words (a b : Int64) (ns : List Int64) :
    (∀ op, Value.compare op (int a) (int b) =
      .ok (op.decides (rounded a.toInt) (rounded b.toInt))) ∧
    ((∀ op, Value.compare op (int a) (int b) = .ok (op.decides a.toInt b.toInt)) ↔
      (rounded a.toInt = rounded b.toInt → a = b)) ∧
    (a.toInt.natAbs ≤ 2^53 → rounded a.toInt = a.toInt) ∧
    ∀ p ∈ [(Script.Function.min,Compare.lt),(.max,.gt)], ∀ args,
      Script.Function.sequence args = (a::ns).map int →
        ∃ m, p.1.apply args = .ok (int m) ∧ FirstBest p.2 (a::ns) m ∧
          ((∀ n ∈ a::ns, p.2.decides n.toInt m.toInt = false) ↔
            ∀ n ∈ a::ns, rounded n.toInt = rounded m.toInt →
              p.2.decides n.toInt m.toInt = false) := by
  refine ⟨fun op => compare_int op a b,compare_exact_iff,rounded_of_le,?_⟩
  intro p hp args hargs
  have hop : p.2 = .lt ∨ p.2 = .gt := by
    fin_cases hp <;> simp
  obtain ⟨m,hm,hfirst⟩ := best_words hop a ns
  refine ⟨m,?_,hfirst,hfirst.best_iff hop⟩
  have happly : ∀ name, Script.Function.extreme name p.2 args = .ok (int m) := by
    intro name
    rw [Script.Function.extreme,hargs,List.map_cons]
    simp only [hm]
  fin_cases hp
  · exact happly "min"
  · exact happly "max"

/-- The least of the items of a list. -/
theorem compare_words_list :
    let args := [list none [int 2,int (-3),int 7]]
    Script.Function.sequence args = [2,-3,7].map int ∧
      ∃ m, Script.Function.min.apply args = .ok (int m) ∧ FirstBest .lt [2,-3,7] m := by
  refine ⟨rfl,?_⟩
  obtain ⟨m,hm,hfirst,-⟩ := (compare_words 2 (-3) [-3,7]).2.2.2 (.min,.lt) (List.mem_cons_self ..)
    [list none [int 2,int (-3),int 7]] rfl
  exact ⟨m,hm,hfirst⟩

/-- Neighbours of 54 bits that meet: the larger one counts as equal to the smaller one, and as the least
of both. -/
theorem compare_words_neighbours :
    (9007199254740993 : Int64).toInt ≠ (9007199254740992 : Int64).toInt ∧
      Value.compare .eq (int 9007199254740993) (int 9007199254740992) = .ok true ∧
      Script.Function.min.apply [int 9007199254740993,int 9007199254740992] =
        .ok (int 9007199254740993) :=
  ⟨by decide,rfl,rfl⟩

end Value
end CellScript
