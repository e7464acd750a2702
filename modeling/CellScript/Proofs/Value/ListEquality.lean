import Mathlib
import CellScript.Proofs.Value.Flat

/-! Equality of lists. Lists of numbers and texts are equal item by item, and an item is equal to none of
another kind: the number 1 as a word is not the number 1 as a floating point number, which a comparison
of the two by themselves would take as equal. -/
namespace CellScript.Value

/-- A number or a text, and no float that is not a number. -/
def IsProper : Value → Prop
  | int _ | str _ => True
  | float x => x.isNaN = false
  | nil | bool _ | list _ _ => False

lemma IsProper.isItem {v : Value} (h : v.IsProper) : v.isItem = true := by
  cases v with
  | int | str | float => rfl
  | nil | bool | list => exact h.elim

/-- One word, or two values of one kind that compare as equal. -/
def Equal : Value → Value → Prop
  | int a,int b => a = b
  | v,w => v.kind = w.kind ∧ compare .eq v w = .ok true

lemma float_beq_self {x : Float} (h : x.isNaN = false) : x == x := by
  change x.toModel.unpack.isNaN = false at h
  change x.toModel.unpack.compare x.toModel.unpack == some .eq
  generalize x.toModel.unpack = u at h ⊢
  cases u with
  | notANumber => simp [Float.Model.UnpackedFloat.isNaN] at h
  | infinity s => cases s <;> rfl
  | zero s => rfl
  | finite s m e hm =>
    cases s <;> simp [Float.Model.UnpackedFloat.compare]

lemma IsProper.equal_self {v : Value} (h : v.IsProper) : Equal v v := by
  cases v with
  | int n => rfl
  | str t => exact ⟨rfl,congrArg Except.ok (beq_self_eq_true t)⟩
  | float x => exact ⟨rfl,congrArg Except.ok (float_beq_self h)⟩
  | nil | bool | list => exact h.elim

lemma same_iff {v w : Value} (hv : v.isItem = true) (hw : w.isItem = true) :
    same v w = true ↔ Equal v w := by
  cases v with
  | nil | bool | list => simp [isItem] at hv
  | int a =>
    cases w with
    | nil | bool | list => simp [isItem] at hw
    | int b => simp [same,Equal]
    | _ => simp [same,Equal,kind]
  | float x =>
    cases w with
    | nil | bool | list => simp [isItem] at hw
    | float y => simp [same,Equal,kind,compare,toFloat?,compareFloat]
    | _ => simp [same,Equal,kind]
  | str t =>
    cases w with
    | nil | bool | list => simp [isItem] at hw
    | str u => simp [same,Equal,kind,compare,toFloat?,compareText]
    | _ => simp [same,Equal,kind]

lemma sameAll_iff {xs ys : List Value} (hx : ∀ x ∈ xs, x.isItem = true)
    (hy : ∀ y ∈ ys, y.isItem = true) : sameAll xs ys = true ↔ List.Forall₂ Equal xs ys := by
  induction xs generalizing ys with
  | nil => cases ys <;> simp [sameAll]
  | cons x xs ih =>
    cases ys with
    | nil => simp [sameAll]
    | cons y ys =>
      obtain ⟨hx,hxs⟩ := List.forall_mem_cons.mp hx
      obtain ⟨hy,hys⟩ := List.forall_mem_cons.mp hy
      rw [sameAll,Bool.and_eq_true,same_iff hx hy,ih hxs hys,List.forall₂_cons]

/-- Lists that were bound at one place are one list. -/
def Coherent (v w : Value) : Prop :=
  ∀ ⦃p xs ys⦄, v = list (some p) xs → w = list (some p) ys → xs = ys

/-- Two lists are the same when their items are equal one by one. -/
lemma same_list_iff {o p : Option Text.Position} {xs ys : List Value}
    (h : Coherent (list o xs) (list p ys)) (hx : ∀ x ∈ xs, x.IsProper) (hy : ∀ y ∈ ys, y.IsProper) :
    same (list o xs) (list p ys) = true ↔ List.Forall₂ Equal xs ys := by
  have hitems := sameAll_iff (fun x hmem => (hx x hmem).isItem) fun y hmem => (hy y hmem).isItem
  rw [same,Bool.and_eq_true,Bool.or_eq_true,Bool.and_eq_true,beq_iff_eq,beq_iff_eq,hitems]
  constructor
  · rintro ⟨-,⟨hplace,rfl⟩ | hequal⟩
    · obtain ⟨q,rfl⟩ := Option.isSome_iff_exists.mp hplace
      obtain rfl := h rfl rfl
      exact List.forall₂_same.mpr fun x hmem => (hx x hmem).equal_self
    · exact hequal
  · exact fun hequal => ⟨hequal.length_eq,Or.inr hequal⟩

end CellScript.Value
