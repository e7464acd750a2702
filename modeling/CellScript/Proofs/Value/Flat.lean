import Mathlib
import CellScript.Proofs.Value.Alike

/-! Flat values. A list of numbers and texts is all that nests, and arithmetic keeps to such lists. -/
namespace CellScript.Value

/-- A number or a text: what a list may hold. -/
def isItem : Value → Bool
  | int _ | float _ | str _ => true
  | nil | bool _ | list _ _ => false

/-- A value that is no list, or a list of numbers and texts. -/
def isFlat : Value → Bool
  | list _ items => items.all isItem
  | nil | bool _ | int _ | float _ | str _ => true

lemma plain_of_isItem {v : Value} (h : v.isItem = true) : v.Plain := by
  cases v with
  | list o xs => exact absurd h (by simp [isItem])
  | _ => simp

lemma Plain.isFlat {v : Value} (h : v.Plain) : v.isFlat = true := by
  cases v with
  | list o xs => exact absurd rfl h
  | _ => rfl

@[simp] lemma isFlat_bindAt (v : Value) (place : Text.Position) :
    (v.bindAt place).isFlat = v.isFlat := by
  cases v with
  | list o xs => cases o <;> rfl
  | _ => rfl

/-- A property of flat values that all values have but lists that have been bound. -/
structure Unbound (P : Value → Prop) : Prop where
  flat : ∀ {v}, P v → v.isFlat = true
  plain : ∀ {v : Value}, v.Plain → P v
  list : ∀ {items}, items.all isItem = true → P (list none items)

lemma unbound_isFlat : Unbound fun v => v.isFlat = true := ⟨id,Plain.isFlat,id⟩

/-- Only the lists of both operands are in the list of a sum. -/
lemma Unbound.arith {P : Value → Prop} (hP : Unbound P) {op : Arith} {v w u : Value} (hv : P v)
    (hw : P w) (h : Value.arith op v w = .ok u) : P u := by
  have hflat := hP.flat hv
  have hflat' := hP.flat hw
  unfold Value.arith at h
  split at h
  · obtain rfl := Except.ok.inj h
    exact hP.plain (by simp)
  · obtain rfl := Except.ok.inj h
    simp only [isFlat] at hflat hflat'
    exact hP.list (by rw [List.all_append,hflat,hflat',Bool.and_self])
  · exact hP.plain (plain_of_arithNumber h)

lemma isSome_text? {v : Value} (h : v.Plain) : v.text?.isSome = true := by
  cases v with
  | list o xs => exact absurd rfl h
  | _ => rfl

end CellScript.Value
