import Mathlib
import CellScript.Proofs.Result
import CellScript.Value.Operator

/-! Values that differ only in the places that lists were bound at. No operator can tell them
apart. -/
namespace CellScript

namespace Value

mutual

/-- The same value, with lists bound at corresponding places. -/
def Alike (R : Text.Position → Text.Position → Prop) : Value → Value → Prop
  | nil,v => v = nil
  | bool b,v => v = bool b
  | int n,v => v = int n
  | float x,v => v = float x
  | str t,v => v = str t
  | list o xs,v => ∃ p ys, v = list p ys ∧ Option.Rel R o p ∧ AllAlike R xs ys

def AllAlike (R : Text.Position → Text.Position → Prop) : List Value → List Value → Prop
  | [],ys => ys = []
  | x::xs,ys => ∃ y ys', ys = y::ys' ∧ Alike R x y ∧ AllAlike R xs ys'

end

/-- Places that correspond to one place at most, both ways. -/
structure OneToOne (R : Text.Position → Text.Position → Prop) : Prop where
  right : ∀ ⦃a b c⦄, R a b → R a c → b = c
  left : ∀ ⦃a b c⦄, R a c → R b c → a = b

section

variable {R : Text.Position → Text.Position → Prop}

lemma AllAlike.length_eq {xs ys : List Value} (h : AllAlike R xs ys) : ys.length = xs.length := by
  induction xs generalizing ys with
  | nil =>
    simp only [AllAlike] at h
    rw [h]
  | cons x xs ih =>
    simp only [AllAlike] at h
    obtain ⟨y,ys,rfl,-,hys⟩ := h
    simp only [List.length_cons,ih hys]

lemma AllAlike.append {xs ys us vs : List Value} (h : AllAlike R xs us) (h' : AllAlike R ys vs) :
    AllAlike R (xs ++ ys) (us ++ vs) := by
  induction xs generalizing us with
  | nil =>
    simp only [AllAlike] at h
    subst h
    exact h'
  | cons x xs ih =>
    simp only [AllAlike] at h
    obtain ⟨y,us,rfl,hxy,hus⟩ := h
    simp only [List.cons_append,AllAlike]
    exact ⟨y,us ++ vs,rfl,hxy,ih hus⟩

/-- What can be seen of a value without a look at the places of lists. -/
structure Seen (v w : Value) : Prop where
  kind : w.kind = v.kind
  truthy : w.truthy = v.truthy
  text : w.text? = v.text?
  float : w.toFloat? = v.toFloat?

lemma Alike.seen {v w : Value} (h : v.Alike R w) : Seen v w := by
  cases v with
  | list o xs =>
    simp only [Alike] at h
    obtain ⟨p,ys,rfl,-,hys⟩ := h
    refine ⟨rfl,?_,rfl,rfl⟩
    have hlen := hys.length_eq
    simp only [truthy]
    cases xs with
    | nil => simp [List.length_eq_zero_iff.mp hlen]
    | cons x xs =>
      obtain ⟨y,ys,rfl⟩ := List.exists_cons_of_length_eq_add_one hlen
      rfl
  | _ =>
    simp only [Alike] at h
    subst h
    exact ⟨rfl,rfl,rfl,rfl⟩

mutual

lemma Alike.shown : ∀ (v : Value) {w : Value}, v.Alike R w → w.shown = v.shown
  | nil,_,h | bool _,_,h | int _,_,h | float _,_,h | str _,_,h => by
    simp only [Alike] at h
    rw [h]
  | list o xs,_,h => by
    simp only [Alike] at h
    obtain ⟨p,ys,rfl,-,hys⟩ := h
    simp only [Value.shown,AllAlike.shownAll xs hys]

lemma AllAlike.shownAll : ∀ (xs : List Value) {ys : List Value}, AllAlike R xs ys →
    Value.shownAll ys = Value.shownAll xs
  | [],_,h => by
    simp only [AllAlike] at h
    rw [h]
  | x::xs,_,h => by
    simp only [AllAlike] at h
    obtain ⟨y,ys,rfl,hxy,hys⟩ := h
    simp only [Value.shownAll,Alike.shown x hxy,AllAlike.shownAll xs hys]

end

lemma OneToOne.origin_eq (hR : OneToOne R) {o o' p p' : Option Text.Position}
    (ho : Option.Rel R o o') (hp : Option.Rel R p p') :
    (o'.isSome && o' == p') = (o.isSome && o == p) := by
  cases ho with
  | none => rfl
  | @some a a' haa =>
    cases hp with
    | none => rfl
    | @some b b' hbb =>
      simp only [Option.isSome_some,Bool.true_and]
      by_cases hab : a = b
      · subst hab
        rw [hR.right haa hbb]
        simp
      · have hab' : a' ≠ b' := by
          rintro rfl
          exact hab (hR.left haa hbb)
        simp [hab,hab']

mutual

lemma Alike.same (hR : OneToOne R) : ∀ (v : Value) {v' w w' : Value}, v.Alike R v' → w.Alike R w' →
    Value.same v' w' = Value.same v w
  | nil,_,w,_,hv,hw | bool _,_,w,_,hv,hw | int _,_,w,_,hv,hw | float _,_,w,_,hv,hw
  | str _,_,w,_,hv,hw => by
    simp only [Alike] at hv
    subst hv
    cases w with
    | list p ys =>
      simp only [Alike] at hw
      obtain ⟨p',ys',rfl,-⟩ := hw
      simp only [Value.same]
    | _ =>
      simp only [Alike] at hw
      rw [hw]
  | list o xs,_,w,_,hv,hw => by
    simp only [Alike] at hv
    obtain ⟨o',xs',rfl,ho,hxs⟩ := hv
    cases w with
    | list p ys =>
      simp only [Alike] at hw
      obtain ⟨p',ys',rfl,hp,hys⟩ := hw
      simp only [Value.same,hxs.length_eq,hys.length_eq,hR.origin_eq ho hp,
        AllAlike.sameAll hR xs hxs hys]
    | _ =>
      simp only [Alike] at hw
      subst hw
      simp only [Value.same]

lemma AllAlike.sameAll (hR : OneToOne R) : ∀ (xs : List Value) {xs' ys ys' : List Value},
    AllAlike R xs xs' → AllAlike R ys ys' → Value.sameAll xs' ys' = Value.sameAll xs ys
  | [],_,ys,_,hx,hy => by
    simp only [AllAlike] at hx
    subst hx
    cases ys with
    | nil =>
      simp only [AllAlike] at hy
      rw [hy]
    | cons y ys =>
      simp only [AllAlike] at hy
      obtain ⟨y',ys',rfl,-⟩ := hy
      simp only [Value.sameAll]
  | x::xs,_,ys,_,hx,hy => by
    simp only [AllAlike] at hx
    obtain ⟨x',xs',rfl,hxx,hxs⟩ := hx
    cases ys with
    | nil =>
      simp only [AllAlike] at hy
      subst hy
      simp only [Value.sameAll]
    | cons y ys =>
      simp only [AllAlike] at hy
      obtain ⟨y',ys',rfl,hyy,hys⟩ := hy
      simp only [Value.sameAll,Alike.same hR x hxx hyy,AllAlike.sameAll hR xs hxs hys]

end

/-- A value that is no list. -/
def Plain (v : Value) : Prop := v.kind ≠ .list

@[simp] lemma plain_nil : nil.Plain := nofun

@[simp] lemma plain_bool (b : Bool) : (bool b).Plain := nofun

@[simp] lemma plain_int (n : Int64) : (int n).Plain := nofun

@[simp] lemma plain_float (x : Float) : (float x).Plain := nofun

@[simp] lemma plain_str (t : Text) : (str t).Plain := nofun

@[simp] lemma not_plain_list (o : Option Text.Position) (xs : List Value) : ¬ (list o xs).Plain :=
  fun h => h rfl

lemma Plain.alike {v : Value} (h : v.Plain) : v.Alike R v := by
  cases v with
  | list o xs => exact absurd rfl h
  | _ => simp only [Alike]

lemma Plain.eq_of_alike {v w : Value} (h : v.Plain) (hw : v.Alike R w) : w = v := by
  cases v with
  | list o xs => exact absurd rfl h
  | _ => simpa only [Alike] using hw

lemma Alike.plain {v w : Value} (h : v.Alike R w) (hv : v.Plain) : w.Plain := by
  rw [hv.eq_of_alike h]
  exact hv

lemma exists_list {v : Value} (h : ¬ v.Plain) : ∃ o xs, v = list o xs := by
  cases v with
  | list o xs => exact ⟨o,xs,rfl⟩
  | _ => exact absurd (by simp) h

lemma matched_of_plain {x : Except Fault Value} (h : ∀ v, x = .ok v → v.Plain) :
    Matched Eq (Alike R) x x := by
  cases x with
  | error e => exact .error rfl
  | ok v => exact .ok (h v rfl).alike

lemma plain_of_signed {op : Sign} {v u : Value} (h : Value.signed op v = .ok u) : u.Plain := by
  cases v with
  | int n | float x =>
    simp only [Value.signed,Except.ok.injEq] at h
    subst h
    simp
  | _ => simp [Value.signed] at h

lemma Alike.signed (op : Sign) {v w : Value} (h : v.Alike R w) :
    Matched Eq (Alike R) (Value.signed op v) (Value.signed op w) := by
  by_cases hv : v.Plain
  · rw [hv.eq_of_alike h]
    exact matched_of_plain fun u hu => plain_of_signed hu
  · obtain ⟨o,xs,rfl⟩ := exists_list hv
    simp only [Alike] at h
    obtain ⟨p,ys,rfl,-⟩ := h
    exact .error rfl

lemma plain_of_arithNumber {op : Arith} {v w u : Value} (h : arithNumber op v w = .ok u) :
    u.Plain := by
  have hint : ∀ {a b : Int64}, arithInt op a b = .ok u → u.Plain := by
    intro a b h
    cases op <;> simp only [arithInt] at h <;> (try split at h) <;>
      simp only [Except.ok.injEq,reduceCtorEq] at h <;> subst h <;> simp
  have hfloat : ∀ {a b : Float}, arithFloat op a b = .ok u → u.Plain := by
    intro a b h
    cases op <;> simp only [arithFloat] at h <;> (try split at h) <;>
      simp only [Except.ok.injEq,reduceCtorEq] at h <;> subst h <;> simp
  unfold arithNumber at h
  split at h
  · exact hint h
  · split at h
    · exact hfloat h
    · simp at h

lemma arithNumber_of_list {op : Arith} {v w : Value} (h : v.toFloat? = none ∨ w.toFloat? = none) :
    arithNumber op v w = .error (.arith op v.kind w.kind) := by
  unfold arithNumber
  split
  · simp [toFloat?] at h
  · split
    · next a b ha hb => simp [ha,hb] at h
    · rfl

lemma plain_of_arith {op : Arith} {v w u : Value} (hv : v.Plain) (h : Value.arith op v w = .ok u) :
    u.Plain := by
  unfold Value.arith at h
  split at h
  · simp only [Except.ok.injEq] at h
    subst h
    simp
  · exact absurd rfl hv
  · exact plain_of_arithNumber h

lemma Alike.arith (op : Arith) {v v' w w' : Value} (hv : v.Alike R v') (hw : w.Alike R w') :
    Matched Eq (Alike R) (Value.arith op v w) (Value.arith op v' w') := by
  by_cases hvp : v.Plain
  · by_cases hwp : w.Plain
    · rw [hvp.eq_of_alike hv,hwp.eq_of_alike hw]
      exact matched_of_plain fun u hu => plain_of_arith hvp hu
    · obtain ⟨p,ys,rfl⟩ := exists_list hwp
      simp only [Alike] at hw
      obtain ⟨p',ys',rfl,-⟩ := hw
      rw [hvp.eq_of_alike hv]
      have h : ∀ p ys, Value.arith op v (list p ys) = .error (.arith op v.kind .list) := by
        intro p ys
        unfold Value.arith
        split
        · simp_all
        · exact absurd rfl hvp
        · exact arithNumber_of_list (Or.inr rfl)
      rw [h,h]
      exact .error rfl
  · obtain ⟨o,xs,rfl⟩ := exists_list hvp
    simp only [Alike] at hv
    obtain ⟨o',xs',rfl,-,hxs⟩ := hv
    by_cases hwp : w.Plain
    · rw [hwp.eq_of_alike hw]
      have h : ∀ o xs, Value.arith op (list o xs) w = .error (.arith op .list w.kind) := by
        intro o xs
        unfold Value.arith
        split
        · simp_all
        · exact absurd rfl hwp
        · exact arithNumber_of_list (Or.inl rfl)
      rw [h,h]
      exact .error rfl
    · obtain ⟨p,ys,rfl⟩ := exists_list hwp
      simp only [Alike] at hw
      obtain ⟨p',ys',rfl,-,hys⟩ := hw
      cases op with
      | add =>
        refine .ok ?_
        simp only [Alike]
        exact ⟨none,xs' ++ ys',rfl,.none,hxs.append hys⟩
      | _ => exact .error rfl

lemma Alike.compare (hR : OneToOne R) (op : Compare) {v v' w w' : Value} (hv : v.Alike R v')
    (hw : w.Alike R w') : Value.compare op v' w' = Value.compare op v w := by
  have hother : compareOther op v' w' = compareOther op v w := by
    unfold compareOther
    rw [Alike.same hR v hv hw,hv.seen.kind,hw.seen.kind]
  by_cases hvp : v.Plain
  · by_cases hwp : w.Plain
    · rw [hvp.eq_of_alike hv,hwp.eq_of_alike hw]
    · obtain ⟨p,ys,rfl⟩ := exists_list hwp
      simp only [Alike] at hw
      obtain ⟨p',ys',rfl,-⟩ := hw
      rw [hvp.eq_of_alike hv] at hother ⊢
      have h : ∀ p ys, Value.compare op v (list p ys) = compareOther op v (list p ys) := by
        intro p ys
        simp only [Value.compare,toFloat?]
        cases v <;> rfl
      rw [h,h,hother]
  · obtain ⟨o,xs,rfl⟩ := exists_list hvp
    simp only [Alike] at hv
    obtain ⟨o',xs',rfl,-⟩ := hv
    have h : ∀ o xs w, Value.compare op (list o xs) w = compareOther op (list o xs) w := by
      intro o xs w
      rfl
    rw [h,h,hother]

end

end Value
end CellScript
