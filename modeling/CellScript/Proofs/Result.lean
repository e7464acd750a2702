import Mathlib

/-! Results of what may fail: how a success has come about, and what holds of a result whichever way it
has ended. -/
namespace CellScript

lemma bind_eq_ok_iff {ε α β : Type} {x : Except ε α} {f : α → Except ε β} {b : β} :
    x >>= f = .ok b ↔ ∃ a, x = .ok a ∧ f a = .ok b := by
  cases x with
  | error e => simp [bind,Except.bind]
  | ok a => simp [bind,Except.bind]

/-- Results are collected one by one. -/
lemma mapM_eq_ok_iff {ε α β : Type} {f : α → Except ε β} {xs : List α} {ys : List β} :
    xs.mapM f = .ok ys ↔ List.Forall₂ (fun x y => f x = .ok y) xs ys := by
  induction xs generalizing ys with
  | nil =>
    rw [List.forall₂_nil_left_iff]
    simp [Pure.pure,Except.pure,eq_comm]
  | cons x xs ih =>
    rw [List.mapM_cons,List.forall₂_cons_left_iff]
    cases hx : f x with
    | error e => simp [Bind.bind,Except.bind]
    | ok y =>
      cases hxs : xs.mapM f with
      | error e => simp [← ih,hxs,Bind.bind,Except.bind]
      | ok zs => simp [← ih,hxs,Bind.bind,Except.bind,Pure.pure,Except.pure,eq_comm]

lemma mapM_cons_eq_error_iff {ε α β : Type} {f : α → Except ε β} {x : α} {xs : List α} {e : ε} :
    (x::xs).mapM f = .error e ↔
      f x = .error e ∨ (∃ b, f x = .ok b) ∧ xs.mapM f = .error e := by
  rw [List.mapM_cons]
  cases f x with
  | error e' => simp [Bind.bind,Except.bind]
  | ok b => cases xs.mapM f <;> simp [Bind.bind,Except.bind,Pure.pure,Except.pure]

/-- The first failure ends the collection. -/
lemma mapM_eq_error_iff {ε α β : Type} {f : α → Except ε β} {xs : List α} {e : ε} :
    xs.mapM f = .error e ↔ ∃ before x after, xs = before ++ x::after ∧
      (∀ y ∈ before, ∃ b, f y = .ok b) ∧ f x = .error e := by
  induction xs with
  | nil => simp [Pure.pure,Except.pure]
  | cons x xs ih =>
    rw [mapM_cons_eq_error_iff,ih]
    constructor
    · rintro (hx | ⟨hx,before,y,after,rfl,hbefore,hy⟩)
      · exact ⟨[],x,xs,rfl,by simp,hx⟩
      · exact ⟨x::before,y,after,rfl,List.forall_mem_cons.mpr ⟨hx,hbefore⟩,hy⟩
    · rintro ⟨_ | ⟨z,before⟩,y,after,hxs,hbefore,hy⟩
      · obtain ⟨rfl,rfl⟩ := List.cons.inj hxs
        exact Or.inl hy
      · obtain ⟨rfl,rfl⟩ := List.cons.inj hxs
        obtain ⟨hx,hbefore⟩ := List.forall_mem_cons.mp hbefore
        exact Or.inr ⟨hx,before,y,after,rfl,hbefore,hy⟩

lemma exists_mapM_eq_error_iff {ε α β : Type} {f : α → Except ε β} {xs : List α} :
    (∃ e, xs.mapM f = .error e) ↔ ∃ x ∈ xs, ∃ e, f x = .error e := by
  constructor
  · rintro ⟨e,he⟩
    obtain ⟨before,x,after,rfl,-,hx⟩ := mapM_eq_error_iff.mp he
    exact ⟨x,by simp,e,hx⟩
  · induction xs with
    | nil => simp
    | cons x xs ih =>
      intro h
      simp only [mapM_cons_eq_error_iff]
      cases hx : f x with
      | error e => exact ⟨e,Or.inl rfl⟩
      | ok b =>
        obtain ⟨y,hy,e,he⟩ := h
        rcases List.mem_cons.mp hy with rfl | hy
        · simp [hx] at he
        · obtain ⟨e,he⟩ := ih ⟨y,hy,e,he⟩
          exact ⟨e,Or.inr ⟨⟨b,rfl⟩,he⟩⟩

/-- Two results of one sort: values that are related, or errors that are. -/
inductive Matched {ε ε' α β : Type} (E : ε → ε' → Prop) (P : α → β → Prop) :
    Except ε α → Except ε' β → Prop
  | ok {a : α} {b : β} : P a b → Matched E P (.ok a) (.ok b)
  | error {e : ε} {e' : ε'} : E e e' → Matched E P (.error e) (.error e')

lemma Matched.bind {ε ε' α β γ δ : Type} {E : ε → ε' → Prop} {P : α → β → Prop} {Q : γ → δ → Prop}
    {x : Except ε α} {y : Except ε' β} {f : α → Except ε γ} {g : β → Except ε' δ}
    (h : Matched E P x y) (hf : ∀ a b, P a b → Matched E Q (f a) (g b)) :
    Matched E Q (x >>= f) (y >>= g) := by
  cases h with
  | ok hab => exact hf _ _ hab
  | error he => exact .error he

lemma Matched.mapM {ε ε' α β γ δ : Type} {E : ε → ε' → Prop} {P : α → β → Prop} {Q : γ → δ → Prop}
    {f : α → Except ε γ} {g : β → Except ε' δ} {xs : List α} {ys : List β}
    (h : List.Forall₂ P xs ys) (hf : ∀ x y, P x y → Matched E Q (f x) (g y)) :
    Matched E (List.Forall₂ Q) (xs.mapM f) (ys.mapM g) := by
  induction h with
  | nil => exact .ok .nil
  | cons hxy _ ih =>
    rw [List.mapM_cons,List.mapM_cons]
    exact (hf _ _ hxy).bind fun _ _ hu => ih.bind fun _ _ hus => .ok (.cons hu hus)

lemma matched_refl {ε α : Type} {E : ε → ε → Prop} {P : α → α → Prop} (hE : ∀ e, E e e)
    (hP : ∀ a, P a a) (x : Except ε α) : Matched E P x x := by
  cases x with
  | ok a => exact .ok (hP a)
  | error e => exact .error (hE e)

/-- Two computations that start the same. -/
lemma matched_bind {ε α β γ : Type} {E : ε → ε → Prop} {Q : β → γ → Prop} (hE : ∀ e, E e e)
    (x : Except ε α) {f : α → Except ε β} {g : α → Except ε γ}
    (hf : ∀ a, Matched E Q (f a) (g a)) : Matched E Q (x >>= f) (x >>= g) := by
  cases x with
  | ok a => exact hf a
  | error e => exact .error (hE e)

lemma Matched.eq {ε α : Type} {x y : Except ε α} (h : Matched Eq Eq x y) : y = x := by
  cases h with
  | ok h => rw [h]
  | error h => rw [h]

/-- A result that has a property, or a failure that has one. -/
def Gives {ε α : Type} (E : ε → Prop) (P : α → Prop) : Except ε α → Prop
  | .ok a => P a
  | .error e => E e

lemma Gives.bind {ε α β : Type} {E : ε → Prop} {P : α → Prop} {Q : β → Prop} {x : Except ε α}
    {f : α → Except ε β} (h : Gives E P x) (hf : ∀ a, P a → Gives E Q (f a)) :
    Gives E Q (x >>= f) := by
  cases x with
  | error e => exact h
  | ok a => exact hf a h

lemma Gives.mapM {ε α β : Type} {E : ε → Prop} {P : β → Prop} {f : α → Except ε β} (xs : List α)
    (h : ∀ x ∈ xs, Gives E P (f x)) : Gives E (fun ys => ∀ y ∈ ys, P y) (xs.mapM f) := by
  induction xs with
  | nil => exact List.forall_mem_nil _
  | cons x xs ih =>
    obtain ⟨hx,hxs⟩ := List.forall_mem_cons.mp h
    rw [List.mapM_cons]
    exact hx.bind fun y hy => (ih hxs).bind fun ys hys => List.forall_mem_cons.mpr ⟨hy,hys⟩

end CellScript
