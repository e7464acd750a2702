import Mathlib
import CellScript.Proofs.Script.Flat
import CellScript.Stream.Cause

/-! Extremes. The values of a call are compared one after the other with the best one so far. That goes
through when there is an order between all of them, and whether there is does not depend on which of them
is the best. -/
namespace CellScript

namespace Value

def IsNumber (v : Value) : Prop := v.kind = .int ∨ v.kind = .float

def IsText (v : Value) : Prop := v.kind = .str

def Ordered (v w : Value) : Prop := v.IsNumber ∧ w.IsNumber ∨ v.IsText ∧ w.IsText

lemma IsNumber.not_isText {v : Value} (h : v.IsNumber) : ¬v.IsText := by
  intro ht
  rw [IsText] at ht
  simp [IsNumber,ht] at h

lemma Ordered.symm {v w : Value} (h : Ordered v w) : Ordered w v := by
  obtain ⟨hv,hw⟩ | ⟨hv,hw⟩ := h
  · exact Or.inl ⟨hw,hv⟩
  · exact Or.inr ⟨hw,hv⟩

lemma Ordered.trans {u v w : Value} (h : Ordered u v) (h' : Ordered v w) : Ordered u w := by
  obtain ⟨hu,hv⟩ | ⟨hu,hv⟩ := h
  · obtain ⟨-,hw⟩ | ⟨ht,-⟩ := h'
    · exact Or.inl ⟨hu,hw⟩
    · exact absurd ht hv.not_isText
  · obtain ⟨hn,-⟩ | ⟨-,hw⟩ := h'
    · exact absurd hv hn.not_isText
    · exact Or.inr ⟨hu,hw⟩

lemma isNumber_iff {v : Value} : v.IsNumber ↔ ∃ x, v.toFloat? = some x := by
  cases v <;> simp [IsNumber,kind,toFloat?]

lemma isText_iff {v : Value} : v.IsText ↔ ∃ t, v = str t := by
  cases v <;> simp [IsText,kind]

lemma Ordered.compare {v w : Value} (h : Ordered v w) (op : Compare) :
    ∃ b, Value.compare op v w = .ok b := by
  obtain ⟨hv,hw⟩ | ⟨hv,hw⟩ := h
  · obtain ⟨x,hx⟩ := isNumber_iff.mp hv
    obtain ⟨y,hy⟩ := isNumber_iff.mp hw
    exact ⟨compareFloat op x y,by simp only [Value.compare,hx,hy]⟩
  · obtain ⟨t,rfl⟩ := isText_iff.mp hv
    obtain ⟨u,rfl⟩ := isText_iff.mp hw
    exact ⟨_,rfl⟩

lemma compare_of_not_ordered {op : Compare} (hop : op = .lt ∨ op = .gt) {v w : Value}
    (h : ¬Ordered v w) : Value.compare op v w = .error (.compare op v.kind w.kind) := by
  unfold Value.compare
  split
  · next x y hx hy => exact absurd (Or.inl ⟨isNumber_iff.mpr ⟨x,hx⟩,isNumber_iff.mpr ⟨y,hy⟩⟩) h
  · split
    · exact absurd (Or.inr ⟨rfl,rfl⟩) h
    · rcases hop with rfl | rfl <;> rfl

end Value

namespace Script.Function

open Value

section

variable {op : Compare} (hop : op = .lt ∨ op = .gt) {v : Value} {vs : List Value}

include hop

/-- The loop goes through when there is an order between each value and the one it starts with. -/
theorem best_isOk : (∃ m, best op v vs = .ok m) ↔ ∀ w ∈ vs, Ordered w v := by
  induction vs generalizing v with
  | nil => simp [best]
  | cons w vs ih =>
    rw [List.forall_mem_cons,best]
    by_cases h : Ordered w v
    · obtain ⟨b,hb⟩ := h.compare op
      -- whichever of the two is kept, the same values have an order with it
      have hkept : (∀ u ∈ vs, Ordered u (if b then w else v)) ↔ ∀ u ∈ vs, Ordered u v := by
        cases b with
        | false => exact Iff.rfl
        | true => exact forall₂_congr fun u _ => ⟨fun hu => hu.trans h,fun hu => hu.trans h.symm⟩
      simp only [hb,bind,Except.bind,ih,hkept,h,true_and]
    · simp [compare_of_not_ordered hop h,h,bind,Except.bind]

lemma cause_of_best {fault : Fault} (h : best op v vs = .error fault) : fault.cause = .type := by
  induction vs generalizing v with
  | nil => simp [best] at h
  | cons w vs ih =>
    rw [best] at h
    by_cases hw : Ordered w v
    · obtain ⟨b,hb⟩ := hw.compare op
      rw [hb] at h
      exact ih h
    · rw [compare_of_not_ordered hop hw] at h
      obtain rfl := Except.error.inj h
      rfl

end

/-- A text that another one does not take the place of. -/
def AsGood (op : Compare) (t u : Text) : Prop := compareText op u t = false

lemma asGood_lt_iff {t u : Text} : AsGood .lt t u ↔ t ≤ u := by
  rw [AsGood,compareText,decide_eq_false_iff_not,List.not_lt]

lemma asGood_gt_iff {t u : Text} : AsGood .gt t u ↔ u ≤ t := by
  rw [AsGood,compareText,decide_eq_false_iff_not,List.not_lt]

section

variable {op : Compare} (hop : op = .lt ∨ op = .gt) {t u w : Text}

include hop

lemma asGood_self (t : Text) : AsGood op t t := by
  rcases hop with rfl | rfl
  · exact asGood_lt_iff.mpr (List.le_refl t)
  · exact asGood_gt_iff.mpr (List.le_refl t)

lemma AsGood.trans (h : AsGood op t u) (h' : AsGood op u w) : AsGood op t w := by
  rcases hop with rfl | rfl
  · exact asGood_lt_iff.mpr (List.le_trans (asGood_lt_iff.mp h) (asGood_lt_iff.mp h'))
  · exact asGood_gt_iff.mpr (List.le_trans (asGood_gt_iff.mp h') (asGood_gt_iff.mp h))

lemma AsGood.antisymm (h : AsGood op t u) (h' : AsGood op u t) : t = u := by
  rcases hop with rfl | rfl
  · exact List.le_antisymm (asGood_lt_iff.mp h) (asGood_lt_iff.mp h')
  · exact List.le_antisymm (asGood_gt_iff.mp h') (asGood_gt_iff.mp h)

lemma asGood_of_better (h : compareText op t u = true) : AsGood op t u := by
  rcases hop with rfl | rfl
  · exact asGood_lt_iff.mpr (List.le_of_lt (of_decide_eq_true h))
  · exact asGood_gt_iff.mpr (List.le_of_lt (of_decide_eq_true h))

/-- What the loop keeps is as good as every text that it has passed. -/
theorem best_texts (t : Text) (ts : List Text) :
    ∃ m ∈ t::ts, best op (.str t) (ts.map .str) = .ok (.str m) ∧ ∀ u ∈ t::ts, AsGood op m u := by
  induction ts generalizing t with
  | nil => exact ⟨t,by simp,rfl,by simpa using asGood_self hop t⟩
  | cons w ts ih =>
    have hstep : best op (.str t) ((w::ts).map .str) =
        best op (if compareText op w t then .str w else .str t) (ts.map .str) := rfl
    rw [hstep]
    cases hbetter : compareText op w t with
    | true =>
      obtain ⟨m,hm,hbest,hgood⟩ := ih w
      have ht : AsGood op m t := (hgood w (by simp)).trans hop (asGood_of_better hop hbetter)
      exact ⟨m,List.mem_cons_of_mem t hm,hbest,List.forall_mem_cons.mpr ⟨ht,hgood⟩⟩
    | false =>
      obtain ⟨m,hm,hbest,hgood⟩ := ih t
      obtain ⟨ht,hts⟩ := List.forall_mem_cons.mp hgood
      have hw : AsGood op m w := ht.trans hop hbetter
      refine ⟨m,?_,hbest,List.forall_mem_cons.mpr ⟨ht,List.forall_mem_cons.mpr ⟨hw,hts⟩⟩⟩
      rcases List.mem_cons.mp hm with rfl | hm
      · simp
      · simp [hm]

end

/-- No values at all, or several that are neither all numbers nor all texts. -/
def NoExtreme (xs : List Value) : Prop :=
  xs = [] ∨ 2 ≤ xs.length ∧ (¬∀ x ∈ xs, x.IsNumber) ∧ ¬∀ x ∈ xs, x.IsText

lemma forall_ordered_iff {v w : Value} {vs : List Value} :
    (∀ u ∈ w::vs, Ordered u v) ↔
      (∀ u ∈ v::w::vs, u.IsNumber) ∨ ∀ u ∈ v::w::vs, u.IsText := by
  constructor
  · intro h
    obtain ⟨-,hv⟩ | ⟨-,hv⟩ := h w (List.mem_cons_self ..)
    · refine Or.inl (List.forall_mem_cons.mpr ⟨hv,fun u hu => ?_⟩)
      exact (h u hu).elim (fun hn => hn.1) fun ht => absurd ht.2 hv.not_isText
    · refine Or.inr (List.forall_mem_cons.mpr ⟨hv,fun u hu => ?_⟩)
      exact (h u hu).elim (fun hn => absurd hv hn.2.not_isText) fun ht => ht.1
  · rintro (h | h)
    · obtain ⟨hv,hvs⟩ := List.forall_mem_cons.mp h
      exact fun u hu => Or.inl ⟨hvs u hu,hv⟩
    · obtain ⟨hv,hvs⟩ := List.forall_mem_cons.mp h
      exact fun u hu => Or.inr ⟨hvs u hu,hv⟩

lemma not_noExtreme_iff {v : Value} {vs : List Value} :
    ¬NoExtreme (v::vs) ↔ ∀ w ∈ vs, Ordered w v := by
  cases vs with
  | nil => simp [NoExtreme]
  | cons w vs =>
    rw [forall_ordered_iff,NoExtreme]
    have hlength : 2 ≤ (v::w::vs).length := by simp
    tauto

/-- The values that an extreme is looked for among: the arguments, or the items of the only one. -/
def Supplies (args xs : List Value) : Prop :=
  (∃ origin, args = [.list origin xs]) ∨ args = xs ∧ ∀ origin items, xs ≠ [.list origin items]

lemma Supplies.sequence_eq {args xs : List Value} (h : Supplies args xs) : sequence args = xs := by
  obtain ⟨origin,rfl⟩ | ⟨rfl,hne⟩ := h
  · rfl
  · unfold sequence
    split
    · next origin items => exact absurd rfl (hne origin items)
    · rfl

/-- A function that looks for an extreme, by its name and by what makes a value better. -/
inductive Finds : Text → Compare → Prop
  | min : Finds "min" .lt
  | max : Finds "max" .gt

lemma Finds.order {name : Text} {op : Compare} (h : Finds name op) : op = .lt ∨ op = .gt := by
  cases h with
  | min => exact Or.inl rfl
  | max => exact Or.inr rfl

lemma exists_finds {name : Text} (h : name ∈ [Text.ofString "min",Text.ofString "max"]) :
    ∃ op, Finds name op := by
  simp only [List.mem_cons,List.not_mem_nil,or_false] at h
  rcases h with rfl | rfl
  · exact ⟨.lt,.min⟩
  · exact ⟨.gt,.max⟩

section

variable {name : Text} {op : Compare} (h : Finds name op) {s : Scope} {es : List Expr}
  {args : List Value} (hes : evalAll s es = .ok args)

include h hes

lemma Finds.eval_call : eval s (.call name es) = (match extreme name op args with
    | .ok v => .ok v
    | .error fault => .error (.arguments name fault)) := by
  cases h with
  | min => exact Script.eval_call (f := .min) rfl hes
  | max => exact Script.eval_call (f := .max) rfl hes

lemma Finds.eval_nil (hargs : Supplies args []) :
    eval s (.call name es) = .error (.arguments name (.emptySequence name)) := by
  rw [h.eval_call hes,extreme,hargs.sequence_eq]

lemma Finds.eval_cons {v : Value} {vs : List Value} (hargs : Supplies args (v::vs)) :
    eval s (.call name es) = (match best op v vs with
      | .ok m => .ok m
      | .error fault => .error (.arguments name (.operands fault))) := by
  rw [h.eval_call hes,extreme,hargs.sequence_eq]
  cases hbest : best op v vs <;> simp only [hbest]

/-- No call fails but for the sorts of its values. -/
lemma Finds.cause {xs : List Value} (hargs : Supplies args xs) {e : Error}
    (he : eval s (.call name es) = .error e) : e.cause = .type := by
  cases xs with
  | nil =>
    rw [h.eval_nil hes hargs] at he
    obtain rfl := Except.error.inj he
    rfl
  | cons v vs =>
    rw [h.eval_cons hes hargs] at he
    cases hbest : best op v vs with
    | ok m => simp [hbest] at he
    | error fault =>
      rw [hbest] at he
      obtain rfl := Except.error.inj he
      exact cause_of_best h.order hbest

lemma Finds.fails_iff {xs : List Value} (hargs : Supplies args xs) :
    (∃ e, eval s (.call name es) = .error e) ↔ NoExtreme xs := by
  cases xs with
  | nil => simp [h.eval_nil hes hargs,NoExtreme]
  | cons v vs =>
    rw [h.eval_cons hes hargs,← not_iff_not,not_noExtreme_iff,← best_isOk h.order]
    cases best op v vs <;> simp

lemma Finds.mem {xs : List Value} (hargs : Supplies args xs) {v : Value}
    (hv : eval s (.call name es) = .ok v) : v ∈ xs := by
  cases xs with
  | nil => simp [h.eval_nil hes hargs] at hv
  | cons w vs =>
    rw [h.eval_cons hes hargs] at hv
    cases hbest : best op w vs with
    | error fault => simp [hbest] at hv
    | ok m =>
      rw [hbest] at hv
      obtain rfl := Except.ok.inj hv
      exact mem_of_best hbest

lemma Finds.texts {ts : List Text} (hts : ts ≠ []) (hargs : Supplies args (ts.map .str)) :
    ∃ m ∈ ts, eval s (.call name es) = .ok (.str m) ∧ ∀ t ∈ ts, AsGood op m t := by
  obtain ⟨t,ts,rfl⟩ := List.exists_cons_of_ne_nil hts
  obtain ⟨m,hm,hbest,hgood⟩ := best_texts h.order t ts
  refine ⟨m,hm,?_,hgood⟩
  rw [h.eval_cons hes hargs,hbest]

end

/-- Of the same texts in another order the same one is found. -/
lemma Finds.perm {name : Text} {op : Compare} (h : Finds name op) {s s' : Scope} {es es' : List Expr}
    {args args' : List Value} (hes : evalAll s es = .ok args) (hes' : evalAll s' es' = .ok args')
    {ts us : List Text} (hts : ts ≠ []) (hperm : us.Perm ts) (hargs : Supplies args (ts.map .str))
    (hargs' : Supplies args' (us.map .str)) : eval s' (.call name es') = eval s (.call name es) := by
  have hus : us ≠ [] := fun hnil => hts (hnil ▸ hperm).nil_eq.symm
  obtain ⟨m,hm,hfound,hgood⟩ := h.texts hes hts hargs
  obtain ⟨n,hn,hfound',hgood'⟩ := h.texts hes' hus hargs'
  have hsame : n = m := AsGood.antisymm h.order (hgood' m (hperm.mem_iff.mpr hm))
    (hgood n (hperm.mem_iff.mp hn))
  rw [hfound,hfound',hsame]

/-- A call that looks for an extreme fails just when there are no values, or there are several that are
neither all numbers nor all texts, and then because of their sorts. Otherwise it gives one of the values,
and of texts the one that no other comes before, or behind, in the order of bytes. In what order the texts
are given, and whether as arguments or as a list, does not matter. -/
theorem extreme_call {s : Scope} {es : List Expr} {args xs : List Value}
    (hes : evalAll s es = .ok args) (hargs : Supplies args xs) :
    (∀ name ∈ [Text.ofString "min",Text.ofString "max"],
      ((∃ e, eval s (.call name es) = .error e ∧ e.cause = .type) ↔
        xs = [] ∨ 2 ≤ xs.length ∧ (¬∀ x ∈ xs, x.IsNumber) ∧ ¬∀ x ∈ xs, x.IsText) ∧
      (∀ e, eval s (.call name es) = .error e → e.cause = .type) ∧
      (∀ v, eval s (.call name es) = .ok v → v ∈ xs) ∧
      ∀ v, xs = [v] → eval s (.call name es) = .ok v) ∧
    ∀ ts : List Text, ts ≠ [] → xs = ts.map .str →
      (∃ least ∈ ts, ∃ greatest ∈ ts, eval s (.call "min" es) = .ok (.str least) ∧
        eval s (.call "max" es) = .ok (.str greatest) ∧ ∀ t ∈ ts, least ≤ t ∧ t ≤ greatest) ∧
      ∀ (s' : Scope) (es' : List Expr) (args' : List Value) (us : List Text), us.Perm ts →
        evalAll s' es' = .ok args' → Supplies args' (us.map .str) →
        ∀ name ∈ [Text.ofString "min",Text.ofString "max"],
          eval s' (.call name es') = eval s (.call name es) := by
  refine ⟨fun name hname => ?_,?_⟩
  · obtain ⟨op,h⟩ := exists_finds hname
    refine ⟨?_,fun e => h.cause hes hargs,fun v => h.mem hes hargs,?_⟩
    · rw [← NoExtreme,← h.fails_iff hes hargs]
      exact exists_congr fun e => and_iff_left_of_imp (h.cause hes hargs)
    · rintro v rfl
      rw [h.eval_cons hes hargs,best]
  · rintro ts hts rfl
    obtain ⟨least,hleast,hmin,hle⟩ := Finds.min.texts hes hts hargs
    obtain ⟨greatest,hgreatest,hmax,hge⟩ := Finds.max.texts hes hts hargs
    refine ⟨⟨least,hleast,greatest,hgreatest,hmin,hmax,fun t ht => ?_⟩,?_⟩
    · exact ⟨asGood_lt_iff.mp (hle t ht),asGood_gt_iff.mp (hge t ht)⟩
    · intro s' es' args' us hperm hes' hargs' name hname
      obtain ⟨op,h⟩ := exists_finds hname
      exact h.perm hes hes' hts hperm hargs hargs'

/-- The cells of a row as a list, and the same texts as arguments in another order. -/
theorem extreme_call_cells :
    let s : Scope := { layout := .new [] ",", row := .ofCells ["b","","é"] }
    let cells : List Expr := [.slice none none none]
    let given : List Expr := [.string "é",.string "b",.string ""]
    evalAll s cells = .ok [.list none [.str "b",.str "",.str "é"]] ∧
      (∃ least ∈ [Text.ofString "b","","é"], eval s (.call "min" cells) = .ok (.str least) ∧
        ∀ t ∈ [Text.ofString "b","","é"], least ≤ t) ∧
      eval s (.call "min" given) = eval s (.call "min" cells) := by
  intro s cells given
  have hcells : evalAll s cells = .ok [.list none [.str "b",.str "",.str "é"]] := rfl
  have hsupplies : Supplies [.list none [.str "b",.str "",.str "é"]] [.str "b",.str "",.str "é"] :=
    Or.inl ⟨none,rfl⟩
  obtain ⟨⟨least,hleast,_,_,hmin,_,hbounds⟩,hperm⟩ :=
    (extreme_call hcells hsupplies).2 ["b","","é"] (by simp) rfl
  refine ⟨hcells,⟨least,hleast,hmin,fun t ht => (hbounds t ht).1⟩,?_⟩
  exact hperm s given [.str "é",.str "b",.str ""] ["é","b",""] (by decide) rfl
    (Or.inr ⟨rfl,fun _ _ => nofun⟩) "min" (by simp)

end Script.Function
end CellScript
