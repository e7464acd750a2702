import Mathlib
import CellScript.Proofs.Script.Alike
import CellScript.Proofs.Script.Statement
import CellScript.Proofs.Value.Flat
import CellScript.Script.Eval
import CellScript.Stream.Cause

/-! Expressions that are alike mean the same. The places of names only show up in messages, and a
column name means the position that it was exchanged for. -/
namespace CellScript

section

variable (K : Text → Int64 → Prop)

/-- The same key, or a name and a position that K allows for it. -/
def Key.Alike (k k' : Key) : Prop := k' = k ∨ ∃ n i, k = .name n ∧ k' = .index i.toInt ∧ K n i

inductive Row.Error.Alike : Row.Error → Row.Error → Prop
  | same (e : Row.Error) : Alike e e
  | unreadable {k k' : Key} (cell : Text) (kind : NumberKind) (fault : Number.Fault) :
      k.Alike K k' → Alike (.unreadable (.cell k) cell kind fault)
        (.unreadable (.cell k') cell kind fault)
  | unstorable {k k' : Key} : k.Alike K k' → Alike (.unstorable k) (.unstorable k')

/-- The same failure, whatever the place of a name and the form of a key. -/
inductive Script.Error.Alike : Script.Error → Script.Error → Prop
  | same (e : Script.Error) : Alike e e
  | unbound (name : Text) (pos pos' : Text.Position) :
      Alike (.unboundName name pos) (.unboundName name pos')
  | row {e e' : Row.Error} : e.Alike K e' → Alike (.row e) (.row e')

/-- A row in which every name stands for the position that K allows for it. -/
def Row.Swaps (l : Layout) (r : Row) : Prop :=
  ∀ n i, K n i → ∃ p : ℕ, l.resolve r.base n = .ok p ∧ i.toInt = p ∧ p < r.cells.length

end

section

variable {K : Text → Int64 → Prop} {R : Text.Position → Text.Position → Prop}

lemma Script.Error.Alike.cause {e e' : Script.Error} (h : e.Alike K e') : e'.cause = e.cause := by
  cases h with
  | same | unbound => rfl
  | row h => cases h <;> rfl

/-- A name and the position it stands for count to the same cell. -/
lemma Row.Swaps.position {l : Layout} {r : Row} (h : r.Swaps K l) {n : Text} {i : Int64}
    (hK : K n i) : ∃ p : ℕ, l.resolve r.base n = .ok p ∧ p < r.cells.length ∧
      Row.fromEnd r.cells.length i.toInt = p := by
  obtain ⟨p,hp,hi,hlt⟩ := h n i hK
  exact ⟨p,hp,hlt,by rw [hi,Row.fromEnd,if_neg (by omega)]⟩

lemma Row.Swaps.readPosition {l : Layout} {r : Row} (h : r.Swaps K l) {k k' : Key}
    (hk : k.Alike K k') : r.readPosition l k' = r.readPosition l k := by
  rcases hk with rfl | ⟨n,i,rfl,rfl,hK⟩
  · rfl
  · obtain ⟨p,hp,hlt,hend⟩ := h.position hK
    simp only [Row.readPosition,hp,hend]
    rw [if_pos ⟨by omega,by omega⟩]
    simp [Bind.bind,Except.bind,hlt]

lemma Row.Swaps.writePosition {l : Layout} {r : Row} (h : r.Swaps K l) {k k' : Key}
    (hk : k.Alike K k') : r.writePosition l k' = r.writePosition l k := by
  rcases hk with rfl | ⟨n,i,rfl,rfl,hK⟩
  · rfl
  · obtain ⟨p,hp,hlt,hend⟩ := h.position hK
    simp only [Row.writePosition,hp,hend]
    rw [if_neg (by omega),if_pos (by omega)]
    simp

lemma View.read_alike (v : View) (k k' : Key) (cell : Text) (hk : k.Alike K k') :
    Matched (Row.Error.Alike K) (Value.Alike R) (v.read (.cell k) cell)
      (v.read (.cell k') cell) := by
  cases v with
  | text =>
    refine .ok ?_
    simp only [Value.Alike]
  | int =>
    simp only [View.read]
    cases Number.readInt cell.trim with
    | ok n =>
      refine .ok ?_
      simp only [Value.Alike]
    | error fault => exact .error (.unreadable _ _ _ hk)
  | float =>
    simp only [View.read]
    cases Number.readFloat cell.trim with
    | ok n =>
      refine .ok ?_
      simp only [Value.Alike]
    | error fault => exact .error (.unreadable _ _ _ hk)

lemma View.get_alike (v : View) {l : Layout} {r : Row} (h : r.Swaps K l) {k k' : Key}
    (hk : k.Alike K k') :
    Matched (Row.Error.Alike K) (Value.Alike R) (v.get l r k) (v.get l r k') := by
  rw [View.get,View.get,Row.get,Row.get,h.readPosition hk]
  cases r.readPosition l k with
  | error e => exact .error (.same e)
  | ok p => exact v.read_alike k k' _ hk

lemma Row.set_alike {l : Layout} {r : Row} (h : r.Swaps K l) {k k' : Key} (hk : k.Alike K k')
    {v v' : Value} (hv : v.Alike R v') :
    Matched (Row.Error.Alike K) (fun a b => b = a) (r.set l k v) (r.set l k' v') := by
  rw [Row.set,Row.set,hv.seen.text,h.writePosition hk]
  cases v.text? with
  | none => exact .error (.unstorable hk)
  | some t =>
    cases r.writePosition l k with
    | error e => exact .error (.same e)
    | ok p => exact .ok rfl

/-- Storing a cell never shortens a row. -/
lemma Row.Swaps.set {l : Layout} {r r' : Row} (h : r.Swaps K l) {k : Key} {v : Value}
    (hr : r.set l k v = .ok r') : r'.Swaps K l := by
  rw [Row.set] at hr
  cases ht : v.text? with
  | none => simp [ht] at hr
  | some t =>
    rw [ht] at hr
    cases hp : r.writePosition l k with
    | error e => simp [hp,Bind.bind,Except.bind] at hr
    | ok p =>
      simp only [hp,Bind.bind,Except.bind,Pure.pure,Except.pure,Except.ok.injEq] at hr
      subst hr
      intro n i hK
      obtain ⟨q,hq,hi,hlt⟩ := h n i hK
      refine ⟨q,hq,hi,?_⟩
      simp only [Row.pad,List.length_set,List.length_append,List.length_replicate]
      omega

namespace Script

open Value (AllAlike Plain)

lemma allAlike_single {v : Value} {ws : List Value} (h : AllAlike R [v] ws) :
    ∃ w, ws = [w] ∧ v.Alike R w := by
  simp only [AllAlike] at h
  obtain ⟨w,_,rfl,hvw,rfl⟩ := h
  exact ⟨w,rfl,hvw⟩

namespace Function

lemma single_alike {vs ws : List Value} (h : AllAlike R vs ws) :
    Matched Eq (Value.Alike R) (single vs) (single ws) := by
  match vs with
  | [] =>
    simp only [AllAlike] at h
    subst h
    exact .error rfl
  | [v] =>
    obtain ⟨w,rfl,hvw⟩ := allAlike_single h
    exact .ok hvw
  | u::v::vs =>
    simp only [AllAlike] at h
    obtain ⟨u',_,rfl,-,v',vs',rfl,-,hvs⟩ := h
    simp only [single,List.length_cons,hvs.length_eq]
    exact .error rfl

/-- A function of one value that cannot see the places of lists. -/
def Blind (f : Value → Except ArgumentFault Value) : Prop :=
  ∀ (R : Text.Position → Text.Position → Prop) (v w : Value), v.Alike R w →
    Matched Eq (Value.Alike R) (f v) (f w)

/-- It is enough that no list comes out of a value that is none, and that lists of one length and
look give the same. -/
lemma blind_of_plain {f : Value → Except ArgumentFault Value}
    (hp : ∀ v u, f v = .ok u → u.Plain)
    (hl : ∀ o p xs ys, List.length ys = List.length xs →
      (Value.list p ys).shown = (Value.list o xs).shown → f (.list p ys) = f (.list o xs)) :
    Blind f := by
  intro R v w h
  have hsame : f w = f v := by
    by_cases hv : v.Plain
    · rw [hv.eq_of_alike h]
    · obtain ⟨o,xs,rfl⟩ := Value.exists_list hv
      have hshown := Value.Alike.shown _ h
      simp only [Value.Alike] at h
      obtain ⟨p,ys,rfl,-,hys⟩ := h
      exact hl o p xs ys hys.length_eq hshown
  rw [hsame]
  cases hf : f v with
  | error e => exact .error rfl
  | ok u => exact .ok (hp v u hf).alike

lemma plain_of_length {v u : Value} (h : length v = .ok u) : u.Plain := by
  cases v <;> simp only [length,Except.ok.injEq,reduceCtorEq] at h <;> subst h <;>
    simp

lemma plain_of_toText {v u : Value} (h : toText v = .ok u) : u.Plain := by
  unfold toText at h
  split at h
  · simp only [Except.ok.injEq] at h
    subst h
    simp
  · split at h
    · simp only [Except.ok.injEq] at h
      subst h
      simp
    · simp at h

lemma plain_of_toInt {v u : Value} (h : toInt v = .ok u) : u.Plain := by
  unfold toInt at h
  split at h
  case h_4 =>
    split at h
    · simp only [Except.ok.injEq] at h
      subst h
      simp
    · simp at h
  all_goals
    simp only [Except.ok.injEq,reduceCtorEq] at h <;> subst h <;> simp

lemma plain_of_toFloat {v u : Value} (h : toFloat v = .ok u) : u.Plain := by
  unfold toFloat at h
  split at h
  case h_3 =>
    split at h
    · simp only [Except.ok.injEq] at h
      subst h
      simp
    · simp at h
  all_goals
    simp only [Except.ok.injEq,reduceCtorEq] at h <;> subst h <;> simp

lemma plain_of_magnitude {v u : Value} (h : magnitude v = .ok u) : u.Plain := by
  cases v <;> simp only [magnitude,Except.ok.injEq,reduceCtorEq] at h <;> subst h <;>
    simp

lemma plain_of_rounded {places : Option Int64} {v u : Value} (h : rounded places v = .ok u) :
    u.Plain := by
  cases v <;> cases places <;> simp only [rounded,Except.ok.injEq,reduceCtorEq] at h <;>
    subst h <;> simp

lemma blind_length : Blind length := by
  refine blind_of_plain (fun _ _ => plain_of_length) ?_
  intro o p xs ys hlen _
  simp only [length,hlen]

lemma blind_toText : Blind toText := by
  refine blind_of_plain (fun _ _ => plain_of_toText) ?_
  intro o p xs ys _ hshown
  simp only [toText,Value.text?,hshown]

lemma blind_toInt : Blind toInt :=
  blind_of_plain (fun _ _ => plain_of_toInt) fun _ _ _ _ _ _ => rfl

lemma blind_toFloat : Blind toFloat :=
  blind_of_plain (fun _ _ => plain_of_toFloat) fun _ _ _ _ _ _ => rfl

lemma blind_magnitude : Blind magnitude :=
  blind_of_plain (fun _ _ => plain_of_magnitude) fun _ _ _ _ _ _ => rfl

lemma blind_rounded (places : Option Int64) : Blind (rounded places) :=
  blind_of_plain (fun _ _ => plain_of_rounded) fun _ _ _ _ _ _ => rfl

lemma Blind.apply {f : Value → Except ArgumentFault Value} (hf : Blind f) {vs ws : List Value}
    (h : AllAlike R vs ws) :
    Matched Eq (Value.Alike R) (single vs >>= f) (single ws >>= f) :=
  (single_alike h).bind fun a b hab => hf R a b hab

lemma onText_alike (name : Text) (f : Text → Text) {vs ws : List Value} (h : AllAlike R vs ws) :
    Matched Eq (Value.Alike R) (onText name f vs) (onText name f ws) := by
  unfold onText
  refine Blind.apply (blind_of_plain ?_ ?_) h
  · intro v u h
    cases v with
    | str t =>
      simp only [Except.ok.injEq] at h
      subst h
      simp
    | _ => simp at h
  · intros
    rfl

lemma roundArgs_alike {vs ws : List Value} (h : AllAlike R vs ws) :
    Matched Eq (Value.Alike R) (roundArgs vs) (roundArgs ws) := by
  match vs with
  | [] =>
    simp only [AllAlike] at h
    subst h
    exact .error rfl
  | [v] =>
    obtain ⟨w,rfl,hvw⟩ := allAlike_single h
    exact blind_rounded none R v w hvw
  | [v,p] =>
    simp only [AllAlike] at h
    obtain ⟨w,_,rfl,hvw,q,_,rfl,hpq,rfl⟩ := h
    by_cases hp : ∃ n, p = .int n
    · obtain ⟨n,rfl⟩ := hp
      simp only [Value.Alike] at hpq
      subst hpq
      exact blind_rounded (some n) R v w hvw
    · have hq : ¬ ∃ n, q = .int n := by
        rintro ⟨n,rfl⟩
        have hk := hpq.seen.kind
        cases p <;> simp [Value.kind] at hk
        exact hp ⟨_,rfl⟩
      have herror : ∀ v p : Value, (¬ ∃ n, p = .int n) → roundArgs [v,p] = .error (.places p.kind) := by
        intro v p hp
        cases p <;> first | rfl | exact absurd ⟨_,rfl⟩ hp
      rw [herror v p hp,herror w q hq,hpq.seen.kind]
      exact .error rfl
  | u::v::w::vs =>
    simp only [AllAlike] at h
    obtain ⟨u',_,rfl,-,v',_,rfl,-,w',vs',rfl,-,hvs⟩ := h
    simp only [roundArgs,List.length_cons,hvs.length_eq]
    exact .error rfl

lemma sequence_alike {vs ws : List Value} (h : AllAlike R vs ws) :
    AllAlike R (sequence vs) (sequence ws) := by
  match vs with
  | [] =>
    simp only [AllAlike] at h
    subst h
    simp only [sequence,AllAlike]
  | [v] =>
    have h' := h
    obtain ⟨w,rfl,hvw⟩ := allAlike_single h
    by_cases hv : v.Plain
    · have hw := hvw.plain hv
      have hself : ∀ u : Value, u.Plain → sequence [u] = [u] := by
        intro u hu
        cases u with
        | list o xs => exact absurd rfl hu
        | _ => rfl
      rw [hself v hv,hself w hw]
      exact h'
    · obtain ⟨o,xs,rfl⟩ := Value.exists_list hv
      simp only [Value.Alike] at hvw
      obtain ⟨p,ys,rfl,-,hys⟩ := hvw
      exact hys
  | u::v::vs =>
    have h' := h
    simp only [AllAlike] at h
    obtain ⟨u',_,rfl,-,v',vs',rfl,-,-⟩ := h
    simpa only [sequence] using h'

lemma best_alike (hR : Value.OneToOne R) (op : Compare) {v w : Value} (hvw : v.Alike R w)
    {vs ws : List Value} (h : AllAlike R vs ws) :
    Matched Eq (Value.Alike R) (best op v vs) (best op w ws) := by
  induction vs generalizing v w ws with
  | nil =>
    simp only [AllAlike] at h
    subst h
    exact .ok hvw
  | cons x vs ih =>
    simp only [AllAlike] at h
    obtain ⟨y,ws,rfl,hxy,hvs⟩ := h
    rw [best,best,hxy.compare hR op hvw]
    cases Value.compare op x v with
    | error e => exact .error rfl
    | ok better =>
      cases better with
      | true => exact ih hxy hvs
      | false => exact ih hvw hvs

lemma extreme_alike (hR : Value.OneToOne R) (name : Text) (op : Compare) {vs ws : List Value}
    (h : AllAlike R vs ws) :
    Matched Eq (Value.Alike R) (extreme name op vs) (extreme name op ws) := by
  have hs := sequence_alike h
  rw [extreme,extreme]
  cases hx : sequence vs with
  | nil =>
    rw [hx] at hs
    simp only [AllAlike] at hs
    rw [hs]
    exact .error rfl
  | cons x xs =>
    rw [hx] at hs
    simp only [AllAlike] at hs
    obtain ⟨y,ys,hy,hxy,hys⟩ := hs
    rw [hy]
    have hb := best_alike hR op hxy hys
    dsimp only
    generalize best op x xs = a at hb
    generalize best op y ys = b at hb
    cases hb with
    | ok hab => exact .ok hab
    | error he =>
      subst he
      exact .error rfl

/-- No function can see the places of lists. -/
theorem apply_alike (hR : Value.OneToOne R) (f : Function) {vs ws : List Value}
    (h : AllAlike R vs ws) : Matched Eq (Value.Alike R) (f.apply vs) (f.apply ws) := by
  cases f with
  | len => exact blind_length.apply h
  | str => exact blind_toText.apply h
  | int => exact blind_toInt.apply h
  | float => exact blind_toFloat.apply h
  | abs => exact blind_magnitude.apply h
  | round => exact roundArgs_alike h
  | min => exact extreme_alike hR _ _ h
  | max => exact extreme_alike hR _ _ h
  | upper => exact onText_alike _ _ h
  | lower => exact onText_alike _ _ h
  | strip => exact onText_alike _ _ h

end Function

section

variable (K : Text → Int64 → Prop) (R : Text.Position → Text.Position → Prop)

/-- Scopes of one layout with the same row, and with variables that are alike. -/
structure Scope.Alike (l : Layout) (s s' : Scope) : Prop where
  left : s.layout = l
  right : s'.layout = l
  row : s'.row = s.row
  swaps : s.row.Swaps K l
  vars : List.Forall₂ (fun a b => b.1 = a.1 ∧ Value.Alike R a.2 b.2) s.vars s'.vars

end

variable {l : Layout}

lemma Scope.Alike.lookup? {s s' : Scope} (h : s.Alike K R l s') (name : Text) :
    Option.Rel (Value.Alike R) (s.lookup? name) (s'.lookup? name) := by
  have hv := h.vars
  simp only [Scope.lookup?]
  generalize s.vars = vs at hv
  generalize s'.vars = ws at hv
  induction hv with
  | nil => exact .none
  | @cons a b vs ws hab _ ih =>
    rw [List.find?_cons,List.find?_cons,hab.1]
    cases a.1 == name with
    | true => exact .some hab.2
    | false => exact ih

lemma ofOperands_alike {α : Type} {P : α → α → Prop} {x y : Except Value.Fault α}
    (h : Matched Eq P x y) : Matched (Error.Alike K) P (ofOperands x) (ofOperands y) := by
  cases h with
  | ok h => exact .ok h
  | error h =>
    subst h
    exact .error (.same _)

lemma ofRow_alike {α : Type} {P : α → α → Prop} {x y : Except Row.Error α}
    (h : Matched (Row.Error.Alike K) P x y) : Matched (Error.Alike K) P (ofRow x) (ofRow y) := by
  cases h with
  | ok h => exact .ok h
  | error h => exact .error (.row h)

lemma applyFunction_alike (hR : Value.OneToOne R) (name : Text) (f : Function)
    {vs ws : List Value} (h : AllAlike R vs ws) :
    Matched (Error.Alike K) (Value.Alike R) (applyFunction name f vs) (applyFunction name f ws) := by
  have ha := f.apply_alike hR h
  rw [applyFunction,applyFunction]
  generalize f.apply vs = x at ha
  generalize f.apply ws = y at ha
  cases ha with
  | ok h => exact .ok h
  | error h =>
    subst h
    exact .error (.same _)

lemma keyOf_alike {v w : Value} (h : v.Alike R w) :
    Matched (Error.Alike K) (Key.Alike K) (keyOf v) (keyOf w) := by
  by_cases hv : v.Plain
  · rw [hv.eq_of_alike h]
    exact matched_refl (P := Key.Alike K) Error.Alike.same (fun _ => Or.inl rfl) _
  · obtain ⟨o,xs,rfl⟩ := Value.exists_list hv
    simp only [Value.Alike] at h
    obtain ⟨p,ys,rfl,-⟩ := h
    exact .error (.same _)

lemma boundOf_alike {v w : Value} (h : v.Alike R w) :
    Matched (Error.Alike K) Eq (boundOf v) (boundOf w) := by
  by_cases hv : v.Plain
  · rw [hv.eq_of_alike h]
    exact matched_refl Error.Alike.same (fun _ => rfl) _
  · obtain ⟨o,xs,rfl⟩ := Value.exists_list hv
    simp only [Value.Alike] at h
    obtain ⟨p,ys,rfl,-⟩ := h
    exact .error (.same _)

lemma allAlike_of_plain {vs : List Value} (h : ∀ v ∈ vs, v.Plain) : AllAlike R vs vs := by
  induction vs with
  | nil => simp only [AllAlike]
  | cons v vs ih =>
    simp only [AllAlike]
    exact ⟨v,vs,rfl,(h v (by simp)).alike,ih fun x hx => h x (by simp [hx])⟩

lemma View.isItem_of_read {v : View} {source : Row.Source} {cell : Text} {u : Value}
    (h : v.read source cell = .ok u) : u.isItem = true := by
  cases v with
  | text =>
    simp only [View.read,Except.ok.injEq] at h
    subst h
    rfl
  | int | float =>
    simp only [View.read] at h
    split at h
    · simp only [Except.ok.injEq] at h
      subst h
      rfl
    · simp at h

lemma View.isItem_of_slice {v : View} {cells : List Text} {us : List Value}
    (h : cells.mapM (v.read .slice) = .ok us) : ∀ u ∈ us, u.isItem = true := by
  rw [mapM_eq_ok_iff] at h
  induction h with
  | nil => simp
  | cons hc _ ih =>
    intro x hx
    rcases List.mem_cons.mp hx with rfl | hx
    · exact View.isItem_of_read hc
    · exact ih x hx

mutual

/-- Expressions that are alike have values that are alike. -/
theorem eval_alike (hR : Value.OneToOne R) {s s' : Scope} (hs : s.Alike K R l s') :
    ∀ (e : Expr) {e' : Expr}, e.Alike K e' →
      Matched (Error.Alike K) (Value.Alike R) (eval s e) (eval s' e')
  | .or a b,_,h => by
    simp only [Expr.Alike] at h
    obtain ⟨a',b',rfl,ha,hb⟩ := h
    rw [eval,eval]
    refine (eval_alike hR hs a ha).bind fun v w hvw => ?_
    rw [hvw.seen.truthy]
    cases v.truthy with
    | true => exact .ok hvw
    | false => exact eval_alike hR hs b hb
  | .and a b,_,h => by
    simp only [Expr.Alike] at h
    obtain ⟨a',b',rfl,ha,hb⟩ := h
    rw [eval,eval]
    refine (eval_alike hR hs a ha).bind fun v w hvw => ?_
    rw [hvw.seen.truthy]
    cases v.truthy with
    | true => exact eval_alike hR hs b hb
    | false => exact .ok hvw
  | .not a,_,h => by
    simp only [Expr.Alike] at h
    obtain ⟨a',rfl,ha⟩ := h
    rw [eval,eval]
    refine (eval_alike hR hs a ha).bind fun v w hvw => ?_
    rw [hvw.seen.truthy]
    refine .ok ?_
    simp only [Value.Alike]
  | .compare op a b,_,h => by
    simp only [Expr.Alike] at h
    obtain ⟨a',b',rfl,ha,hb⟩ := h
    rw [eval,eval]
    refine (eval_alike hR hs a ha).bind fun v w hvw => ?_
    refine (eval_alike hR hs b hb).bind fun x y hxy => ?_
    rw [hvw.compare hR op hxy]
    refine matched_bind Error.Alike.same _ fun p => .ok ?_
    simp only [Value.Alike]
  | .arith op a b,_,h => by
    simp only [Expr.Alike] at h
    obtain ⟨a',b',rfl,ha,hb⟩ := h
    rw [eval,eval]
    refine (eval_alike hR hs a ha).bind fun v w hvw => ?_
    refine (eval_alike hR hs b hb).bind fun x y hxy => ?_
    exact ofOperands_alike (hvw.arith op hxy)
  | .signed op a,_,h => by
    simp only [Expr.Alike] at h
    obtain ⟨a',rfl,ha⟩ := h
    rw [eval,eval]
    exact (eval_alike hR hs a ha).bind fun v w hvw => ofOperands_alike (hvw.signed op)
  | .float x,_,h | .int n,_,h | .string t,_,h | .bool b,_,h | .nil,_,h => by
    simp only [Expr.Alike] at h
    subst h
    rw [eval,eval]
    refine .ok ?_
    simp only [Value.Alike]
  | .cell view key,_,h => by
    simp only [Expr.Alike] at h
    obtain ⟨key',rfl,hk⟩ := h
    rw [eval,eval]
    refine matched_bind Error.Alike.same _ fun v => ?_
    have hkey : Matched (Error.Alike K) (Key.Alike K) (evalKey s key) (evalKey s' key') := by
      rcases hk with hk | ⟨n,i,rfl,rfl,hK⟩
      · exact evalKey_alike hR hs key hk
      · exact .ok (Or.inr ⟨n,i,rfl,rfl,hK⟩)
    refine hkey.bind fun k k' hkk => ?_
    rw [hs.left,hs.right,hs.row]
    exact ofRow_alike (v.get_alike hs.swaps hkk)
  | .slice view lo hi,_,h => by
    simp only [Expr.Alike] at h
    obtain ⟨lo',hi',rfl,hl,hh⟩ := h
    rw [eval,eval]
    refine matched_bind Error.Alike.same _ fun v => ?_
    refine (evalBound_alike hR hs lo hl).bind fun l l' hll => ?_
    subst hll
    refine (evalBound_alike hR hs hi hh).bind fun h h' hhh => ?_
    subst hhh
    rw [hs.row]
    cases hx : v.slice s.row l h with
    | error e => exact .error (.same _)
    | ok us =>
      refine .ok ?_
      simp only [Value.Alike]
      exact ⟨none,us,rfl,.none,
        allAlike_of_plain fun u hu => Value.plain_of_isItem (View.isItem_of_slice hx u hu)⟩
  | .call f args,_,h => by
    simp only [Expr.Alike] at h
    obtain ⟨args',rfl,ha⟩ := h
    rw [eval,eval]
    cases Function.ofName? f with
    | none => exact .error (.same _)
    | some g =>
      refine (evalAll_alike hR hs args ha).bind fun vs ws hvw => ?_
      exact applyFunction_alike hR f g hvw
  | .var n p,_,h => by
    simp only [Expr.Alike] at h
    obtain ⟨q,rfl⟩ := h
    rw [eval,eval]
    have hl := hs.lookup? n
    generalize s.lookup? n = x at hl
    generalize s'.lookup? n = y at hl
    cases hl with
    | none => exact .error (.unbound n p q)
    | some h => exact .ok h
  | .paren a,_,h => by
    simp only [Expr.Alike] at h
    obtain ⟨a',rfl,ha⟩ := h
    rw [eval,eval]
    exact eval_alike hR hs a ha

lemma evalKey_alike (hR : Value.OneToOne R) {s s' : Scope} (hs : s.Alike K R l s') :
    ∀ (o : Option Expr) {o' : Option Expr}, OptionAlike K o o' →
      Matched (Error.Alike K) (Key.Alike K) (evalKey s o) (evalKey s' o')
  | none,_,h => by
    simp only [OptionAlike] at h
    subst h
    exact .error (.same _)
  | some e,_,h => by
    simp only [OptionAlike] at h
    obtain ⟨e',rfl,he⟩ := h
    rw [evalKey,evalKey]
    exact (eval_alike hR hs e he).bind fun v w hvw => keyOf_alike hvw

lemma evalBound_alike (hR : Value.OneToOne R) {s s' : Scope} (hs : s.Alike K R l s') :
    ∀ (o : Option Expr) {o' : Option Expr}, OptionAlike K o o' →
      Matched (Error.Alike K) Eq (evalBound s o) (evalBound s' o')
  | none,_,h => by
    simp only [OptionAlike] at h
    subst h
    exact .ok rfl
  | some e,_,h => by
    simp only [OptionAlike] at h
    obtain ⟨e',rfl,he⟩ := h
    rw [evalBound,evalBound]
    refine (eval_alike hR hs e he).bind fun v w hvw => ?_
    refine (boundOf_alike hvw).bind fun p q hpq => ?_
    subst hpq
    exact .ok rfl

lemma evalAll_alike (hR : Value.OneToOne R) {s s' : Scope} (hs : s.Alike K R l s') :
    ∀ (es : List Expr) {es' : List Expr}, ListAlike K es es' →
      Matched (Error.Alike K) (AllAlike R) (evalAll s es) (evalAll s' es')
  | [],_,h => by
    simp only [ListAlike] at h
    subst h
    refine .ok ?_
    simp only [AllAlike]
  | e::es,_,h => by
    simp only [ListAlike] at h
    obtain ⟨e',es',rfl,he,hes⟩ := h
    rw [evalAll,evalAll]
    refine (eval_alike hR hs e he).bind fun v w hvw => ?_
    refine (evalAll_alike hR hs es hes).bind fun vs ws hvs => ?_
    refine .ok ?_
    simp only [AllAlike]
    exact ⟨w,ws,rfl,hvw,hvs⟩

end

section

variable (K : Text → Int64 → Prop) (R : Text.Position → Text.Position → Prop)

/-- The key of a cell, or a position in place of its name. -/
def KeyAlike (key key' : Option Expr) : Prop :=
  OptionAlike K key key' ∨ ∃ n i, key = some (.string n) ∧ key' = some (.int i) ∧ K n i

/-- Statements of one form with expressions that are alike, at corresponding places. -/
inductive Statement.Alike : Statement → Statement → Prop
  | eval {e e' : Expr} : e.Alike K e' → Alike (.eval e) (.eval e')
  | bind {p p' : Text.Position} {e e' : Expr} (name : Text) : R p p' → e.Alike K e' →
      Alike (.bind p name e) (.bind p' name e')
  | store {key key' : Option Expr} {e e' : Expr} (view : Option Text) : KeyAlike K key key' →
      e.Alike K e' → Alike (.store view key e) (.store view key' e')

end

lemma evalKey_of_keyAlike (hR : Value.OneToOne R) {s s' : Scope} (hs : s.Alike K R l s')
    {key key' : Option Expr} (hk : KeyAlike K key key') :
    Matched (Error.Alike K) (Key.Alike K) (evalKey s key) (evalKey s' key') := by
  rcases hk with hk | ⟨n,i,rfl,rfl,hK⟩
  · exact evalKey_alike hR hs key hk
  · exact .ok (Or.inr ⟨n,i,rfl,rfl,hK⟩)

lemma bindAt_alike {p p' : Text.Position} (hp : R p p') {v w : Value} (h : v.Alike R w) :
    (v.bindAt p).Alike R (w.bindAt p') := by
  by_cases hv : v.Plain
  · have hself : ∀ q, v.bindAt q = v := by
      intro q
      cases v with
      | list o xs => exact absurd rfl hv
      | _ => rfl
    rw [hv.eq_of_alike h,hself,hself]
    exact hv.alike
  · obtain ⟨o,xs,rfl⟩ := Value.exists_list hv
    simp only [Value.Alike] at h
    obtain ⟨o',ys,rfl,ho,hys⟩ := h
    cases ho with
    | none =>
      simp only [Value.bindAt,Value.Alike]
      exact ⟨some p',ys,rfl,.some hp,hys⟩
    | some h =>
      simp only [Value.bindAt,Value.Alike]
      exact ⟨_,ys,rfl,.some h,hys⟩

/-- One statement keeps scopes alike. -/
theorem exec_alike (hR : Value.OneToOne R) {s s' : Scope} (hs : s.Alike K R l s')
    {st st' : Statement} (h : st.Alike K R st') :
    Matched (Error.Alike K) (Scope.Alike K R l) (exec s st) (exec s' st') := by
  cases h with
  | eval he =>
    rw [exec,exec]
    exact (eval_alike hR hs _ he).bind fun _ _ _ => .ok hs
  | bind name hp he =>
    rw [exec,exec]
    refine (eval_alike hR hs _ he).bind fun v w hvw => .ok ?_
    exact ⟨hs.left,hs.right,hs.row,hs.swaps,.cons ⟨rfl,bindAt_alike hp hvw⟩ hs.vars⟩
  | @store key key' e e' view hk he =>
    rw [exec,exec]
    refine (eval_alike hR hs _ he).bind fun v w hvw => ?_
    refine matched_bind Error.Alike.same _ fun _ => ?_
    refine (evalKey_of_keyAlike hR hs hk).bind fun k k' hkk => ?_
    have hset := Row.set_alike hs.swaps hkk hvw
    rw [hs.left,hs.right,hs.row]
    generalize s.row.set l k' w = y at hset
    cases hr : s.row.set l k v with
    | error e₁ =>
      rw [hr] at hset
      cases hset with
      | error h => exact .error (.row h)
    | ok r =>
      rw [hr] at hset
      cases hset with
      | ok h =>
        subst h
        exact .ok ⟨rfl,rfl,rfl,hs.swaps.set hr,hs.vars⟩

/-- Statements that are alike keep scopes alike, with the same failure if any. -/
theorem execAll_alike (hR : Value.OneToOne R) {sts sts' : List Statement}
    (h : List.Forall₂ (Statement.Alike K R) sts sts') {s s' : Scope} (hs : s.Alike K R l s') :
    (execAll s sts).1.Alike K R l (execAll s' sts').1 ∧
      Matched (Error.Alike K) Eq (execAll s sts).2 (execAll s' sts').2 :=
  execAll_matched (fun _ _ _ _ hs h => exec_alike hR hs h) h hs

end Script

end

end CellScript
