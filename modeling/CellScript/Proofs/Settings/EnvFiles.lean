import Mathlib
import CellScript.Proofs.Result
import CellScript.Settings.Machine

/-! The environment behind the files of variables. A variable that was set keeps its value, and every
other one has the value of the last file that gives it one, in whatever order the variables of a file
are set. -/
namespace CellScript.Settings

open Dotenv (Vars)

abbrev Values := Text → Option Text

/-- A list goes through the variables of a file in some order, each of them once. -/
structure Lists (vars : Vars) (values : Values) : Prop where
  nodup : (vars.map (·.1)).Nodup
  get? : ∀ name, vars.get? name = values name

/-- The value that the environment takes for a name from a file, if there is a file. -/
def supplied? (file : Option Values) (name : Text) : Option Text :=
  (file.bind (· name)).filter fun value => settable (name,value)

/-- The environment after files have been gone through in the given orders, with the names that were
preset left alone. -/
def addFiles (preset : Text → Bool) (env : Vars) (orders : List (Option Vars)) : Vars :=
  orders.foldl (fun now order => (order.map (addVars preset now)).getD now) env

/-- The machine after its files of variables have been gone through in the given orders. -/
def Machine.loadInOrder (m : Machine) (orders : List (Option Vars)) : Machine :=
  { m with env := addFiles (fun name => (m.env.get? name).isSome) m.env orders }

/-- The files of variables of a machine as they are parsed: there is none, or it cannot be parsed, or
it holds some values. -/
def Machine.envValues (m : Machine) (parse : Text → Option Values) : List (Option Values) :=
  envFiles.map fun name => (m.file? name).bind parse

def Dotenv.values? (content : Text) : Option Values := (Dotenv.read content).toOption.map Vars.get?

namespace Dotenv.Vars

lemma get?_cons (v : Text × Text) (vars : Vars) (name : Text) :
    get? (v::vars) name = if v.1 = name then some v.2 else vars.get? name := by
  by_cases h : v.1 = name <;> simp [get?,h]

lemma get?_eq_none_iff {vars : Vars} {name : Text} :
    vars.get? name = none ↔ name ∉ vars.map (·.1) := by
  induction vars with
  | nil => simp [get?]
  | cons v vars ih =>
    rw [get?_cons,List.map_cons,List.mem_cons,not_or,← ih]
    by_cases h : v.1 = name
    · simp [h]
    · simp [h,Ne.symm h]

/-- Of a name that is there the value is replaced, and no other name is touched. -/
lemma get?_replace (vars : Vars) (name value other : Text) :
    get? (vars.map fun v => if v.1 == name then (name,value) else v) other =
      if other = name then (vars.get? name).map fun _ => value else vars.get? other := by
  induction vars with
  | nil => simp [get?]
  | cons v vars ih =>
    rw [List.map_cons,get?_cons,get?_cons,get?_cons,ih]
    by_cases hv : v.1 = name
    · subst hv
      by_cases ho : v.1 = other
      · simp [ho]
      · simp [ho,Ne.symm ho]
    · by_cases ho : v.1 = other
      · subst ho
        simp [hv]
      · simp [hv,ho]

lemma get?_append (vars more : Vars) (name : Text) :
    get? (vars ++ more) name = (vars.get? name).or (more.get? name) := by
  induction vars with
  | nil => simp [get?]
  | cons v vars ih =>
    rw [List.cons_append,get?_cons,get?_cons,ih]
    by_cases h : v.1 = name <;> simp [h]

lemma get?_put (vars : Vars) (name value other : Text) :
    (vars.put name value).get? other = if other = name then some value else vars.get? other := by
  have hany : (vars.any fun v => v.1 == name) = true ↔ name ∈ vars.map (·.1) := by simp
  rw [put]
  by_cases h : name ∈ vars.map (·.1)
  · rw [if_pos (hany.mpr h),get?_replace]
    obtain ⟨old,hold⟩ := Option.ne_none_iff_exists'.mp (mt get?_eq_none_iff.mp (not_not.mpr h))
    rw [hold]
    rfl
  · rw [if_neg (mt hany.mp h),get?_append,get?_cons]
    by_cases ho : other = name
    · rw [if_pos ho,if_pos ho.symm,ho,get?_eq_none_iff.mpr h]
      rfl
    · rw [if_neg ho,if_neg (Ne.symm ho)]
      simp [get?]

/-- Setting a variable gives no name a second place. -/
lemma nodup_put {vars : Vars} (h : (vars.map (·.1)).Nodup) (name value : Text) :
    ((vars.put name value).map (·.1)).Nodup := by
  have hsame : (vars.map fun v => if v.1 == name then (name,value) else v).map (·.1) =
      vars.map (·.1) := by
    rw [List.map_map]
    refine List.map_congr_left fun v _ => ?_
    by_cases hv : v.1 = name <;> simp [hv]
  rw [put]
  split
  · rwa [hsame]
  · next hany =>
    have hnew : name ∉ vars.map (·.1) := by simpa using hany
    rw [List.map_append]
    refine h.append (by simp) ?_
    simpa [List.disjoint_singleton] using hnew

lemma get?_eq_some_iff {vars : Vars} (h : (vars.map (·.1)).Nodup) {name value : Text} :
    vars.get? name = some value ↔ (name,value) ∈ vars := by
  induction vars with
  | nil => simp [get?]
  | cons v vars ih =>
    rw [List.map_cons,List.nodup_cons] at h
    rw [get?_cons,List.mem_cons,Prod.ext_iff]
    by_cases hv : v.1 = name
    · subst hv
      have hnot : (v.1,value) ∉ vars := fun hm => h.1 (List.mem_map.mpr ⟨_,hm,rfl⟩)
      simp [hnot,eq_comm]
    · simp [hv,Ne.symm hv,ih h.2]

/-- Of the variables that are kept each still has its value. -/
lemma get?_filter {vars : Vars} (h : (vars.map (·.1)).Nodup) (p : Text × Text → Bool) (name : Text) :
    get? (vars.filter p) name = (vars.get? name).filter fun value => p (name,value) := by
  induction vars with
  | nil => simp [get?]
  | cons v vars ih =>
    rw [List.map_cons,List.nodup_cons] at h
    rw [get?_cons,List.filter_cons]
    by_cases hv : v.1 = name
    · subst hv
      by_cases hp : p v = true
      · simp [get?_cons,hp,Option.filter]
      · simp [hp,ih h.2,get?_eq_none_iff.mpr h.1,Option.filter]
    · by_cases hp : p v = true <;> simp [get?_cons,hp,hv,ih h.2]

/-- Where each name is set once, the order in which they are set does not matter. -/
lemma get?_foldl_put {vars : Vars} (h : (vars.map (·.1)).Nodup) (env : Vars) (name : Text) :
    get? (vars.foldl (fun env v => env.put v.1 v.2) env) name = (vars.get? name).or (env.get? name) := by
  induction vars generalizing env with
  | nil => simp [get?]
  | cons v vars ih =>
    rw [List.map_cons,List.nodup_cons] at h
    rw [List.foldl_cons,ih h.2,get?_put,get?_cons]
    by_cases hv : v.1 = name
    · subst hv
      simp [get?_eq_none_iff.mpr h.1]
    · simp [hv,Ne.symm hv]

end Dotenv.Vars

lemma Lists.of_perm {vars other : Vars} {values : Values} (h : Lists vars values)
    (hp : vars.Perm other) : Lists other values := by
  have hn : (other.map (·.1)).Nodup := (hp.map (·.1)).nodup_iff.mp h.nodup
  refine ⟨hn,fun name => ?_⟩
  rw [← h.get? name]
  refine Option.ext fun value => ?_
  rw [Vars.get?_eq_some_iff hn,Vars.get?_eq_some_iff h.nodup,hp.mem_iff]

lemma lists_reversed {orders : List (Option Vars)} {files : List (Option Values)}
    (h : List.Forall₂ (Option.Rel Lists) orders files) :
    List.Forall₂ (Option.Rel Lists) (orders.map (·.map List.reverse)) files := by
  rw [List.forall₂_map_left_iff]
  refine h.imp fun order file ho => ?_
  cases ho with
  | none => exact .none
  | some hl => exact .some (hl.of_perm (List.reverse_perm _).symm)

/-- What a file adds: each name that was not preset has the value that the environment takes for it. -/
lemma Lists.get?_addVars {vars : Vars} {values : Values} (h : Lists vars values)
    (preset : Text → Bool) (env : Vars) (name : Text) :
    (addVars preset env vars).get? name =
      (if preset name then none else supplied? (some values) name).or (env.get? name) := by
  have hn : ((vars.filter fun v => settable v && !preset v.1).map (·.1)).Nodup :=
    h.nodup.sublist (List.filter_sublist.map _)
  rw [addVars,Vars.get?_foldl_put hn,Vars.get?_filter h.nodup,h.get? name]
  cases hp : preset name <;> simp [supplied?,hp]

/-- A file whose values are all preset adds nothing. -/
lemma Lists.addVars_eq {vars : Vars} {values : Values} (h : Lists vars values) {preset : Text → Bool}
    (hp : ∀ name, (supplied? (some values) name).isSome = true → preset name = true) (env : Vars) :
    addVars preset env vars = env := by
  have hnil : (vars.filter fun v => settable v && !preset v.1) = [] := by
    rw [List.filter_eq_nil_iff]
    rintro ⟨name,value⟩ hv
    have hvalue : values name = some value := by
      rw [← h.get? name]
      exact (Vars.get?_eq_some_iff h.nodup).mpr hv
    by_cases hs : settable (name,value) = true
    · simp [hp name (by simp [supplied?,hvalue,hs])]
    · simp [hs]
  rw [addVars,hnil,List.foldl_nil]

variable {files : List (Option Values)} {orders : List (Option Vars)}

/-- What the files add: each name that was not preset has the value of the last file that the
environment takes one from. -/
theorem get?_addFiles (h : List.Forall₂ (Option.Rel Lists) orders files) (preset : Text → Bool)
    (env : Vars) (name : Text) : (addFiles preset env orders).get? name =
      (if preset name then none else files.reverse.findSome? (supplied? · name)).or
        (env.get? name) := by
  induction h generalizing env with
  | nil => simp [addFiles]
  | @cons order file orders files ho hrest ih =>
    have hone : ((order.map (addVars preset env)).getD env).get? name =
        (if preset name then none else supplied? file name).or (env.get? name) := by
      cases ho with
      | none => cases preset name <;> simp [supplied?]
      | some hl => exact hl.get?_addVars preset env name
    -- what is preset is the same for all files, so that later files go over the first one
    rw [addFiles,List.foldl_cons,← addFiles,ih,hone,List.reverse_cons,List.findSome?_append]
    cases preset name <;> simp [Option.or_assoc]

/-- Files whose values are all preset add nothing. -/
theorem addFiles_eq (h : List.Forall₂ (Option.Rel Lists) orders files) {preset : Text → Bool}
    (hp : ∀ file ∈ files, ∀ name, (supplied? file name).isSome = true → preset name = true)
    (env : Vars) : addFiles preset env orders = env := by
  induction h with
  | nil => rfl
  | @cons order file orders files ho hrest ih =>
    have hone : (order.map (addVars preset env)).getD env = env := by
      cases ho with
      | none => rfl
      | some hl => exact hl.addVars_eq (hp _ (by simp)) env
    rw [addFiles,List.foldl_cons,hone,← addFiles]
    exact ih fun file hf => hp file (by simp [hf])

/-- After a run through the files every name has the value it had before, or else the value of the last
file that the environment takes one from. -/
theorem Machine.get?_loadInOrder {m : Machine} (h : List.Forall₂ (Option.Rel Lists) orders files)
    (name : Text) : (m.loadInOrder orders).env.get? name =
      (m.env.get? name).or (files.reverse.findSome? (supplied? · name)) := by
  rw [Machine.loadInOrder,get?_addFiles h]
  cases m.env.get? name <;> simp

/-- A second run through the same files finds every name set. -/
theorem Machine.loadInOrder_loadInOrder {m : Machine} {again : List (Option Vars)}
    (h : List.Forall₂ (Option.Rel Lists) orders files)
    (hagain : List.Forall₂ (Option.Rel Lists) again files) :
    (m.loadInOrder orders).loadInOrder again = m.loadInOrder orders := by
  have henv : addFiles (fun name => ((m.loadInOrder orders).env.get? name).isSome)
      (m.loadInOrder orders).env again = (m.loadInOrder orders).env := by
    -- a name that some file gives a value was set by the first run, if it was not before
    refine addFiles_eq hagain (fun file hf name hs => ?_) _
    have hfound : (files.reverse.findSome? (supplied? · name)).isSome = true := by
      simpa using ⟨file,hf,hs⟩
    rw [get?_loadInOrder h,Option.isSome_or,hfound,Bool.or_true]
  rw [Machine.loadInOrder,henv]

lemma Dotenv.nodup_readAll {fuel : ℕ} {vars found : Vars} {t : Text} (h : (vars.map (·.1)).Nodup)
    (hread : readAll fuel vars t = .ok found) : (found.map (·.1)).Nodup := by
  induction fuel generalizing vars t with
  | zero =>
    rw [readAll,Except.ok.injEq] at hread
    rwa [← hread]
  | succ fuel ih =>
    rw [readAll] at hread
    split at hread
    · rw [Except.ok.injEq] at hread
      rwa [← hread]
    · obtain ⟨⟨name,rest⟩,-,hread⟩ := bind_eq_ok_iff.mp hread
      obtain ⟨⟨value,rest⟩,-,hread⟩ := bind_eq_ok_iff.mp hread
      exact ih (Vars.nodup_put h name value) hread

/-- The variables of a file in the order they were first read. -/
lemma Dotenv.lists_values? (content : Text) :
    Option.Rel Lists (Dotenv.read content).toOption (Dotenv.values? content) := by
  rw [values?]
  cases h : Dotenv.read content with
  | error e => exact .none
  | ok vars => exact .some ⟨nodup_readAll (by simp) h,fun _ => rfl⟩

/-- The files that are there and can be read, with their variables in the order they are set. -/
def Machine.envOrders (m : Machine) : List (Option Vars) :=
  envFiles.map fun name => (m.file? name).bind fun content => (Dotenv.read content).toOption

lemma withEnvFiles_eq (env : Vars) (contents : List (Option Text)) : withEnvFiles env contents =
    addFiles (fun name => (env.get? name).isSome) env
      (contents.map (·.bind fun content => (Dotenv.read content).toOption)) := by
  rw [withEnvFiles,addFiles,List.foldl_map]
  congr 1
  funext now content
  cases content with
  | none => rfl
  | some content => cases h : Dotenv.read content <;> simp [h,Except.toOption]

lemma Machine.loadEnv_eq (m : Machine) : m.loadEnv = m.loadInOrder m.envOrders := by
  rw [loadEnv,withEnvFiles_eq,List.map_map]
  rfl

lemma Machine.lists_envOrders (m : Machine) :
    List.Forall₂ (Option.Rel Lists) m.envOrders (m.envValues Dotenv.values?) := by
  rw [envOrders,envValues,List.forall₂_map_left_iff,List.forall₂_map_right_iff,List.forall₂_same]
  intro name _
  cases m.file? name with
  | none => exact .none
  | some content => exact Dotenv.lists_values? content

/-- Whatever a parser makes of the two files, and in whatever orders their variables are set: a
variable that was set keeps its value, and every other one has the value that the environment takes
for it from the second file, or else from the first, or else none. A second run changes nothing. The
environment is completed from the files as they are read by such a run. -/
theorem env_precedence {m : Machine} {parse : Text → Option Values}
    {orders again : List (Option Vars)}
    (h : List.Forall₂ (Option.Rel Lists) orders (m.envValues parse))
    (hagain : List.Forall₂ (Option.Rel Lists) again ((m.loadInOrder orders).envValues parse)) :
    (∀ name, (m.loadInOrder orders).env.get? name = (m.env.get? name).or
        ((supplied? ((m.file? ".env.local").bind parse) name).or
          (supplied? ((m.file? ".env").bind parse) name))) ∧
      (m.loadInOrder orders).loadInOrder again = m.loadInOrder orders ∧
      List.Forall₂ (Option.Rel Lists) m.envOrders (m.envValues Dotenv.values?) ∧
      m.loadEnv = m.loadInOrder m.envOrders := by
  refine ⟨fun name => ?_,Machine.loadInOrder_loadInOrder h hagain,m.lists_envOrders,m.loadEnv_eq⟩
  rw [Machine.get?_loadInOrder h,Machine.envValues,envFiles]
  cases hlocal : supplied? ((m.file? ".env.local").bind parse) name <;> simp [hlocal]

/-- A machine with a variable that is set to nothing, and two files with variables of one name, one of
them with a zero byte. -/
def overlapping : Machine where
  files := [("/.env","A=1\nB=2\nC=3\n"),("/.env.local","B=4\nC=5\x006\n")]
  env := [("A",[])]

theorem env_precedence_overlapping :
    let m := overlapping.loadInOrder (overlapping.envOrders.map (·.map List.reverse))
    List.Forall₂ (Option.Rel Lists) (overlapping.envOrders.map (·.map List.reverse))
        (overlapping.envValues Dotenv.values?) ∧
      List.Forall₂ (Option.Rel Lists) overlapping.envOrders (m.envValues Dotenv.values?) ∧
      m.env.get? "A" = some [] ∧ m.env.get? "B" = some "4" ∧ m.env.get? "C" = some "3" ∧
      m.env.get? "D" = none ∧ m.loadInOrder overlapping.envOrders = m := by
  intro m
  have horders := lists_reversed overlapping.lists_envOrders
  have hagain : List.Forall₂ (Option.Rel Lists) overlapping.envOrders
      (m.envValues Dotenv.values?) := overlapping.lists_envOrders
  obtain ⟨hget,hsame,-⟩ := env_precedence horders hagain
  refine ⟨horders,hagain,?_,?_,?_,?_,hsame⟩
  · rw [hget]
    decide +kernel
  · rw [hget]
    decide +kernel
  · rw [hget]
    decide +kernel
  · rw [hget]
    decide +kernel

/-- The environment takes no value with a zero byte: the variable that the only file sets stays
unset, though its name could be set. -/
theorem zero_byte_stays_unset :
    let m : Machine := { files := [("/.env","A=x\x00y\n")], env := [] }
    m.env.get? "A" = none ∧ m.file? ".env.local" = none ∧
      ((m.file? ".env").bind Dotenv.values?).bind (· "A") = some "x\x00y" ∧
      settable ("A",[]) = true ∧ m.loadEnv.env.get? "A" = none := by
  decide +kernel

end CellScript.Settings
