import CellScript.Settings.Yaml.Word

/-! Reading YAML: the first document of a text as a tree. Aliases are replaced by what they stand
for, and a mapping can take over the entries of others. -/
namespace CellScript.Settings.Yaml

/-- Whether two keys are written alike: scalars with the same text, aliases of the same anchor, or
two sequences or mappings whatever they hold. -/
def sameKey : Node → Node → Bool
  | .scalar a, .scalar b => a.text == b.text
  | .reference a _, .reference b _ => a == b
  | .sequence _, .sequence _ => true
  | .mapping _, .mapping _ => true
  | _, _ => false

/-- Whether no two keys are written alike. -/
def keysDiffer : List (Node × Node) → Bool
  | [] => true
  | (k, _) :: rest => rest.all (fun e => !sameKey k e.1) && keysDiffer rest

/-- Whether a key takes over the entries of other mappings. -/
def isMergeKey : Node → Bool
  | .scalar s => s.isMerge
  | _ => false

/-- The scalar of a key. Collections are no keys. -/
def keyScalar? : Node → Option Written
  | .scalar s | .reference _ (some (.scalar s)) => some s
  | _ => none

/-- The name of a key, which the outermost mapping does not have for a key without content. -/
def keyName? (outermost : Bool) (k : Node) : Option (Option Text) := do
  let s ← keyScalar? k
  match ← s.value? with
  | .null => return if outermost then none else some []
  | _ => return some s.name

/-- The names of keys that have one. -/
def keyNames (entries : List (Node × Node)) : List Text :=
  (entries.filter fun e => !isMergeKey e.1).filterMap fun e => (keyScalar? e.1).map Written.name

mutual

def tree? : Node → Option Tree
  | .scalar s => s.value?.map .leaf
  | .sequence items => (trees? items).map .list
  | .mapping entries => do
    if keysDiffer entries then return .map (← entries? false [] (keyNames entries) entries) else none
  | .reference _ target => target? target

/-- The tree of what an alias stands for. A node that holds itself has none. -/
def target? : Option Node → Option Tree
  | some n => tree? n
  | none => none

def trees? : List Node → Option (List Tree)
  | [] => some []
  | n :: rest => do return (← tree? n) :: (← trees? rest)

/-- The entries of a mapping, except those whose names are taken. Entries that are taken over come
after all of its own. -/
def entries? (outermost : Bool) (taken own : List Text) :
    List (Node × Node) → Option (List (Text × Tree))
  | [] => some []
  | (k, v) :: rest => do
    let here ←
      if isMergeKey k then merged? outermost (taken ++ own) v
      else match ← keyName? outermost k with
        | none => pure []
        | some name => if taken.contains name then pure [] else pure [(name, ← tree? v)]
    return here ++ (← entries? outermost taken own rest)

/-- The entries that are taken over from a mapping, or from several where the first ones come
first. -/
def merged? (outermost : Bool) (taken : List Text) : Node → Option (List (Text × Tree))
  | .mapping entries =>
    if keysDiffer entries then entries? outermost taken (keyNames entries) entries else none
  | .reference _ (some (.mapping entries)) =>
    if keysDiffer entries then entries? outermost taken (keyNames entries) entries else none
  | .sequence items => mergedAll? outermost taken items
  | _ => none

def mergedAll? (outermost : Bool) (taken : List Text) : List Node → Option (List (Text × Tree))
  | [] => some []
  | .sequence _ :: _ => none
  | n :: rest => do
    let first ← merged? outermost taken n
    return first ++ (← mergedAll? outermost (taken ++ first.map (·.1)) rest)

end

/-- The first document of a text. The outermost mapping has names only. -/
def read? (t : Text) : Option Tree := do
  let root ← document? (Token.scan (← characters? t))
  match root with
  | .mapping entries =>
    if keysDiffer entries then return .map (← entries? true [] (keyNames entries) entries) else none
  | _ => tree? root

end CellScript.Settings.Yaml
