import CellScript.Settings.Yaml.Lexer

/-! Documents as nodes: scalars as written, collections, and aliases with what they stand for. -/
namespace CellScript.Settings.Yaml

structure Written where
  /-- The tag in its short form; empty if there is none. -/
  tag : Text := []
  /-- Whether it stands neither in quotes nor in a block. -/
  plain : Bool := true
  text : Text := []
  deriving DecidableEq

inductive Node where
  | scalar (s : Written)
  | sequence (items : List Node)
  | mapping (entries : List (Node × Node))
  /-- A reference to a node. One to a node around it has no target. -/
  | reference (name : Text) (target : Option Node)

def Node.empty : Node := .scalar {}

/-- The starts of tags that handles stand for. -/
abbrev Handles := List (Text × Text)

def standardStart : Text := "tag:yaml.org,2002:"

/-- The handles that need no directive. -/
def standardHandles : Handles := [("!", "!"), ("!!", standardStart)]

/-- The short form of a tag: the standard start is two marks, and the mark alone is no tag. -/
def shortTag (t : Text) : Text :=
  if t == Text.ofString "!" then []
  else if standardStart.isPrefixOf t then "!!" ++ t.drop standardStart.length
  else t

/-- The tag that a handle and a suffix name. Without a handle the suffix is all of it. -/
def Handles.expand? (handles : Handles) (handle suffix : Text) : Option Text :=
  if handle.isEmpty then some (shortTag suffix)
  else (handles.find? fun h => h.1 == handle).map fun h => shortTag (h.2 ++ suffix)

/-- What is left to read, and the anchors so far, the one that starts last first. The node of an
anchor is missing as long as it is being read. -/
structure Tail where
  tokens : List Token
  anchors : List (Text × Option Node) := []

namespace Tail

/-- The next token. It takes two more to be sure of it. -/
def peek (t : Tail) : Option Token :=
  if t.tokens.head? == some .unsettled || (t.tokens.take 3).contains .fault then none
  else some (t.tokens.headD .streamEnd)

def drop (t : Tail) : Tail := { t with tokens := t.tokens.drop 1 }

/-- Note that the node of an anchor starts, if there is one. -/
def start (t : Tail) (anchor : Option Text) : Tail :=
  { t with anchors := (anchor.map fun name => (name, none)).toList ++ t.anchors }

def finish (t : Tail) (anchor : Option Text) (node : Node) : Tail :=
  let isOpen (a : Text × Option Node) : Bool := some a.1 == anchor && a.2.isNone
  let later := t.anchors.takeWhile fun a => !isOpen a
  match t.anchors.drop later.length with
  | a :: earlier => { t with anchors := later ++ (a.1, some node) :: earlier }
  | [] => t

def resolve? (t : Tail) (name : Text) : Option Node :=
  (t.anchors.find? fun a => a.1 == name).map fun a => .reference name a.2

end Tail

structure Properties where
  anchor : Option Text := none
  tag : Option Text := none

/-- Read an anchor, if one comes next. -/
def anchorOf (t : Tail) : Option (Option Text × Tail) := do
  match ← t.peek with
  | .anchor name => return (some name, t.drop)
  | _ => return (none, t)

/-- Read a tag, if one comes next. -/
def tagOf (handles : Handles) (t : Tail) : Option (Option Text × Tail) := do
  match ← t.peek with
  | .tag handle suffix => return (some (← handles.expand? handle suffix), t.drop)
  | _ => return (none, t)

/-- Read an anchor and a tag in either order. Both may be missing. -/
def propertiesOf (handles : Handles) (t : Tail) : Option (Properties × Tail) := do
  let (anchor, t) ← anchorOf t
  let (tag, t) ← tagOf handles t
  match anchor with
  | some _ => return (⟨anchor, tag⟩, t)
  | none =>
    let (anchor, t) ← if tag.isSome then anchorOf t else pure (none, t)
    return (⟨anchor, tag⟩, t)

/-- What ends a key or a value without content in a block mapping. -/
def Token.endsEntry (t : Token) : Bool := t == .key || t == .value || t == .blockEnd

mutual

/-- A node. Block collections stand outside of brackets only, and items without indentation only in
mappings. -/
def node (handles : Handles) : (fuel : Nat) → (block unindented : Bool) → Tail → Option (Node × Tail)
  | 0, _, _, _ => none
  | fuel + 1, block, unindented, t => do
    match ← t.peek with
    | .reference name => return (← t.resolve? name, t.drop)
    | _ =>
      let (properties, t) ← propertiesOf handles t
      let t := t.start properties.anchor
      let tag := properties.tag.getD []
      let (found, t) ← match ← t.peek with
        | .scalar text plain => pure (.scalar ⟨tag, plain, text⟩, t.drop)
        | .flowSequence => flowItems handles fuel true [] t.drop
        | .flowMapping => flowEntries handles fuel true [] t.drop
        | next =>
          if unindented && next == .item then unindentedItems handles fuel [] t
          else if block && next == .blockSequence then blockItems handles fuel [] t.drop
          else if block && next == .blockMapping then blockEntries handles fuel [] t.drop
          else if properties.anchor.isSome || properties.tag.isSome then
            pure (.scalar { tag := tag }, t)
          else none
      return (found, t.finish properties.anchor found)

/-- The items of a block sequence up to its end. -/
def blockItems (handles : Handles) : (fuel : Nat) → List Node → Tail → Option (Node × Tail)
  | 0, _, _ => none
  | fuel + 1, done, t => do
    match ← t.peek with
    | .item =>
      let next ← t.drop.peek
      let (item, t) ← if next == .item || next == .blockEnd then pure (Node.empty, t.drop)
        else node handles fuel true false t.drop
      blockItems handles fuel (done ++ [item]) t
    | .blockEnd => return (.sequence done, t.drop)
    | _ => none

/-- Items at the column of the mapping they stand in. -/
def unindentedItems (handles : Handles) : (fuel : Nat) → List Node → Tail → Option (Node × Tail)
  | 0, _, _ => none
  | fuel + 1, done, t => do
    match ← t.peek with
    | .item =>
      let next ← t.drop.peek
      let (item, t) ← if next == .item || next.endsEntry then pure (Node.empty, t.drop)
        else node handles fuel true false t.drop
      unindentedItems handles fuel (done ++ [item]) t
    | _ => return (.sequence done, t)

/-- A key or a value in a block mapping after its mark. -/
def blockPart (handles : Handles) : (fuel : Nat) → Tail → Option (Node × Tail)
  | 0, _ => none
  | fuel + 1, t => do
    if (← t.peek).endsEntry then return (Node.empty, t) else node handles fuel true true t

/-- The entries of a block mapping up to its end. -/
def blockEntries (handles : Handles) : (fuel : Nat) → List (Node × Node) → Tail → Option (Node × Tail)
  | 0, _, _ => none
  | fuel + 1, done, t => do
    match ← t.peek with
    | .key =>
      let (key, t) ← blockPart handles fuel t.drop
      let (value, t) ← match ← t.peek with
        | .value => blockPart handles fuel t.drop
        | _ => pure (Node.empty, t)
      blockEntries handles fuel (done ++ [(key, value)]) t
    | .blockEnd => return (.mapping done, t.drop)
    | _ => none

/-- A value inside of brackets after its key. It may be missing, mark and all. -/
def flowValue (handles : Handles) (ending : Token) : (fuel : Nat) → Tail → Option (Node × Tail)
  | 0, _ => none
  | fuel + 1, t => do
    match ← t.peek with
    | .value =>
      let next ← t.drop.peek
      if next == .comma || next == ending then return (Node.empty, t.drop)
      else node handles fuel false false t.drop
    | _ => return (Node.empty, t)

/-- The items of a sequence in brackets. A key with its value is a mapping of one entry. -/
def flowItems (handles : Handles) :
    (fuel : Nat) → (first : Bool) → List Node → Tail → Option (Node × Tail)
  | 0, _, _, _ => none
  | fuel + 1, first, done, t => do
    let t ← match first, ← t.peek with
      | true, _ | _, .flowSequenceEnd => pure t
      | false, .comma => pure t.drop
      | _, _ => none
    match ← t.peek with
    | .flowSequenceEnd => return (.sequence done, t.drop)
    | .key =>
      let next ← t.drop.peek
      let (key, t) ←
        if next == .value || next == .comma || next == .flowSequenceEnd then
          pure (Node.empty, t.drop.drop)
        else node handles fuel false false t.drop
      let (value, t) ← flowValue handles .flowSequenceEnd fuel t
      flowItems handles fuel false (done ++ [.mapping [(key, value)]]) t
    | _ =>
      let (item, t) ← node handles fuel false false t
      flowItems handles fuel false (done ++ [item]) t

/-- The entries of a mapping in braces. A node that is no key has no value. -/
def flowEntries (handles : Handles) :
    (fuel : Nat) → (first : Bool) → List (Node × Node) → Tail → Option (Node × Tail)
  | 0, _, _, _ => none
  | fuel + 1, first, done, t => do
    let t ← match first, ← t.peek with
      | true, _ | _, .flowMappingEnd => pure t
      | false, .comma => pure t.drop
      | _, _ => none
    match ← t.peek with
    | .flowMappingEnd => return (.mapping done, t.drop)
    | .key =>
      let next ← t.drop.peek
      let (key, t) ←
        if next == .value || next == .comma || next == .flowMappingEnd then pure (Node.empty, t.drop)
        else node handles fuel false false t.drop
      let (value, t) ← flowValue handles .flowMappingEnd fuel t
      flowEntries handles fuel false (done ++ [(key, value)]) t
    | _ =>
      let (key, t) ← node handles fuel false false t
      flowEntries handles fuel false (done ++ [(key, Node.empty)]) t

end

/-- The handles of the directives in front of a document, and the rest. There is one version at
most, and one directive for a handle. -/
def directives (versioned : Bool) (handles : Handles) :
    (fuel : Nat) → Tail → Option (Handles × Tail)
  | 0, _ => none
  | fuel + 1, t => do
    match ← t.peek with
    | .version major minor =>
      if versioned || major != 1 || minor != 1 then none
      directives true handles fuel t.drop
    | .handle name start =>
      if handles.any fun h => h.1 == name then none
      directives versioned (handles ++ [(name, start)]) fuel t.drop
    | _ => return (handles ++ standardHandles, t)

/-- What ends a document before it has any content. -/
def Token.endsDocument : Token → Bool
  | .version .. | .handle .. | .documentStart | .documentEnd | .streamEnd => true
  | _ => false

/-- The first document of a text, with its content missing if there is none. The token after it must
be one. -/
def document? (tokens : List Token) : Option Node := do
  let fuel := 3 * tokens.length + 3
  let t : Tail := { tokens := tokens }
  let (handles, t) ← directives false [] fuel t
  let explicit := t.tokens.length < tokens.length || (← t.peek) == .documentStart
  let (root, t) ←
    match explicit, ← t.peek with
    | true, .documentStart =>
      if (← t.drop.peek).endsDocument then pure (Node.empty, t.drop)
      else node handles fuel true false t.drop
    | true, _ => none
    | false, .streamEnd => pure (Node.empty, t)
    | false, _ => node handles fuel true false t
  let _ ← t.peek
  return root

end CellScript.Settings.Yaml
