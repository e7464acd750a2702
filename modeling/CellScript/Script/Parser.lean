import CellScript.Number.Reading
import CellScript.Script.Error
import CellScript.Script.Expr
import CellScript.Script.Lexeme
import CellScript.Script.Literal

/-! Parsing of scripts. Each level of precedence is a parser over a parser for nested expressions, so
that only the depth of nesting has to be bounded. Where several forms are possible the first one that
fits is taken: the words of the language are names wherever they fit no rule. No bound is set on how
many lexemes a form may take before it turns out not to fit: not(a + b + c, d), which is no negation, is
taken as a call of a function with the name not, though a parser that looks ahead by four lexemes only
would refuse it. -/
namespace CellScript.Script

/-- A parser takes lexemes from the front, or does not fit. -/
abbrev Parser (α : Type) := List Lexeme → Option (α × List Lexeme)

namespace Parser

/-- Whether the lexeme is the given word or mark. -/
def isWord (l : Lexeme) (word : Text) : Bool := l.text == word

/-- The first of several words that the lexeme is, by what it means. -/
def choose? {α : Type} (words : List (Text × α)) (l : Lexeme) : Option α :=
  (words.find? fun w => isWord l w.1).map (·.2)

def expect (word : Text) : Parser Unit
  | [] => none
  | l :: rest => if isWord l word then some ((), rest) else none

def oneOf {α : Type} (words : List (Text × α)) : Parser α
  | [] => none
  | l :: rest => (choose? words l).map (·, rest)

/-- What a parser finds, or nothing. -/
def optional {α : Type} (p : Parser α) : Parser (Option α) := fun ls =>
  match p ls with
  | some (a, rest) => some (some a, rest)
  | none => some (none, ls)

/-- Go on from a result as often as a parser fits, at most fuel times. -/
def extend {α : Type} (p : α → Parser α) : (fuel : Nat) → α → Parser α
  | 0, a, ls => some (a, ls)
  | fuel + 1, a, ls =>
    match p a ls with
    | some (b, rest) => extend p fuel b rest
    | none => some (a, ls)

/-- Operands with operators between them, joined to the left. -/
def chain {α β : Type} (operand : Parser α) (operators : List (Text × β)) (join : β → α → α → α) :
    Parser α := fun ls => do
  let (first, rest) ← operand ls
  extend (fun left ls => do
    let (op, ls) ← oneOf operators ls
    let (right, ls) ← operand ls
    return (join op left right, ls)) rest.length first rest

/-- Items with commas between them, at least one. -/
def list (item : Parser Expr) : Parser (List Expr) := fun ls => do
  let (first, rest) ← item ls
  extend (fun items ls => do
    let (_, ls) ← expect "," ls
    let (next, ls) ← item ls
    return (items ++ [next], ls)) rest.length [first] rest

/-- A view after a dot. -/
def viewName : Parser Text := fun ls => do
  let (_, ls) ← expect "." ls
  match ls with
  | l :: rest => if l.kind = .name then some (l.text, rest) else none
  | [] => none

/-- The bound after the colon of a slice. -/
def sliceTail (expr : Parser Expr) : Parser (Option Expr) := fun ls => do
  let (_, ls) ← expect ":" ls
  optional expr ls

/-- One or several cells of the row. -/
def rowRef (expr : Parser Expr) : Parser Expr := fun ls => do
  let (_, ls) ← expect "row" ls
  let (view, ls) ← optional viewName ls
  let (_, ls) ← expect "[" ls
  let (lo, ls) ← optional expr ls
  let (tail, ls) ← optional (sliceTail expr) ls
  let (_, ls) ← expect "]" ls
  match tail with
  | some hi => return (.slice view lo hi, ls)
  | none => return (.cell view lo, ls)

def call (expr : Parser Expr) : Parser Expr
  | [] => none
  | l :: ls => do
    if l.kind ≠ .name then none
    let (_, ls) ← expect "(" ls
    let (args, ls) ← optional (list expr) ls
    let (_, ls) ← expect ")" ls
    return (.call l.text (args.getD []), ls)

def paren (expr : Parser Expr) : Parser Expr := fun ls => do
  let (_, ls) ← expect "(" ls
  let (e, ls) ← expr ls
  let (_, ls) ← expect ")" ls
  return (.paren e, ls)

/-- The words with a value of their own. -/
def constants : List (Text × Expr) :=
  [("true", .bool true), ("True", .bool true), ("false", .bool false), ("False", .bool false),
    ("none", .nil), ("None", .nil)]

/-- A number that can be held, or a string. -/
def literal? (l : Lexeme) : Option Expr :=
  match l.kind with
  | .float => (Number.readFloat l.text).toOption.map .float
  | .int => (Number.readInt l.text).toOption.map .int
  | .string => some (.string (decodeLiteral l.text))
  | _ => none

def var : Parser Expr
  | [] => none
  | l :: ls => if l.kind = .name then some (.var l.text l.pos, ls) else none

def constant : Parser Expr
  | [] => none
  | l :: ls => ((literal? l).orElse fun _ => choose? constants l).map (·, ls)

/-- The first of the forms of an operand that fits. -/
def primary (expr : Parser Expr) : Parser Expr := fun ls =>
  constant ls <|> rowRef expr ls <|> call expr ls <|> var ls <|> paren expr ls

def signs : List (Text × Sign) := [("-", .minus), ("+", .plus)]

/-- An operand with any number of signs. -/
def signed (expr : Parser Expr) : Parser Expr
  | [] => none
  | l :: ls =>
    match choose? signs l with
    | some sign => (signed expr ls).map fun (e, rest) => (.signed sign e, rest)
    | none => primary expr (l :: ls)

def products : List (Text × Arith) :=
  [("*", .mul), ("//", .floorDiv), ("/", .div), ("%", .mod)]

def sums : List (Text × Arith) := [("+", .add), ("-", .sub)]

def product (expr : Parser Expr) : Parser Expr := chain (signed expr) products .arith

def sum (expr : Parser Expr) : Parser Expr := chain (product expr) sums .arith

def comparisons : List (Text × Compare) :=
  [("==", .eq), ("!=", .ne), ("<=", .le), (">=", .ge), ("<", .lt), (">", .gt)]

def comparison (expr : Parser Expr) : Parser Expr := fun ls => do
  let (left, rest) ← sum expr ls
  let tail : Parser (Compare × Expr) := fun ls => do
    let (op, ls) ← oneOf comparisons ls
    let (right, ls) ← sum expr ls
    return ((op, right), ls)
  match tail rest with
  | some ((op, right), rest) => return (.compare op left right, rest)
  | none => return (left, rest)

def negations : List (Text × Unit) := [("not", ()), ("!", ())]

/-- A comparison with any number of negations. A negation with nothing to negate is taken as the
start of a comparison. -/
def negation (expr : Parser Expr) : Parser Expr
  | [] => none
  | l :: ls =>
    match choose? negations l with
    | none => comparison expr (l :: ls)
    | some () =>
      match negation expr ls with
      | some (e, rest) => some (.not e, rest)
      | none => comparison expr (l :: ls)

def conjunctions : List (Text × Unit) := [("and", ()), ("&&", ())]

def disjunctions : List (Text × Unit) := [("or", ()), ("||", ())]

def conjunction (expr : Parser Expr) : Parser Expr :=
  chain (negation expr) conjunctions fun _ => .and

def disjunction (expr : Parser Expr) : Parser Expr :=
  chain (conjunction expr) disjunctions fun _ => .or

/-- An expression whose parentheses, brackets and calls nest less than depth deep. -/
def expr : (depth : Nat) → Parser Expr
  | 0 => fun _ => none
  | depth + 1 => disjunction (expr depth)

/-- An expression. No nesting is deeper than the number of lexemes. -/
def expression : Parser Expr := fun ls => expr (ls.length + 1) ls

/-- A statement: an expression, and what is assigned to it if anything. -/
def clause : Parser Clause
  | [] => none
  | l :: ls => do
    let (target, rest) ← expression (l :: ls)
    let (value, rest) ← optional (fun ls => do
      let (_, ls) ← expect "=" ls
      expression ls) rest
    return (⟨l.pos, target, value⟩, rest)

/-- Statements with semicolons between them. Any of them may be missing. -/
def clauses : Parser (List Clause) := fun ls => do
  let (first, rest) ← optional clause ls
  extend (fun done ls => do
    let (_, ls) ← expect ";" ls
    let (next, ls) ← optional clause ls
    return (done ++ next.toList, ls)) rest.length first.toList rest

/-- What a parser finds in all of a source. -/
def whole? {α : Type} (p : Parser α) (src : Text) : Option α :=
  match (lex? src).bind p with
  | some (a, []) => some a
  | _ => none

end Parser

/-- A statement with its target checked: only one cell and a variable can be assigned. -/
def Clause.check (c : Clause) : Except Error Statement :=
  match c.value, c.target with
  | none, e => .ok (.eval e)
  | some value, .var name _ => .ok (.bind c.pos name value)
  | some value, .cell view key => .ok (.store view key value)
  | some _, .slice _ _ _ => .error (.sliceAssigned c.pos)
  | some _, _ => .error (.notAssignable c.pos)

def Program.compile (src : Text) : Except Error Program :=
  match Parser.whole? Parser.clauses src with
  | none => .error .malformed
  | some clauses => do return ⟨src, ← clauses.mapM Clause.check⟩

def Formula.compile (src : Text) : Except Error Formula :=
  if Text.blankOnly src then .error .emptyExpression
  else match Parser.whole? Parser.expression src with
    | none => .error .malformed
    | some e => .ok ⟨src, e⟩

end CellScript.Script
