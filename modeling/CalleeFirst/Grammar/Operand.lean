import CalleeFirst.Grammar.Pattern

/-! Operands: expressions without an operator between two of them.

An operand is an atom with everything that can follow an atom (calls, fields, methods,
indices, question marks) and everything that can stand before it (attributes and unary
operators). Where `structs` is false, a brace behind a path opens a block and no struct. -/
namespace CalleeFirst.Grammar

open Lexeme (Tree)
open Reader Rule
open Syntax (Node)

/-! ### Expressions with blocks -/

/-- A block that takes no attributes of its own. -/
def plainBlock (g : Rules) : Rule := braces g.statements

/-- An expression with the statement's brace behind it. -/
def condition (g : Rules) : Rule := one (g.expression false)

def ifExpression (g : Rules) : Rule := repeated do
  let clause ← seq [word "if", condition g, plainBlock g]
  if ← look (.word "else") then
    let keyword ← word "else"
    if ← look (.word "if") then return (clause ++ keyword, true)
    else return (clause ++ keyword ++ (← plainBlock g), false)
  else return (clause, false)

def whileExpression (g : Rules) : Rule := seq [word "while", condition g, blockBody g]

def forExpression (g : Rules) : Rule :=
  seq [word "for", one g.alternatives, word "in", condition g, blockBody g]

def loopExpression (g : Rules) : Rule := seq [word "loop", blockBody g]

/-- Whether an expression ends a statement or a match arm on its own. -/
def isBlockLike (e : Node) : Bool := e.isForm .blockLike

/-- An arm of a match; only a body that is a block does without a comma. -/
def matchArm (g : Rules) : Rule := do
  let head ← seq [outerAttributes g, one g.alternatives,
    onlyIf (.word "if") (seq [word "if", one (g.expression true)]), op "=>"]
  let body ← g.standing
  let comma ← if isBlockLike body || (← look .end_) then optionalOp "," else op ","
  return head ++ body :: comma

def matchExpression (g : Rules) : Rule :=
  seq [word "match", condition g, braces (seq [innerAttributes g, untilEnd (matchArm g)])]

def tryBlock (g : Rules) : Rule := seq [word "try", plainBlock g]

def unsafeBlock (g : Rules) : Rule := seq [word "unsafe", blockBody g]

/-- A loop or block with a label. -/
def labeled (g : Rules) : Rule :=
  seq [lifetime, op ":", choose [
    (.word "while", whileExpression g),
    (.word "for", forExpression g),
    (.word "loop", loopExpression g),
    (.brace, blockBody g)]]

/-- Whether a binder of a closure follows, and no loop. -/
def closureBinderAhead : Look :=
  .and (.word "for") (.and (.second (.op "<")) (.or (.third .lifetime) (.third (.op ">"))))

/-- The expressions that end a statement without a semicolon. -/
def blockLike (g : Rules) : List (Look × Rule) :=
  [(.word "if", ifExpression g),
   (.word "while", whileExpression g),
   (.and (.word "for") (.not closureBinderAhead), forExpression g),
   (.word "loop", loopExpression g),
   (.word "match", matchExpression g),
   (.and (.word "try") (.second .brace), tryBlock g),
   (.word "unsafe", unsafeBlock g),
   (.and (.word "const") (.second .brace), constantBlock g),
   (.brace, blockBody g),
   (.lifetime, labeled g)]

/-! ### Groups -/

/-- Parentheses around one expression, or a tuple. -/
def parenExpression (g : Rules) : Reader Node := do
  let ((sole, inner), span) ← inGroup .paren do
    if ← look .end_ then return (false, [])
    let first ← g.expression true
    if ← look .end_ then return (true, [first])
    let comma ← op ","
    return (false, first :: comma ++ (← commas (one (g.expression true))))
  return .phrase (if sole then .paren else .plain) [.group .paren span inner]

/-- A list of elements, or one element and a length. -/
def arrayExpression (g : Rules) : Rule := brackets do
  if ← look .end_ then return []
  let first ← g.expression true
  if ← look .end_ then return [first]
  if ← look (.op ",") then
    let comma ← op ","
    return first :: comma ++ (← commas (one (g.expression true)))
  return first :: (← seq [op ";", one (g.expression true)])

def fieldValue (g : Rules) : Rule := do
  let attributes ← outerAttributes g
  let (name, node) ← fieldName
  if name.isNone || (← look (.op ":")) then
    return attributes ++ node :: (← seq [op ":", one (g.expression true)])
  return attributes ++ [node]

/-- The fields of a struct, and perhaps what the other fields are taken from. -/
def structFields (g : Rules) : Rule := braces <| repeated do
  if ← look .end_ then return ([], false)
  if ← look (.op "..") then
    return (← seq [op "..", onlyIf (.not .end_) (one (g.expression true))], false)
  let field ← fieldValue g
  if ← look .end_ then return (field, false)
  return (field ++ (← op ","), true)

/-- A path, or the macro or struct that it starts. -/
def pathExpression (g : Rules) (structs : Bool) : Reader Node := do
  let (qualified, parts) ← qualifiedPath g true
  let head := Node.phrase (.path .other qualified) parts
  if !qualified && Node.isPlainPath parts && (← look bangAhead) then invocation g [head]
  else if structs && (← look .brace) then return .phrase .plain (head :: (← structFields g))
  else return .phrase (.path .value qualified) parts

/-! ### Closures and jumps -/

def closureParameter (g : Rules) : Rule :=
  seq [outerAttributes g, one g.pattern, onlyIf (.op ":") (seq [op ":", one (g.type true)])]

def closure (g : Rules) (structs : Bool) : Rule := do
  let head ← seq [optionalBinder g, optionalWord "const", optionalWord "static",
    optionalWord "async", optionalWord "move",
    op "|", upTo (.op "|") (closureParameter g) ",", op "|"]
  if ← look (.op "->") then
    return head ++ (← seq [op "->", one (g.type true), plainBlock g])
  else return head ++ [← g.expression structs]

/-- What an expression can start with. -/
def expressionStart : Look := .any [
  .anyWord, .paren, .bracket, .brace, .literal, .lifetime, .ops ["..", "::", "#"],
  .and (.op "!") (.not (.op "!=")),
  .and (.op "-") (.not (.ops ["-=", "->"])),
  .and (.op "*") (.not (.op "*=")),
  .and (.op "|") (.not (.op "|=")),
  .and (.op "&") (.not (.op "&=")),
  .and (.op "<") (.not (.ops ["<=", "<<="]))]

/-- A label behind `break` must not be the label of a loop: that needs parentheses. -/
def breakExpression (g : Rules) (structs : Bool) : Rule := do
  let keyword ← word "break"
  if ← look (.and .lifetime (.second (.op ":"))) then
    let place ← here
    let _ ← g.expression true
    failAt place
  let label ← optionalLifetime
  let value := if structs then expressionStart else .and expressionStart (.not .brace)
  return keyword ++ label ++ (← onlyIf value (one (g.expression structs)))

def letExpression (g : Rules) (structs : Bool) : Rule := do
  let head ← seq [word "let", one g.alternatives, op "="]
  let left ← g.operand structs
  return head ++ [← g.operators left structs .comparison]

/-! ### Ranges -/

/-- What follows an open range and cannot be its upper end. -/
def afterOpenRange : Look := .any [
  .end_, .ops [",", ";", "?", "=>", "=", "+", "/", "%", "^", ">", "<=", "!=", "-=", "*=", "&=",
    "|=", "<<="],
  .and (.op ".") (.not (.op "..")), .word "as"]

/-- The level of the operator that follows. -/
def binaryOperators : List (String × Level) :=
  [("+=", .assign), ("-=", .assign), ("*=", .assign), ("/=", .assign), ("%=", .assign),
   ("^=", .assign), ("&=", .assign), ("|=", .assign), ("<<=", .assign), (">>=", .assign),
   ("&&", .and), ("||", .or), ("<<", .shift), (">>", .shift), ("==", .comparison),
   ("<=", .comparison), ("!=", .comparison), (">=", .comparison), ("+", .sum), ("-", .sum),
   ("*", .product), ("/", .product), ("%", .product), ("^", .bitXor), ("&", .bitAnd),
   ("|", .bitOr), ("<", .comparison), (">", .comparison)]

def binaryOperator? (trees : List Tree) : Option (String × Level) :=
  binaryOperators.find? fun (text, _) => Look.op text trees

/-- An equals sign that assigns. -/
def assignAhead : Look := .and (.op "=") (.not (.op "=>"))

def nextLevel (trees : List Tree) : Level :=
  match binaryOperator? trees with
  | some (_, level) => level
  | none =>
    if assignAhead trees then .assign
    else if Look.op ".." trees then .range
    else if Look.word "as" trees then .cast
    else .jump

/-- Operators behind a right operand that belong to it, because they bind tighter than
`level`; assignments also group to the right. -/
def tighterOperators (g : Rules) (structs : Bool) (level : Level) :
    (bound : Nat) → Node → Reader Node
  | 0, right => return right
  | bound + 1, right => do
    let trees := (← stream).rest
    let next := nextLevel trees
    if next.tighter level || (next == .assign && level == .assign) then
      let longer ← g.operators right structs next
      if (← stream).rest.length == trees.length then return longer
      else tighterOperators g structs level bound longer
    else return right

/-- The right operand of an operator of the given level. -/
def rightOperand (g : Rules) (structs : Bool) (level : Level) : Reader Node := do
  let right ← g.operand structs
  tighterOperators g structs level ((← stream).rest.length + 1) right

/-- The upper end of a range; only a range that includes it must have one. -/
def rangeEnd (g : Rules) (structs closed : Bool) : Rule := do
  let stops := if structs then afterOpenRange else .or afterOpenRange .brace
  if !closed && (← look stops) then empty else one (rightOperand g structs .range)

def rangeFrom (g : Rules) (structs : Bool) (lower : List Node) : Reader Node := do
  let (closed, sign) ← rangeOperator false
  return .phrase .range (lower ++ sign ++ (← rangeEnd g structs closed))

/-! ### Atoms -/

def closureStart : Look := .any [
  .op "|", .word "move", closureBinderAhead,
  .and (.word "const") (.not (.second .brace)), .word "static",
  .and (.word "async") (.second (.or (.op "|") (.word "move")))]

def asyncBlockStart : Look :=
  .and (.word "async") (.or (.second .brace) (.and (.second (.word "move")) (.third .brace)))

def builtinStart : Look := .and (.word "builtin") (.second (.op "#"))

def pathStart : Look := .or valuePathStart (.and (.word "try") (.second (.ops ["!", "::"])))

def atom (g : Rules) (structs : Bool) : Reader Node := do
  if ← look .literal then node .plain literal
  else if ← look asyncBlockStart then
    node .plain (seq [word "async", optionalWord "move", plainBlock g])
  else if ← look closureStart then node .plain (closure g structs)
  else if ← look builtinStart then
    node .unread (asWritten (seq [word "builtin", op "#", identifier,
      do return [.token (← treeIf .paren)]]))
  else if ← look pathStart then pathExpression g structs
  else if ← look .paren then parenExpression g
  else if ← look (.word "break") then node .plain (breakExpression g structs)
  else if ← look (.word "continue") then node .plain (seq [word "continue", optionalLifetime])
  else if ← look (.word "return") then
    node .plain (seq [word "return", onlyIf expressionStart (one (g.expression structs))])
  else if ← look (.word "become") then
    node .unread (asWritten (seq [word "become", one (g.expression true)]))
  else if ← look .bracket then node .plain (arrayExpression g)
  else if ← look (.word "let") then node .plain (letExpression g structs)
  else if ← look (.word "yield") then
    node .plain (seq [word "yield", onlyIf expressionStart (one (g.expression true))])
  else if ← look (.op "..") then rangeFrom g structs []
  else if ← look (.word "_") then node .plain (word "_")
  else node .blockLike (choose (blockLike g))

end CalleeFirst.Grammar
