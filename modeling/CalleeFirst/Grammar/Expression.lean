import CalleeFirst.Grammar.Operand

/-! Expressions.

What may follow an atom, what may stand before it, and the operators between operands.
Operators are read by climbing: a loop takes every operator that binds at least like its
base and gives each a right operand that has already taken everything tighter. -/
namespace CalleeFirst.Grammar

open Reader Rule
open Syntax (Node)

/-! ### Behind an atom -/

/-- A dot that is not the start of a range. -/
def soleDot : Look := .and (.op ".") (.not (.op ".."))

/-- Splits a text at every point. -/
def splitAtPoints : List Char → List (List Char)
  | [] => [[]]
  | c :: rest =>
    match splitAtPoints rest with
    | first :: more => if c = '.' then [] :: first :: more else (c :: first) :: more
    | [] => [[c]]

/-- Numbers of nested tuple fields that were scanned as one number with a point. Returns
them, and whether the text ends in a point of its own. -/
def nestedIndices (text : String) : Option (List Nat × Bool) := do
  let parts := splitAtPoints text.toList
  let trailing := parts.getLast? == some []
  let parts := if trailing then parts.dropLast else parts
  let indices ← parts.mapM fun part => fieldIndex? (String.ofList part)
  return (indices, trailing)

/-- The fields that a number with a point stands for, one behind the other. -/
def nestedFields (e : Node) (dot : List Node) (span : Lexeme.Span) : List Nat → Node
  | [] => e
  | index :: rest =>
    let field := Node.phrase .plain (e :: dot ++ [.token (.literal (toString index) span)])
    nestedFields field [.token (.mark '.' false span)] span rest

/-- A field, a method call, or a wait, behind its dot. -/
def afterDot (g : Rules) (e : Node) (dot : List Node) : Reader Node := do
  if ← look (.word "await") then return .phrase .plain (e :: dot ++ (← word "await"))
  let (name, node) ← fieldName
  match name with
  | none => return .phrase .plain (e :: dot ++ [node])
  | some name =>
    let turbofish ← onlyIf (.op "::") (one (genericArguments g))
    if !turbofish.isEmpty || (← look .paren) then
      let arguments ← parens (commas (one (g.expression true)))
      return .methodCall e name (dot ++ node :: turbofish ++ arguments)
    else return .phrase .plain (e :: dot ++ [node])

/-- One thing behind an atom, if there is one. Nothing but a call or an index can stand
behind a range. -/
def trailer (g : Rules) (e : Node) : Reader (Option Node) := do
  if ← look .paren then
    return some (.phrase .plain (e :: (← parens (commas (one (g.expression true))))))
  else if !e.isForm .range && (← look soleDot) then
    let dot ← op "."
    if ← look .real then
      let place ← here
      match ← anyTree with
      | .literal text span =>
        match nestedIndices text with
        | some (indices, false) => return some (nestedFields e dot span indices)
        | some (indices, true) =>
          return some (← afterDot g (nestedFields e dot span indices)
            [.token (.mark '.' false span)])
        | none => failAt place
      | _ => failAt place
    else return some (← afterDot g e dot)
  else if ← look .bracket then
    return some (.phrase .plain (e :: (← brackets (one (g.expression true)))))
  else if !e.isForm .range && (← look (.op "?")) then
    return some (.phrase .plain (e :: (← op "?")))
  else return none

def trailersUpTo (g : Rules) : (bound : Nat) → Node → Reader Node
  | 0, e => return e
  | bound + 1, e => do
    match ← trailer g e with
    | some longer => trailersUpTo g bound longer
    | none => return e

/-- Everything that follows an atom. -/
def trailers (g : Rules) (e : Node) : Reader Node := do
  trailersUpTo g ((← stream).rest.length + 1) e

/-! ### Before an atom -/

/-- A borrow, also of a raw address. -/
def borrow (g : Rules) (structs : Bool) : Rule := do
  let sign ← op "&"
  let raw ← onlyIf (.and (.word "raw") (.second (.words ["mut", "const"]))) (word "raw")
  let mutable ← optionalWord "mut"
  let constant ← if !raw.isEmpty && mutable.isEmpty then word "const" else empty
  return sign ++ raw ++ mutable ++ constant ++ [← g.operand structs]

def operand (g : Rules) (structs : Bool) : Reader Node := do
  let attributes ← outerAttributes g
  if ← look (.op "&") then return .attributed attributes (.phrase .plain (← borrow g structs))
  else if ← look (.ops ["*", "!", "-"]) then
    let sign ← choose [(.op "*", op "*"), (.op "!", op "!"), (.op "-", op "-")]
    return .attributed attributes (.phrase .plain (sign ++ [← g.operand structs]))
  else
    let place ← here
    let e ← trailers g (← atom g structs)
    if !attributes.isEmpty && e.isForm .range then failAt place
    return .attributed attributes e

/-! ### Operators -/

/-- What must not follow a type that a value is cast to. -/
def afterCast : Look := .any [soleDot, .op "?", .bracket, .paren]

def operatorsUpTo (g : Rules) (structs : Bool) (base : Level) : (bound : Nat) → Node → Reader Node
  | 0, left => return left
  | bound + 1, left => do
    if left.isForm .range then return left
    match binaryOperator? (← stream).rest with
    | some (text, level) =>
      if base.tighter level then return left
      if level == .comparison && left.isForm .comparison then failHere
      let sign ← op text
      let right ← rightOperand g structs level
      let form := if level == .comparison then .comparison else .plain
      operatorsUpTo g structs base bound (.phrase form (left :: sign ++ [right]))
    | none =>
      if !base.tighter .assign && (← look assignAhead) then
        let sign ← op "="
        let right ← rightOperand g structs .assign
        operatorsUpTo g structs base bound (.phrase .plain (left :: sign ++ [right]))
      else if !base.tighter .range && (← look (.op "..")) then
        operatorsUpTo g structs base bound (← rangeFrom g structs [left])
      else if !base.tighter .cast && (← look (.word "as")) then
        let cast ← seq [word "as", one (g.type false)]
        if ← look afterCast then failHere
        operatorsUpTo g structs base bound (.phrase .plain (left :: cast))
      else return left

def operators (g : Rules) (left : Node) (structs : Bool) (base : Level) : Reader Node := do
  operatorsUpTo g structs base ((← stream).rest.length + 1) left

def expression (g : Rules) (structs : Bool) : Reader Node := do
  let left ← g.operand structs
  g.operators left structs .jump

/-- An expression that stands as a statement or as the body of a match arm. One that ends
in a block is over there, unless a dot or a question mark follows. -/
def standing (g : Rules) : Reader Node := do
  let attributes ← outerAttributes g
  if ← look (.any ((blockLike g).map Prod.fst)) then
    let block ← node .blockLike (choose (blockLike g))
    if ← look (.or soleDot (.op "?")) then
      let e ← trailers g block
      g.operators (.attributed attributes e) true .jump
    else return .attributed attributes block
  else
    let left ← g.operand true
    g.operators (.attributed attributes left) true .jump

end CalleeFirst.Grammar
