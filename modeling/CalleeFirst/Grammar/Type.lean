import CalleeFirst.Grammar.Attribute

/-! Paths, bounds and types.

A type that starts with a path may turn out to be a macro or, where a plus sign is
allowed, a sum of bounds. A type in parentheses is a tuple, a bound of such a sum, or
just that type. -/
namespace CalleeFirst.Grammar

open Reader Rule
open Syntax (ArgumentRole Form Node PathRole)

/-! ### Generic arguments and paths -/

/-- A block with its attributes. -/
def blockBody (g : Rules) : Rule := braces (seq [innerAttributes g, g.statements])

/-- A constant as a generic argument: a literal, an identifier, or a block. -/
def constantArgument (g : Rules) : Rule :=
  choose [(.literal, literal), (.identifier, identifier), (.brace, blockBody g)]

def boundNodes (g : Rules) (capturing constant : Bool) : Rule :=
  return (← g.bound capturing constant).2

/-- A path that is one segment can be the name of a binding or of a constraint. -/
def genericArgument (g : Rules) : Reader (ArgumentRole × List Node) := do
  if ← look (.and .lifetime (.not (.second (.op "+")))) then return (.lifetime, ← lifetime)
  if ← look (.or .literal .brace) then return (.other, ← constantArgument g)
  let type ← g.type true
  match type with
  | .phrase (.path .type false) [.phrase (.segment _) _] =>
    if ← look (.op "=") then
      let sign ← op "="
      if ← look (.or .literal .brace) then return (.other, type :: sign ++ (← constantArgument g))
      else return (.other, type :: sign ++ [← g.type true])
    else if ← look (.op ":") then
      let sign ← op ":"
      return (.other, type :: sign ++ (← chain (.ops [",", ">"]) (boundNodes g false true) "+"))
    else return (.type, [type])
  | _ => return (.type, [type])

def genericArguments (g : Rules) : Reader Node := do
  let front ← seq [optionalOp "::", op "<"]
  let arguments ← repeated do
    if ← look (.op ">") then return ([], false)
    let (role, parts) ← genericArgument g
    if ← look (.op ">") then return ([Node.phrase (.argument role) parts], false)
    return ([Node.phrase (.argument role) (parts ++ (← op ","))], true)
  return .phrase .arguments (front ++ arguments ++ (← op ">"))

/-- A segment of a path. In an expression arguments need a path separator before them. -/
def pathSegment (g : Rules) (inExpression : Bool) : Rule := do
  if ← look (.words ["super", "self", "crate", "try"]) then
    let (name, node) ← takeWord
    return [.phrase (.segment name) [node]]
  let (name, node) ← wordIf (.or (.word "Self") .identifier)
  let opens := if inExpression then Look.none else .and (.op "<") (.not (.op "<="))
  if ← look (.or opens (.and (.op "::") (.third (.op "<")))) then
    return [.phrase (.segment name) [node, ← genericArguments g]]
  else return [.phrase (.segment name) [node]]

def path (g : Rules) (inExpression : Bool) : Rule :=
  seq [optionalOp "::", pathSegment g inExpression,
    whileLook (.and (.op "::") (.not (.third .paren)))
      (seq [op "::", pathSegment g inExpression])]

/-- A path that may start with a type in angle brackets; returns whether it does. -/
def qualifiedPath (g : Rules) (inExpression : Bool) : Reader (Bool × List Node) := do
  if ← look (.op "<") then
    let parts ← seq [op "<", one (g.type true),
      onlyIf (.word "as") (seq [word "as", path g false]), op ">", op "::",
      pathSegment g inExpression,
      whileLook (.op "::") (seq [op "::", pathSegment g inExpression])]
    return (true, parts)
  else return (false, ← path g inExpression)

/-! ### Bounds -/

def lifetimeBinder (g : Rules) : Rule :=
  seq [word "for", op "<", upTo (.op ">") (seq [outerAttributes g, lifetime]) ",", op ">"]

def optionalBinder (g : Rules) : Rule := onlyIf (.word "for") (lifetimeBinder g)

def returnType (g : Rules) (plus : Bool) : Rule :=
  onlyIf (.op "->") (seq [op "->", one (g.type plus)])

/-- Arguments and result of a function trait. -/
def functionArguments (g : Rules) : Rule :=
  seq [parens (commas (one (g.type true))), returnType g false]

/-- Whether the last segment of a path has no arguments. -/
def endsPlain (parts : List Node) : Bool :=
  match parts.getLast? with
  | some (.phrase (.segment _) parts) => parts.length == 1
  | _ => false

/-- A trait with what may stand before it. Returns whether it is constant, which is legal
only where `constant` allows it. A binder and a question mark exclude each other. -/
def traitBound (g : Rules) (constant : Bool) : Reader (Bool × List Node) := do
  let early ← optionalBinder g
  let place ← here
  let isConstant ← look (.or .bracket (.word "const"))
  let mark ← if ← look .bracket then brackets (word "const") else optionalWord "const"
  if isConstant && !constant then failAt place
  let questionPlace ← here
  let question ← optionalOp "?"
  let late ← if early.isEmpty && !question.isEmpty then optionalBinder g else empty
  let parts ← path g false
  let arguments ←
    if endsPlain parts && (← look (.or .paren (.and (.op "::") (.third .paren)))) then
      let _ ← optionalOp "::"
      functionArguments g
    else empty
  if !(early ++ late).isEmpty && !question.isEmpty then failAt questionPlace
  return (isConstant, early ++ mark ++ question ++ .phrase (.path .other false) parts :: arguments)

/-- Parameters that a type captures. -/
def captures : Rule :=
  seq [word "use", op "<",
    upTo (.op ">") (choose [(.lifetime, lifetime), (.or .identifier (.word "Self"), anyWord)]) ",",
    op ">"]

def bound (g : Rules) (capturing constant : Bool) : Reader (BoundKind × List Node) := do
  if ← look .lifetime then return (.lifetime, ← lifetime)
  if ← look (.word "use") then
    let place ← here
    let nodes ← captures
    if capturing then return (.captures, nodes) else failAt place
  let ((isConstant, nodes), raw) ← written do
    if ← look .paren then
      let ((isConstant, inner), span) ← inGroup .paren (traitBound g constant)
      return (isConstant, [Node.group .paren span inner])
    else traitBound g constant
  return (.trait, if isConstant then raw else nodes)

/-- What a bound behind a plus sign starts with. -/
def boundStart : Look := Look.any [.anyWord, .op "::", .op "?", .lifetime, .paren]

/-- Bounds with plus signs between them, of which one must be a trait; if none is, the
failure is at `place`. -/
def objectBounds (g : Rules) (place : Lexeme.Position) (plus capturing constant : Bool) : Rule := do
  let starts := if constant then .or boundStart (.or .bracket (.word "const")) else boundStart
  let bounds ← repeated do
    let (kind, nodes) ← g.bound capturing constant
    if plus && (← look (.op "+")) then
      let sign ← op "+"
      return ([(kind, nodes ++ sign)], ← look starts)
    else return ([(kind, nodes)], false)
  if bounds.any fun (kind, _) => kind == .trait then return bounds.flatMap Prod.snd
  else failAt place

/-- Further bounds behind the first of a sum. -/
def moreBounds (g : Rules) : Rule :=
  whileLook (.op "+") (seq [op "+", boundNodes g false false])

/-! ### Function pointers -/

/-- The calling convention of a function. -/
def optionalConvention : Rule := onlyIf (.word "extern") (seq [word "extern", onlyIf .text text])

/-- A name with a colon behind it, but no path separator. -/
def namedAhead : Look := .and (.second (.op ":")) (.not (.second (.op "::")))

def mutableSelf : Look := .and (.word "mut") (.second (.word "self"))

/-- A parameter of a function pointer: a type, perhaps with a name. The first may be the
receiver. -/
def pointerParameter (g : Rules) (first : Bool) : Rule := do
  if first && (← look mutableSelf) then
    asWritten do
      let _ ← word "mut"
      if ← look namedAhead then seq [word "self", op ":", one (g.type true)] else word "self"
  else
    let receiver ← if first then look (.word "self") else pure false
    let name := Look.any [.identifier, .word "_", if first then .word "self" else .none]
    let named ← onlyIf (.and name namedAhead) (seq [anyWord, op ":"])
    if first && !(receiver && !named.isEmpty) && (← look mutableSelf) then
      return named ++ (← seq [word "mut", word "self"])
    else return named ++ [← g.type true]

/-- Three dots for any number of further parameters, perhaps with a name. -/
def pointerVariadic : Rule :=
  seq [onlyIf (.or .identifier (.word "_")) (seq [anyWord, op ":"]), op "...", optionalOp ","]

def variadicAhead : Look :=
  .or (.op "...")
    (Look.and (.or .identifier (.word "_")) (.and (.second (.op ":")) (.third (.op "..."))))

/-- A parameter with its comma, and whether another may follow. -/
def pointerItem (g : Rules) (first : Bool) : Reader (List Node × Bool) := do
  if ← look .end_ then return ([], false)
  let attributes ← outerAttributes g
  if ← look variadicAhead then return (attributes ++ (← pointerVariadic), false)
  let parameter ← pointerParameter g first
  if ← look .end_ then return (attributes ++ parameter, false)
  return (attributes ++ parameter ++ (← op ","), true)

def pointerParameters (g : Rules) : Rule := do
  let (first, more) ← pointerItem g true
  if more then return first ++ (← repeated (pointerItem g false)) else return first

def functionPointer (g : Rules) : Rule :=
  seq [optionalWord "unsafe", optionalConvention, word "fn", parens (pointerParameters g),
    returnType g false]

/-! ### Types -/

/-- What stands between the parentheses of a type. -/
inductive ParenContent where
  | tuple
  /-- Bounds that start with a lifetime. -/
  | bounds
  /-- A trait with a question mark. -/
  | maybe
  | type (inner : Node)

def parenContent (g : Rules) : Reader (ParenContent × List Node) := do
  if ← look .end_ then return (.tuple, [])
  if ← look .lifetime then return (.bounds, ← objectBounds g (← here) true false false)
  if ← look (.op "?") then return (.maybe, (← traitBound g false).2)
  let first ← g.type true
  if ← look (.op ",") then
    let comma ← op ","
    return (.tuple, first :: comma ++ (← commas (one (g.type true))))
  return (.type first, [first])

/-- Whether a type in parentheses can be the first bound of a sum. -/
def canBeBound : Node → Bool
  | .phrase (.path .type false) _ => true
  | .phrase .loneBound _ => true
  | _ => false

def parenType (g : Rules) (plus : Bool) : Reader Node := do
  let ((content, inner), span) ← inGroup .paren (parenContent g)
  let whole := Node.group .paren span inner
  match content with
  | .tuple | .bounds => return .phrase .plain [whole]
  | .maybe =>
    let more ← moreBounds g
    return .phrase (if more.isEmpty then .loneBound else .plain) (whole :: more)
  | .type first =>
    if plus && canBeBound first then return .phrase .plain (whole :: (← moreBounds g))
    else return .phrase .plain [whole]

/-- A type that starts with a path. -/
def pathType (g : Rules) (binder : List Node) (plus : Bool) : Reader Node := do
  let (qualified, parts) ← qualifiedPath g false
  if qualified then return .phrase (.path .type true) parts
  if Node.isPlainPath parts && (← look bangAhead) then
    return ← invocation g [.phrase (.path .other false) parts]
  if binder.isEmpty && !(plus && (← look (.op "+"))) then return .phrase (.path .type false) parts
  let more ← if plus then repeated do
      if ← look (.op "+") then
        let sign ← op "+"
        if ← look boundStart then return (sign ++ (← boundNodes g false false), true)
        else return (sign, false)
      else return ([], false)
    else empty
  let first := binder ++ [.phrase (.path .other false) parts]
  return .phrase (if more.isEmpty then .loneBound else .plain) (first ++ more)

def objectType (g : Rules) (plus : Bool) : Reader Node := do
  let place ← here
  let ((star, nodes), raw) ← written do
    let keyword ← word "dyn"
    let star ← optionalOp "*"
    return (!star.isEmpty, keyword ++ (← objectBounds g place plus false false))
  return .phrase .plain (if star then raw else nodes)

def type (g : Rules) (plus : Bool) : Reader Node := do
  let binder ← optionalBinder g
  let pathWords := Look.or .identifier (.words ["super", "self", "Self", "crate"])
  let pointerWords := Look.words ["fn", "unsafe", "extern"]
  if !binder.isEmpty && !(← look (.or pathWords pointerWords)) then failHere
  if ← look .paren then parenType g plus
  else if ← look pointerWords then return .phrase .plain (binder ++ (← functionPointer g))
  else if ← look (.or pathWords (.ops ["::", "<"])) then pathType g binder plus
  else if ← look (.word "dyn") then objectType g plus
  else
    let place ← here
    let sole := one (g.type true)
    node .plain (choose [
      (.bracket, brackets (seq [sole, onlyIf (.op ";") (seq [op ";", one (g.expression true)])])),
      (.op "*", seq [op "*", choose [(.word "const", word "const"), (.word "mut", word "mut")],
        one (g.type false)]),
      (.op "&", seq [op "&", optionalLifetime, optionalWord "mut", one (g.type false)]),
      (.op "!", op "!"),
      (.word "impl", seq [word "impl", objectBounds g place plus true true]),
      (.word "_", word "_"),
      (.lifetime, objectBounds g place true false false)])

end CalleeFirst.Grammar
