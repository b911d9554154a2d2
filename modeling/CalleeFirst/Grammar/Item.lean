import CalleeFirst.Grammar.Member
import CalleeFirst.Grammar.Statement

/-! Items.

Functions and implementations are scopes of their own. An item that is legal only as the
input of a macro is kept as it is written. -/
namespace CalleeFirst.Grammar

open Lexeme (Tree)
open Reader Rule
open Syntax (Block Item Node)

/-- A visibility as a part of an item. -/
def visibilityNodes : Rule := return (← visibility).2

/-- An item that is kept as it is written unless it is legal. -/
def ifLegal (reader : Reader (Bool × List Node)) : Reader Node := do
  let ((isLegal, nodes), raw) ← written reader
  return if isLegal then .phrase .plain nodes else .phrase .unread raw

/-! ### Data types -/

/-- A field with a name. An unnamed field may be a struct or union without name. -/
def namedField (g : Rules) (fields : Rule) : Rule := do
  let head ← seq [outerAttributes g, visibilityNodes]
  let unnamed ← look (.word "_")
  let name ← seq [if unnamed then anyWord else identifier, op ":"]
  let inline := Look.or (.word "struct") (.and (.word "union") (.second .brace))
  if unnamed && (← look inline) then return head ++ name ++ (← seq [anyWord, fields])
  else return head ++ name ++ [← g.type true]

/-- Fields with names; `depth` bounds how deep structs without name may stand in one
another. -/
def namedFieldsUpTo (g : Rules) : (depth : Nat) → Rule
  | 0 => failHere
  | depth + 1 => braces (commas (namedField g (namedFieldsUpTo g depth)))

def namedFields (g : Rules) : Rule := do
  namedFieldsUpTo g (Lexeme.weight (← stream).rest + 1)

def tupleFields (g : Rules) : Rule :=
  parens (commas (seq [outerAttributes g, visibilityNodes, one (g.type true)]))

def structItem (g : Rules) : Rule := do
  let head ← seq [visibilityNodes, word "struct", identifier, optionalGenerics g]
  let early ← optionalWhere g
  if early.isEmpty && (← look .paren) then
    return head ++ (← seq [tupleFields g, optionalWhere g, op ";"])
  else return head ++ early ++ (← choose [(.brace, namedFields g), (.op ";", op ";")])

def variant (g : Rules) : Rule :=
  seq [outerAttributes g, visibilityNodes, identifier,
    choose [(.brace, namedFields g), (.paren, tupleFields g), (fun _ => true, empty)],
    onlyIf (.op "=") (seq [op "=", one (g.expression true)])]

def enumItem (g : Rules) : Rule :=
  seq [visibilityNodes, word "enum", identifier, optionalGenerics g, optionalWhere g,
    braces (commas (variant g))]

def unionItem (g : Rules) : Rule :=
  seq [visibilityNodes, word "union", identifier, optionalGenerics g, optionalWhere g,
    namedFields g]

/-! ### Traits -/

/-- A function of a trait, with or without a body. -/
def traitFunction (g : Rules) : Rule := do
  let (_, nodes) ← signature g false
  return nodes ++ (← choose [(.brace, blockBody g), (.op ";", op ";")])

/-- A constant of a trait, behind whose keyword a function could go on as well. -/
def traitConstant (g : Rules) : Reader Node := do
  if ← look (.second (.or .identifier (.word "_"))) then
    ifLegal do
      let found ← constantDefinition g
      return (found.plain, found.nodes)
  else if ← look (.second (.words ["async", "unsafe", "extern", "fn"])) then
    node .plain (traitFunction g)
  else
    let _ ← word "const"
    failHere

/-- A member of a trait. With a visibility or as a default it is the input of a macro. -/
def traitMember (g : Rules) : Rule := do
  let attributes ← outerAttributes g
  let kind ← ifLegal do
    let head ← seq [visibilityNodes, optionalWord "default"]
    let kind ←
      if ← look (signatureAhead false) then node .plain (traitFunction g)
      else if ← look (.word "const") then traitConstant g
      else if ← look (.word "type") then
        pure (.phrase .plain (← aliasDefinition g .afterValue).nodes)
      else if head.isEmpty && (← look macroStart) then pure (.phrase .plain (← macroItem g).2)
      else failHere
    return (head.isEmpty, [kind])
  return [.attributedItem attributes kind]

/-- The rest of a trait behind its parameters. -/
def traitRest (g : Rules) : Rule :=
  seq [onlyIf (.op ":") (seq [op ":",
      upTo (.or (.word "where") .brace) (boundNodes g false true) "+"]),
    optionalWhere g, braces (seq [innerAttributes g, untilEnd (traitMember g)])]

/-- A trait with words before its keyword. -/
def qualifiedTrait (g : Rules) : Rule :=
  seq [visibilityNodes, optionalWord "unsafe", optionalWord "auto", word "trait", identifier,
    optionalGenerics g, traitRest g]

/-- A trait, or a name for a sum of bounds. -/
def traitItem (g : Rules) : Rule :=
  seq [visibilityNodes, word "trait", identifier, optionalGenerics g, choose [
    (.any [.brace, .op ":", .word "where"], traitRest g),
    (.op "=", seq [op "=", upTo (.or (.word "where") (.op ";")) (boundNodes g false false) "+",
      optionalWhere g, op ";"])]]

/-! ### Foreign items -/

def foreignStatic (g : Rules) : Reader Node := ifLegal do
  let head ← visibilityNodes
  let safety ← onlyIf (.words ["unsafe", "safe"]) anyWord
  let type ← seq [word "static", optionalWord "mut", identifier, op ":", one (g.type true)]
  let value ← onlyIf (.op "=") (seq [op "=", one (g.expression true)])
  return (safety.isEmpty && value.isEmpty, head ++ safety ++ type ++ value ++ (← op ";"))

def foreignFunction (g : Rules) : Reader Node := ifLegal do
  let head ← visibilityNodes
  let safe ← look (.word "safe")
  let (_, nodes) ← signature g true
  if ← look .brace then return (false, head ++ nodes ++ (← blockBody g))
  else return (!safe, head ++ nodes ++ (← op ";"))

def foreignAlias (g : Rules) : Reader Node := ifLegal do
  let head ← visibilityNodes
  let found ← aliasDefinition g .either
  return (!found.bounded && !found.defined, head ++ found.nodes)

/-- The visibility ahead and what stands behind it. -/
def behindVisibility : Reader (Syntax.VisibilityMark × List Tree) := peek do
  let (mark, _) ← visibility
  return (mark, (← stream).rest)

def foreignItem (g : Rules) : Rule := do
  let attributes ← outerAttributes g
  let (mark, rest) ← behindVisibility
  let isStatic := Look.or (.word "static")
    (.and (.words ["unsafe", "safe"]) (.second (.word "static")))
  let kind ←
    if signatureAhead true rest then foreignFunction g
    else if isStatic rest then foreignStatic g
    else if Look.word "type" rest then foreignAlias g
    else if mark = .absent && macroStart rest then pure (.phrase .plain (← macroItem g).2)
    else failBefore rest
  return [.attributedItem attributes kind]

def foreignBlock (g : Rules) : Rule :=
  seq [optionalWord "unsafe", word "extern", onlyIf .text text,
    braces (seq [innerAttributes g, untilEnd (foreignItem g)])]

def externCrate : Rule :=
  seq [visibilityNodes, word "extern", word "crate",
    choose [(.word "self", anyWord), (fun _ => true, identifier)],
    onlyIf (.word "as")
      (seq [word "as", choose [(.word "_", anyWord), (fun _ => true, identifier)]]),
    op ";"]

/-! ### Use declarations -/

/-- The trees between braces. Each may start at the crate root where `root` allows it. -/
def useGroup (g : Rules) (root : Bool) : Reader (Bool × List Node) := do
  let (found, span) ← inGroup .brace <| repeated do
    if ← look .end_ then return ([], false)
    let sign ← if root then optionalOp "::" else empty
    let (rooted, nodes) ← g.useTree (root && sign.isEmpty)
    let entry := (rooted || !sign.isEmpty, sign ++ nodes)
    if ← look .end_ then return ([entry], false)
    let comma ← op ","
    return ([entry, (false, comma)], true)
  return (found.any Prod.fst, [.group .brace span (found.flatMap Prod.snd)])

def useTree (g : Rules) (root : Bool) : Reader (Bool × List Node) := do
  if ← look (.or .identifier (.words ["self", "super", "crate", "try"])) then
    let name ← anyWord
    if ← look (.op "::") then
      let sign ← op "::"
      let (rooted, nodes) ← g.useTree false
      return (rooted, name ++ sign ++ nodes)
    else
      let rename ← onlyIf (.word "as")
        (seq [word "as", choose [(.identifier, identifier), (.word "_", anyWord)]])
      return (false, name ++ rename)
  else if ← look (.op "*") then return (false, ← op "*")
  else useGroup g root

def useItem (g : Rules) : Reader Node := ifLegal do
  let head ← seq [visibilityNodes, word "use"]
  let sign ← optionalOp "::"
  let (rooted, nodes) ← g.useTree sign.isEmpty
  return (!rooted, head ++ sign ++ nodes ++ (← op ";"))

/-! ### Other items -/

/-- A function; without a body it is the input of a macro. -/
def functionItem (g : Rules) : Rule := do
  let head ← visibilityNodes
  let (_, nodes) ← signature g false
  return head ++ nodes ++ (← choose [(.op ";", op ";"), (fun _ => true, blockBody g)])

/-- A variable of the program; without type or value it is the input of a macro. -/
def staticItem (g : Rules) : Reader Node := ifLegal do
  let head ← seq [visibilityNodes, word "static", optionalWord "mut", identifier]
  let value := seq [op "=", one (g.expression true), op ";"]
  if ← look (.op "=") then return (false, head ++ (← value))
  let type ← seq [op ":", one (g.type true)]
  if ← look (.op ";") then return (false, head ++ type ++ (← op ";"))
  return (true, head ++ type ++ (← value))

def constantItem (g : Rules) : Reader Node := ifLegal do
  let head ← visibilityNodes
  let found ← constantDefinition g
  return (found.defined && found.plain, head ++ found.nodes)

def aliasItem (g : Rules) : Reader Node := ifLegal do
  let head ← visibilityNodes
  let found ← aliasDefinition g .beforeValue
  return (found.defined && !found.bounded, head ++ found.nodes)

/-- A module; the blocks of its items are its own. -/
def moduleItem (g : Rules) : Reader Item := do
  let head ← seq [visibilityNodes, optionalWord "unsafe", word "mod",
    choose [(.word "try", anyWord), (fun _ => true, identifier)]]
  if ← look (.op ";") then return { node := .phrase .plain (head ++ (← op ";")) }
  let ((attributes, items), span) ← inGroup .brace do
    let attributes ← innerAttributes g
    return (attributes, ← Reader.untilEnd do g.item (← outerAttributes g))
  return { node := .phrase .plain
             (head ++ [.group .brace span (attributes ++ items.map Item.node)])
           blocks := items.flatMap Item.blocks }

def implementationItem (g : Rules) : Reader Item := do
  let (block, raw) ← written (implementation g)
  return { node := .phrase .nested raw, blocks := block.toList }

/-- A macro by example of the second kind. -/
def macroDefinition : Rule :=
  seq [visibilityNodes, word "macro", identifier, onlyIf .paren anyGroup,
    do return [.token (← treeIf .brace)]]

/-- A macro among items, perhaps with a name behind the exclamation mark. -/
def namedMacro (g : Rules) : Reader Node := do
  let path ← plainPath
  let bang ← op "!"
  let name ← choose [(.word "try", anyWord), (.identifier, identifier), (fun _ => true, empty)]
  let body ← treeIf (Look.any [.paren, .bracket, .brace])
  let semicolon ← if body.isBrace then empty else op ";"
  return .phrase .plain
    (.invocation body.isBrace (path ++ bang ++ name ++ [.token body]) (bodyArguments g body)
      :: semicolon)

/-- Which item starts with the keyword for something foreign. -/
def externItem (g : Rules) (rest : List Tree) : Rule := do
  let behind := rest.drop 1
  if Look.word "crate" behind then externCrate
  else if Look.brace behind then foreignBlock g
  else if Look.text behind then
    if Look.brace (behind.drop 1) then foreignBlock g else failBefore (behind.drop 1)
  else failBefore behind

def autoTrait : Look := .and (.word "auto") (.second (.word "trait"))

/-- An item behind its attributes. -/
def item (g : Rules) (attributes : List Node) : Reader Item := do
  let (mark, rest) ← behindVisibility
  let simple (reader : Reader Node) : Reader Item := return { node := ← reader }
  let starts (question : Look) : Bool := question rest
  let isUnsafe := starts (.word "unsafe")
  let behind := if isUnsafe then rest.drop 1 else rest
  let found ←
    if starts (signatureAhead false) then simple (node .nested (functionItem g))
    else if starts (.word "extern") then simple (node .plain (externItem g rest))
    else if starts (.word "use") then simple (useItem g)
    else if starts (.word "static") then simple (staticItem g)
    else if starts (.word "const") then simple (constantItem g)
    else if isUnsafe && Look.or (.word "trait") autoTrait behind then
      simple (node .plain (qualifiedTrait g))
    else if isUnsafe && Look.word "impl" behind then implementationItem g
    else if isUnsafe && Look.word "extern" behind then simple (node .plain (foreignBlock g))
    else if Look.word "mod" behind then moduleItem g
    else if isUnsafe then failBefore behind
    else if starts (.word "type") then simple (aliasItem g)
    else if starts (.word "struct") then simple (node .plain (structItem g))
    else if starts (.word "enum") then simple (node .plain (enumItem g))
    else if starts (.and (.word "union") (.second .identifier)) then
      simple (node .plain (unionItem g))
    else if starts (.word "trait") then simple (node .plain (traitItem g))
    else if starts autoTrait then simple (node .plain (qualifiedTrait g))
    else if starts (.or (.word "impl") (.and (.word "default") (.not (.second (.op "!"))))) then
      implementationItem g
    else if starts (.word "macro") then simple (node .unread (asWritten macroDefinition))
    else if mark = .absent && starts macroStart then simple (namedMacro g)
    else failBefore rest
  return { found with node := .attributedItem attributes found.node }

end CalleeFirst.Grammar
