import CalleeFirst.Grammar.Expression

/-! Statements.

A statement is a declaration of a variable, an item, a macro, or an expression; which of
them is decided by the first few tokens. An expression that is not a block needs a
semicolon unless it is the last. -/
namespace CalleeFirst.Grammar

open Lexeme (Tree)
open Reader Rule
open Syntax (Node)

/-- Whether an expression needs a semicolon where another statement follows. -/
def needsSemicolon (e : Node) : Bool :=
  match e.bare with
  | .invocation braces _ _ => !braces
  | _ => !isBlockLike e

/-- A variable. An `else` is part of it unless the value ends in a brace. -/
def variableStatement (g : Rules) : Rule := do
  let head ← seq [word "let", one g.pattern, onlyIf (.op ":") (seq [op ":", one (g.type true)])]
  if ← look (.op "=") then
    let value ← seq [op "=", one (g.expression true)]
    let endsInBrace := (← stream).last.any Tree.isBrace
    let otherwise ←
      if endsInBrace then empty else onlyIf (.word "else") (seq [word "else", plainBlock g])
    return head ++ value ++ otherwise ++ (← op ";")
  else return head ++ (← op ";")

/-- What an item starts with, macros apart. -/
def itemStart : Look := .any [
  .words ["pub", "extern", "use", "fn", "mod", "type", "struct", "enum", "trait", "impl", "macro"],
  .and (.word "crate") (.not (.second (.op "::"))),
  .and (.word "static") (.second (.or (.word "mut") .identifier)),
  .and (.word "const") (.not (.any [.second .brace, .second (.words ["static", "move"]),
    .second (.op "|"),
    .and (.second (.word "async")) (.not (.third (.words ["unsafe", "extern", "fn"])))])),
  .and (.word "unsafe") (.not (.second .brace)),
  .and (.word "async") (.second (.words ["unsafe", "extern", "fn"])),
  .and (.word "union") (.second .identifier),
  .and (.word "auto") (.second (.word "trait")),
  .and (.word "default") (.second (.words ["unsafe", "impl"]))]

/-- What a statement that starts with a macro is. -/
inductive MacroStatement where
  /-- A macro with a name, which is an item. -/
  | item
  /-- A macro with braces that is a statement of its own. -/
  | statement
  | none

/-- Looks behind a path for a macro. With braces it is a statement, unless a dot or a
question mark makes it the start of an expression. -/
def macroAhead : Reader MacroStatement := do
  let behindPath ← ahead do
    let _ ← plainPath
    return (← stream).rest
  match behindPath with
  | .none => return .none
  | some trees =>
    let bang := Look.op "!"
    let named := Look.second (.or .identifier (.word "try"))
    let goesOn := Look.third (.or soleDot (.op "?"))
    if Look.and bang named trees then return .item
    else if Look.and bang (.and (.second .brace) (.not goesOn)) trees then return .statement
    else return .none

/-- A statement, and whether it may be followed by another. -/
def statement (g : Rules) : Reader (Node × Bool) := do
  let attributes ← outerAttributes g
  let leading ← macroAhead
  match leading with
  | .statement =>
    let path ← plainPath
    let whole ← invocation g [.phrase (.path .other false) path]
    return (.phrase .plain (attributes ++ whole :: (← optionalOp ";")), true)
  | _ =>
    if ← look (.word "let") then
      return (.phrase .plain (attributes ++ (← variableStatement g)), true)
    else if (leading matches .item) || (← look itemStart) then
      return ((← g.item attributes).node, true)
    else
      let e ← g.standing
      let semicolon ← optionalOp ";"
      return (.phrase .plain (.attributed attributes e :: semicolon),
        !semicolon.isEmpty || !needsSemicolon e)

/-- The statements of a block; semicolons may stand anywhere between them. -/
def statements (g : Rules) : Rule := repeated do
  let semicolons ← whileLook (.op ";") (op ";")
  if ← look .end_ then return (semicolons, false)
  let (found, complete) ← statement g
  if ← look .end_ then return (semicolons ++ [found], false)
  if !complete then failHere
  return (semicolons ++ [found], true)

end CalleeFirst.Grammar
