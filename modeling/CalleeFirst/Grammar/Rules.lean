import CalleeFirst.Grammar.Reader
import CalleeFirst.Syntax.Block

/-! The rules that need each other.

Types hold expressions, expressions hold blocks, blocks hold items, and items hold all
of them. A rule of the grammar gets the others as a record, so that every part of the
grammar can be stated on its own; the record itself is tied together in the end. -/
namespace CalleeFirst.Grammar

open Lexeme (Tree)
open Syntax (Item Node)

/-- How tightly an operator binds, from the loosest on. -/
inductive Level where
  | jump
  | assign
  | range
  | or
  | and
  | binding
  | comparison
  | bitOr
  | bitXor
  | bitAnd
  | shift
  | sum
  | product
  | cast
  deriving Repr, DecidableEq, Ord

def Level.tighter (a b : Level) : Bool := Ord.compare a b == .gt

/-- What a bound is. -/
inductive BoundKind where
  | trait
  | lifetime
  /-- A list of captured parameters. -/
  | captures
  deriving Repr, DecidableEq

structure Rules where
  /-- `plus` says whether the type may be a sum of bounds. -/
  type : (plus : Bool) → Reader Node
  /-- A bound. `capturing` says whether it may be a list of captured parameters, and
  `constant` whether it may be constant. -/
  bound : (capturing constant : Bool) → Reader (BoundKind × List Node)
  /-- `structs` says whether a brace behind a path is a part of the expression. -/
  expression : (structs : Bool) → Reader Node
  /-- An expression without operators between two operands. -/
  operand : (structs : Bool) → Reader Node
  /-- The operators behind a left operand, as long as they bind at least like `base`. -/
  operators : (left : Node) → (structs : Bool) → (base : Level) → Reader Node
  /-- An expression that stands as a statement or as the body of a match arm. -/
  standing : Reader Node
  /-- A pattern without alternatives at the top. -/
  pattern : Reader Node
  /-- A pattern with alternatives, perhaps with a bar before the first. -/
  alternatives : Reader Node
  /-- The statements of a block. -/
  statements : Rule
  /-- An item behind its attributes. -/
  item : (attributes : List Node) → Reader Item
  /-- The tree of a use declaration, and whether it names the crate root inside braces;
  `root` says whether it may. -/
  useTree : (root : Bool) → Reader (Bool × List Node)
  /-- The arguments of a macro whose body is a list of expressions. -/
  arguments : List Tree → List Node

end CalleeFirst.Grammar
