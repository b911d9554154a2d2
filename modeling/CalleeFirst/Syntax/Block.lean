import CalleeFirst.Syntax.Node

/-! Implementation blocks and their members.

What the grammar keeps of an implementation: the type, the trait if there is one, and
the members in order, each with its place in the text. Of a function it keeps the
signature and the body; of a member that no rule fits only the place. -/
namespace CalleeFirst.Syntax

open Lexeme (Position Span)

/-- How a visibility is written. -/
inductive VisibilityMark where
  | absent
  | everywhere
  /-- `crate` if the scope is the whole crate. -/
  | within (crate : Bool)
  deriving Repr, DecidableEq

structure Signature where
  name : String
  /-- Whether the first parameter is the receiver. -/
  hasReceiver : Bool
  /-- The types of the parameters, the receiver apart. -/
  parameters : List Node
  output : Option Node

inductive MemberKind where
  | function (signature : Signature) (body : List Node)
  | constant (name : String)
  | alias (name : String)
  | invocation (path : List Node)
  /-- A member that is legal only as the input of a macro. -/
  | unknown

structure Member where
  kind : MemberKind
  visibility : VisibilityMark
  span : Span

structure Block where
  selfType : Node
  trait : Option Node
  /-- Where the keyword stands. -/
  start : Position
  /-- Where the inside of the braces starts. -/
  inside : Position
  members : List Member

/-- An item: its nodes, and the implementation blocks in it that are no part of a function
or another block, in order. -/
structure Item where
  node : Node
  blocks : List Block := []

end CalleeFirst.Syntax
