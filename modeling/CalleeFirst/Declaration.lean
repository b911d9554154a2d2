import CalleeFirst.NameSet

/-! Declarations: what the ordering knows about a member of a type.

A batch is a list of declarations. Members that can be called take part in the call
graph; every other member (a constant, an associated type) is anchored, which its
visibility rank says too. -/
namespace CalleeFirst

inductive DeclarationKind where
  | method
  | constructor
  | other
  deriving Repr, DecidableEq

namespace DeclarationKind

def callable : DeclarationKind → Bool
  | method | constructor => true
  | other => false

def name : DeclarationKind → String
  | method => "method"
  | constructor => "constructor"
  | other => "other"

def ofName? (text : String) : Option DeclarationKind :=
  [method, constructor, other].find? (·.name == text)

end DeclarationKind

structure Declaration where
  id : Nat
  kind : DeclarationKind
  name : String
  visibilityRank : Nat
  /-- The types of the parameters, as written. -/
  parameters : List String
  /-- Where the member stands before any ordering. -/
  sourceIndex : Nat
  /-- The names of siblings that the member calls. -/
  calls : NameSet
  deriving DecidableEq

namespace Declaration

/-- The visibility rank of members that are not called. -/
def anchoredRank : Nat := 4294967295

def idText (id : Nat) : String := s!"decl_{id}"

def callable (d : Declaration) : Bool := d.kind.callable

end Declaration

end CalleeFirst
