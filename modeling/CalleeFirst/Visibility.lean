/-! Visibility classes and their ranking.

A member is public, visible in its crate, visible in some other restricted scope, or
private. Which class comes first is the user's choice: a list of classes, in which a
class that is not listed comes after all that are. -/
namespace CalleeFirst

inductive VisibilityClass where
  | pub
  | crate
  | restricted
  | priv
  deriving Repr, DecidableEq

namespace VisibilityClass

def all : List VisibilityClass := [.pub, .crate, .restricted, .priv]

def name : VisibilityClass → String
  | .pub => "public"
  | .crate => "crate"
  | .restricted => "restricted"
  | .priv => "private"

def ofName? (text : String) : Option VisibilityClass := all.find? (·.name == text)

end VisibilityClass

/-- Classes, most preferred first. -/
abbrev VisibilityOrder := List VisibilityClass

namespace VisibilityOrder

def standard : VisibilityOrder := VisibilityClass.all

/-- The first place of the class, or the length of the list. -/
def rank (order : VisibilityOrder) (c : VisibilityClass) : Nat := order.idxOf c

end VisibilityOrder

end CalleeFirst
