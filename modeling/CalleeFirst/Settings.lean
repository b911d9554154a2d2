import CalleeFirst.Collation

/-! What the user may choose about an ordering. -/
namespace CalleeFirst

/-- Where members that are not called go. -/
inductive Placement where
  | leading
  | trailing
  deriving Repr, DecidableEq

namespace Placement

def name : Placement → String
  | leading => "leading"
  | trailing => "trailing"

def ofName? (text : String) : Option Placement :=
  [leading, trailing].find? (·.name == text)

end Placement

structure Settings where
  /-- More visible members first. -/
  groupByVisibility : Bool := true
  collation : Collation := .natural
  others : Placement := .leading
  deriving Repr, DecidableEq

end CalleeFirst
