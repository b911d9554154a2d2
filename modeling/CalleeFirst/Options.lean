import CalleeFirst.Settings
import CalleeFirst.Visibility

/-! Everything a user may set. -/
namespace CalleeFirst

structure Options where
  ordering : Settings := {}
  visibilityOrder : VisibilityOrder := .standard
  deriving Repr, DecidableEq

end CalleeFirst
