import CalleeFirst.Declaration
import CalleeFirst.Settings

/-! The order of declarations when no call decides.

`Settings.compareDeclarations` breaks every tie: it answers "equal" only for
declarations of one source index. Members that are not called keep their order
among themselves and stand on one side of all others. -/
namespace CalleeFirst

namespace Settings

/-- How a member that is not called compares with one that is. -/
def otherFirst (s : Settings) : Ordering :=
  match s.others with
  | .leading => .lt
  | .trailing => .gt

/-- Parameter by parameter; of two lists that agree so far the shorter comes first. -/
def compareParameters (s : Settings) (a b : List String) : Ordering :=
  List.compareLex s.collation.compareNames a b

def compareMembers (s : Settings) (a b : Declaration) : Ordering :=
  (if s.groupByVisibility then compare a.visibilityRank b.visibilityRank else .eq).then <|
    (s.collation.compareNames a.name b.name).then <|
      (s.compareParameters a.parameters b.parameters).then <|
        compare a.sourceIndex b.sourceIndex

def compareDeclarations (s : Settings) (a b : Declaration) : Ordering :=
  match a.callable, b.callable with
  | false, false => compare a.sourceIndex b.sourceIndex
  | false, true => s.otherFirst
  | true, false => s.otherFirst.swap
  | true, true => s.compareMembers a b

/-- The indices of a batch in comparison order; ties keep their order. -/
def sortedIndices (s : Settings) (batch : List Declaration) : List Nat :=
  (batch.zipIdx.mergeSort fun a b => (s.compareDeclarations a.1 b.1).isLE).map Prod.snd

/-- `(ranks batch)[i]` is the place of declaration `i` in comparison order. -/
def ranks (s : Settings) (batch : List Declaration) : List Nat :=
  let sorted := s.sortedIndices batch
  (List.range batch.length).map sorted.idxOf

end Settings

end CalleeFirst
