import CalleeFirst.Fault

/-! Batches that can be ordered.

Ids and source indices are distinct, and every member that can be called has a
name. Declarations are checked one after the other, so the first of them that breaks
a rule is the one reported. -/
namespace CalleeFirst.Batch

/-- `ids` and `indices` are those of the declarations before. -/
def checkAfter (ids indices : List Nat) : List Declaration → Except Defect Unit
  | [] => .ok ()
  | d :: rest =>
    if d.id ∈ ids then .error (.duplicateId d.id)
    else if d.sourceIndex ∈ indices then .error (.duplicateIndex d.sourceIndex d.name)
    else if d.callable && d.name.isEmpty then .error (.emptyName d.id)
    else checkAfter (d.id :: ids) (d.sourceIndex :: indices) rest

def check (batch : List Declaration) : Except Defect Unit := checkAfter [] [] batch

end CalleeFirst.Batch
