import CalleeFirst.ByteRange
import CalleeFirst.Declaration

/-! Why an ordering has no result. -/
namespace CalleeFirst

/-- What is wrong with the input of an ordering or of a remapping. -/
inductive Defect where
  | duplicateId (id : Nat)
  | duplicateIndex (index : Nat) (name : String)
  | emptyName (id : Nat)
  | permutationLength (entries ranges : Nat)
  | permutationEntry (entry : Nat)
  | reversedRange (range : ByteRange)
  | overlappingRanges (first second : ByteRange)
  /-- What a host reports in its own words. -/
  | reported (text : String)
  deriving Repr, DecidableEq

def Defect.message : Defect → String
  | duplicateId id => s!"duplicate declaration id {Declaration.idText id}"
  | duplicateIndex index name => s!"duplicate original index {index} (at '{name}')"
  | emptyName id => s!"{Declaration.idText id} has an empty name"
  | permutationLength entries ranges => s!"permutation has {entries} entries for {ranges} ranges"
  | permutationEntry entry => s!"permutation entry {entry} is out of range or repeated"
  | reversedRange range => s!"range {range.text} is reversed"
  | overlappingRanges first second => s!"ranges {first.text} and {second.text} overlap"
  | reported text => text

inductive Fault where
  | invalid (defect : Defect)
  | cancelled
  deriving Repr, DecidableEq

namespace Fault

def message : Fault → String
  | invalid defect => s!"invalid input: {defect.message}"
  | cancelled => "ordering cancelled"

def isCancelled : Fault → Bool
  | cancelled => true
  | invalid _ => false

end Fault

end CalleeFirst
