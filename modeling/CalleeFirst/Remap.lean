import CalleeFirst.Fault

/-! Offsets after a reordering.

Members sit in slots: their ranges, sorted. Reordering puts member `permutation[k]`
into slot `k` and leaves what is between the slots where it is. An offset inside a
member moves with it; any other offset moves by what the slots before it grew or
shrank. Offsets and lengths are words of 64 bits, growth is a signed one. -/
namespace CalleeFirst

/-- The signed word with the same 64 bits. -/
def signedWord (n : Int) : Int := n.bmod 18446744073709551616

/-- Moves an offset, stopping at the ends of the range of words. -/
def moveOffset (offset : Nat) (delta : Int) : Nat :=
  min (offset + delta).toNat 18446744073709551615

structure Remap where
  slots : List ByteRange
  /-- By slot: the member that sits there before the reordering. -/
  owners : List Nat
  /-- By member: where it starts afterwards. -/
  newStart : List Nat
  /-- By slot, and once more for the end: how far the text in front of it moves. -/
  shift : List Int
  deriving Repr, DecidableEq

namespace Remap

/-- The first entry that is no index below `n` or stands in `seen` already. -/
def badEntry? (n : Nat) : (seen permutation : List Nat) → Option Nat
  | _, [] => none
  | seen, entry :: rest =>
    if n ≤ entry || entry ∈ seen then some entry else badEntry? n (entry :: seen) rest

/-- The ranges with their indices, sorted by start and then by end. -/
def sortedSlots (ranges : List ByteRange) : List (ByteRange × Nat) :=
  ranges.zipIdx.mergeSort fun a b =>
    a.1.start < b.1.start || (a.1.start == b.1.start && a.1.stop ≤ b.1.stop)

/-- What is wrong with sorted slots; `before` is the slot in front of them. -/
def slotDefect? (before : Option ByteRange) : List ByteRange → Option Defect
  | [] => none
  | slot :: rest =>
    if slot.stop < slot.start then some (.reversedRange slot)
    else match before with
      | some previous =>
        if slot.start < previous.stop then some (.overlappingRanges previous slot)
        else slotDefect? (some slot) rest
      | none => slotDefect? (some slot) rest

/-- Walks slots and the lengths of the members placed into them: where every placed
member starts, and the shifts. -/
def layOut (shift : Int) : List ByteRange → List Nat → List Nat × List Int
  | slot :: slots, placed :: lengths =>
    let next := signedWord (shift + (signedWord placed - signedWord slot.length))
    let (starts, shifts) := layOut next slots lengths
    (moveOffset slot.start shift :: starts, shift :: shifts)
  | _, _ => ([], [shift])

def ofPermutation (ranges : List ByteRange) (permutation : List Nat) : Except Defect Remap :=
  if permutation.length ≠ ranges.length then
    .error (.permutationLength permutation.length ranges.length)
  else match badEntry? ranges.length [] permutation with
    | some entry => .error (.permutationEntry entry)
    | none =>
      let sorted := sortedSlots ranges
      let slots := sorted.map Prod.fst
      match slotDefect? none slots with
      | some defect => .error defect
      | none =>
        let lengths := permutation.map fun member => (ranges[member]?.map ByteRange.length).getD 0
        let (starts, shift) := layOut 0 slots lengths
        .ok
          { slots
            owners := sorted.map Prod.snd
            newStart := (List.range ranges.length).map fun member =>
              starts.getD (permutation.idxOf member) 0
            shift }

/-- Where an offset of the text before is found in the text after. -/
def apply (r : Remap) (offset : Nat) : Nat :=
  let opened := (r.slots.takeWhile fun slot => slot.start ≤ offset).length
  let between := moveOffset offset (r.shift.getD opened 0)
  match opened with
  | 0 => between
  | last + 1 =>
    match r.slots[last]? with
    | some slot =>
      if slot.has offset then
        r.newStart.getD (r.owners.getD last 0) 0 + (offset - slot.start)
      else between
    | none => between

end Remap

end CalleeFirst
