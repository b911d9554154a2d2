import CalleeFirst.Host
import CalleeFirst.Options
import CalleeFirst.Source.Blocks

/-! Reordering a source text.

Every block is rearranged on its own: the texts of the members move between the slots of
the block, and everything between the slots stays. A block keeps its length, so that
offsets outside of what was rearranged are stable. -/
namespace CalleeFirst.Source

open Lexeme (Position)

/-- Why a source text is not ordered. -/
inductive SourceFault where
  | unreadable (place : Position)
  | ordering (fault : Fault)
  deriving Repr, DecidableEq

def SourceFault.message : SourceFault → String
  | unreadable place => s!"Parse error: {place.text}"
  | ordering fault => fault.message

/-! ### One block -/

/-- The text of a block from `cursor` on, with every slot filled by its new member. -/
def arrange (source : List Char) (ranges : List ByteRange) (cursor : Nat) :
    (slots : List ByteRange) → (permutation : List Nat) → List Char
  | slot :: slots, placed :: rest =>
    Text.slice source ⟨cursor, slot.start⟩
      ++ Text.slice source (ranges.getD placed ⟨0, 0⟩)
      ++ arrange source ranges slot.stop slots rest
  | _, _ => []

/-- A block as a host: it remembers the text that replaces its span. -/
def blockHost (source : List Char) (settings : Settings) (probe : Probe) (b : Block) :
    Host (Option (List Char)) where
  declarations _ := .ok b.declarations
  settings
  ranges _ := some b.ranges
  probe
  apply _ outcome :=
    (.ok (), if outcome.isReordered then
      some (arrange source b.ranges b.span.start b.ranges outcome.permutation) else none)

/-! ### All blocks -/

structure BlockReport where
  label : String
  line : Nat
  /-- Whether the order changed. -/
  moved : Bool
  /-- The names of the members in their new order. -/
  order : List String
  deriving Repr, DecidableEq

structure Edit where
  span : ByteRange
  replacement : List Char
  remap : Remap

structure Reordered where
  text : List Char
  blocks : List BlockReport
  /-- What was rearranged, in order. -/
  edits : List Edit

namespace Reordered

def changed (r : Reordered) : Bool := !r.edits.isEmpty

/-- Where an offset of the source is found in the reordered text. -/
def remap (r : Reordered) (offset : Nat) : Nat :=
  match (r.edits.dropWhile fun edit => edit.span.stop ≤ offset).head? with
  | some edit => if edit.span.has offset then edit.remap.apply offset else offset
  | none => offset

end Reordered

/-- Runs one block: its report, its edit if it changed, and the polls afterwards. -/
def reorderBlock (source : List Char) (settings : Settings) (probe : Probe) (polls : Nat)
    (b : Block) : Except Fault (BlockReport × Option Edit) × Nat :=
  match (blockHost source settings probe b).run none polls with
  | (.error fault, _, polls) => (.error fault, polls)
  | (.ok outcome, replacement, polls) =>
    let report :=
      { label := b.label, line := b.line, moved := outcome.isReordered
        order := outcome.permutation.map b.displayName }
    let edit := match replacement, outcome.remap with
      | some text, some remap => some ⟨b.span, text, remap⟩
      | _, _ => none
    (.ok (report, edit), polls)

/-- Runs the blocks in order; the first fault ends it. -/
def reorderBlocks (source : List Char) (settings : Settings) (probe : Probe) :
    (polls : Nat) → List Block → Except Fault (List (BlockReport × Option Edit)) × Nat
  | polls, [] => (.ok [], polls)
  | polls, b :: rest =>
    match reorderBlock source settings probe polls b with
    | (.error fault, polls) => (.error fault, polls)
    | (.ok first, polls) =>
      match reorderBlocks source settings probe polls rest with
      | (.error fault, polls) => (.error fault, polls)
      | (.ok others, polls) => (.ok (first :: others), polls)

/-- Applies edits from the last to the first, so that earlier offsets stay valid. -/
def applyEdits (source : List Char) (edits : List Edit) : List Char :=
  edits.foldr (fun edit text => Text.replaceRange text edit.span edit.replacement) source

/-- A source text with the members of every block in their order, and the polls made. -/
def reorder (options : Options) (probe : Probe) (source : List Char) :
    Except SourceFault Reordered × Nat :=
  match blocks options.visibilityOrder source with
  | .error place => (.error (.unreadable place), 0)
  | .ok found =>
    match reorderBlocks source options.ordering probe 0 found with
    | (.error fault, polls) => (.error (.ordering fault), polls)
    | (.ok results, polls) =>
      let edits := results.filterMap Prod.snd
      (.ok { text := applyEdits source edits, blocks := results.map Prod.fst, edits }, polls)

/-! ### Explanations -/

structure MemberSummary where
  name : String
  kind : DeclarationKind
  visibility : VisibilityClass
  line : Nat

structure GroupExplanation where
  cyclic : Bool
  members : List MemberSummary

structure BlockExplanation where
  label : String
  line : Nat
  groups : List GroupExplanation

def explainGroup (b : Block) (group : Group) : GroupExplanation where
  cyclic := group.cyclic
  members := group.members.filterMap fun index => do
    let m ← b.members[index]?
    return { name := b.displayName index, kind := m.declaration.kind
             visibility := m.visibility, line := m.line }

def explainBlock (settings : Settings) (b : Block) : Except Fault BlockExplanation := do
  let groups ← ((orderGroups .never settings b.declarations).outcome 0).1
  return { label := b.label, line := b.line, groups := groups.map (explainGroup b) }

/-- How every block would be ordered. -/
def explain (options : Options) (source : List Char) :
    Except SourceFault (List BlockExplanation) :=
  match blocks options.visibilityOrder source with
  | .error place => .error (.unreadable place)
  | .ok found => (found.mapM (explainBlock options.ordering)).mapError .ordering

end CalleeFirst.Source
