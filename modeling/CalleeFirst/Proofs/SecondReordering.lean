import CalleeFirst.Proofs.MemberRanges
import CalleeFirst.Proofs.Moved
import CalleeFirst.Proofs.Reordering
import Mathlib.Data.List.Permutation

/-! Reordering a reordered text.

A block is extracted from its syntax (`extracted`). What it declares depends on the syntax alone
(`declarations_extracted`), only its ranges depend on the text.

A member takes the lines above it along if they look like comments, and such a line may be
the end of a longer comment. So a reordered text need not be readable (`reorder_cuts_comment`). -/
namespace CalleeFirst.Source

open Lexeme (Position)
open Text (IsBoundary byteLength)

/-! ### Extraction -/

/-- The syntax of a source text. -/
def parsed (source : List Char) : Except Position (List Syntax.Block) := do
  Grammar.blocks (← trees (withoutMark source))

/-- The length of the byte order mark, if there is one. -/
def markLength (source : List Char) : Nat := byteLength source - byteLength (withoutMark source)

/-- A block of a source text, made of its syntax. -/
def extracted (order : VisibilityOrder) (source : List Char) (b : Syntax.Block) : Block :=
  let block := blockOf order (Lines.ofText (withoutMark source)) b
  { block with
    members := block.members.map fun m => { m with range := m.range.shifted (markLength source) } }

theorem blocks_eq (order : VisibilityOrder) (source : List Char) :
    blocks order source = (parsed source).map (List.map (extracted order source)) := by
  rw [blocks, parsed]
  cases trees (withoutMark source) with
  | error place => rfl
  | ok found =>
    show (Grammar.blocks found >>= fun found => _) = (Grammar.blocks found).map _
    cases Grammar.blocks found <;> rfl

theorem blocks_of_parsed (order : VisibilityOrder) {source : List Char} {read : List Syntax.Block}
    (h : parsed source = .ok read) : blocks order source =
      .ok (read.map (extracted order source)) := by
  rw [blocks_eq, h]
  rfl

/-- What is declared by a member, and how visible it is. -/
def Member.declared (m : Member) : Declaration × VisibilityClass := (m.declaration, m.visibility)

theorem map_declared_membersFrom (index : Lines)
    (declareAt : Nat → Syntax.Member → Declaration × VisibilityClass) (floor place : Nat)
    (members : List Syntax.Member) :
    (membersFrom index declareAt floor place members).map Member.declared =
      members.mapIdx fun i m => declareAt (place + i) m := by
  induction members generalizing floor place with
  | nil => rfl
  | cons m rest ih =>
    rw [membersFrom, List.map_cons, ih, List.mapIdx_cons]
    simp only [Nat.add_right_comm, Nat.add_assoc]
    rfl

theorem map_declared_extracted (order : VisibilityOrder) (source : List Char) (b : Syntax.Block) :
    (extracted order source b).members.map Member.declared =
      b.members.mapIdx (declare order (typeName? b.selfType) b.trait.isSome) := by
  have hdeclared := map_declared_membersFrom (Lines.ofText (withoutMark source))
    (declare order (typeName? b.selfType) b.trait.isSome)
    ((Lines.ofText (withoutMark source)).offset b.inside) 0 b.members
  simp only [Nat.zero_add] at hdeclared
  rw [← hdeclared, extracted, List.map_map]
  rfl

/-- What is declared in a block does not depend on where it stands. -/
theorem declarations_extracted (order : VisibilityOrder) (source : List Char) (b : Syntax.Block) :
    (extracted order source b).declarations =
      (b.members.mapIdx (declare order (typeName? b.selfType) b.trait.isSome)).map Prod.fst := by
  rw [← map_declared_extracted order source, List.map_map]
  rfl

/-! ### The pieces of an extracted block -/

theorem exists_mark (source : List Char) : ∃ mark, source = mark ++ withoutMark source := by
  cases source with
  | nil => exact ⟨[], rfl⟩
  | cons c rest =>
    rw [withoutMark]
    split
    · exact ⟨[c], rfl⟩
    · exact ⟨[], rfl⟩

theorem isBoundary_shifted {source : List Char} {offset : Nat}
    (h : IsBoundary (withoutMark source) offset) :
    IsBoundary source (offset + markLength source) := by
  obtain ⟨mark, hmark⟩ := exists_mark source
  obtain ⟨front, rest, hbody, rfl⟩ := Text.isBoundary_iff.mp h
  have hlength : markLength source = byteLength mark := by
    have := congrArg byteLength hmark
    rw [Text.byteLength_append] at this
    rw [markLength]
    omega
  refine Text.isBoundary_iff.mpr ⟨mark ++ front, rest, ?_, ?_⟩
  · rw [hmark, hbody, List.append_assoc]
  · rw [Text.byteLength_append, hlength, Nat.add_comm]

theorem ranges_extracted (order : VisibilityOrder) (source : List Char) (b : Syntax.Block) :
    (extracted order source b).ranges =
      (blockOf order (Lines.ofText (withoutMark source)) b).ranges.map fun r =>
        r.shifted (markLength source) := by
  rw [Block.ranges, Block.ranges, extracted, List.map_map, List.map_map]
  rfl

/-! ### Two members that change places -/

/-- The block of a text that has one. -/
def onlyBlock (source : List Char) : Syntax.Block :=
  ((parsed source).toOption.bind List.head?).getD ⟨default, none, .start, .start, []⟩

/-- The text of a block of two members, of which the first calls the second. -/
@[mk_iff]
structure CallsAhead (source : List Char) (b : Block) : Prop where
  placed : b.PlacedIn source
  valid : Batch.Valid b.declarations
  two : b.members.length = 2
  calls : Batch.Reaches b.declarations 0 1
  back : ¬ Batch.Reaches b.declarations 1 0

instance (source : List Char) (b : Block) : Decidable (CallsAhead source b) :=
  decidable_of_iff' _ (callsAhead_iff source b)

theorem CallsAhead.order_eq {source : List Char} {b : Block} (h : CallsAhead source b)
    (s : Settings) :
    b.order s = [1, 0] := by
  have hperm := Block.order_perm (s := s) h.valid
  rw [h.two] at hperm
  have hfirst : (b.order s).idxOf 1 < (b.order s).idxOf 0 :=
    idxOf_ordering_lt s h.valid h.calls h.back
  rcases List.perm_pair.mp hperm with heq | heq
  · rw [heq] at hfirst
    exact absurd hfirst (by decide)
  · exact heq

theorem CallsAhead.reorder (options : Options) {source : List Char}
    (hparsed : parsed source = .ok [onlyBlock source])
    (h : CallsAhead source (extracted options.visibilityOrder source (onlyBlock source))) :
    ∃ r, (reorder options Probe.never source).1 = .ok r ∧
      r.text = applyEdits source
        [(extracted options.visibilityOrder source (onlyBlock source)).edit source [1, 0]] := by
  have hfound := blocks_of_parsed options.visibilityOrder hparsed
  refine ⟨_, reorder_never hfound (by simpa using h.placed) (by simpa using h.valid), ?_⟩
  rw [rearrangement, List.map_singleton, List.map_singleton, h.order_eq]
  rfl

/-! ### A comment that is cut apart -/

/-- The lines above the second member are one comment. -/
def cutText : List Char := "impl A\x7bfn b()\x7bSelf::a()\x7d/*\n// */\nfn a()\x7b\x7d\x7d".toList

/-- **A reordered text need not be readable.** Only the end of the comment goes with the member
below it, and its start comments out the rest of the text. -/
theorem reorder_cuts_comment : ∃ r, (reorder {} Probe.never cutText).1 = .ok r ∧
    r.text = "impl A\x7b// */\nfn a()\x7b\x7d/*\nfn b()\x7bSelf::a()\x7d\x7d".toList ∧
    (reorder {} Probe.never r.text).1 = .error (.unreadable ⟨2, 8⟩) := by
  have hahead : CallsAhead cutText (extracted .standard cutText (onlyBlock cutText)) := by
    decide +kernel
  have hparsed : parsed cutText = .ok [onlyBlock cutText] := by decide +kernel
  obtain ⟨r, hok, htext⟩ := CallsAhead.reorder {} hparsed hahead
  have hcut : r.text = "impl A\x7b// */\nfn a()\x7b\x7d/*\nfn b()\x7bSelf::a()\x7d\x7d".toList := by
    rw [htext]
    decide +kernel
  have hunreadable : parsed r.text = .error ⟨2, 8⟩ := by
    rw [hcut]
    decide +kernel
  refine ⟨r, hok, hcut, ?_⟩
  rw [Source.reorder, blocks_eq, hunreadable]
  rfl

end CalleeFirst.Source
