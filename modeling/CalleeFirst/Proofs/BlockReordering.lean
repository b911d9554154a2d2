import CalleeFirst.Proofs.Edits
import CalleeFirst.Proofs.Ordering
import Mathlib.Tactic.MkIffOfInductiveProp

/-! Reordering one block.

A block is reordered by its order alone (`eq_of_reorderBlock`): the order gives the report and, if
it moves a member, the edit. Since the members have pieces of the text one behind the other, the
edited text is the old one with the slots filled anew (`PlacedIn.bytes_replaced`), which is what the
remap is made for. -/
namespace CalleeFirst

theorem Outcome.isReordered_eq (o : Outcome) :
    o.isReordered = (o.permutation != List.range o.permutation.length) := by
  rw [Bool.eq_iff_iff, isReordered, bne_iff_ne, List.any_eq_true, ne_eq, ← not_iff_not, not_not,
    not_exists]
  simp only [bne_iff_ne, not_and, ne_eq, not_not]
  constructor
  · intro h
    refine List.ext_getElem (by simp) fun i hi _ => ?_
    rw [List.getElem_range]
    exact h (o.permutation[i], i) (List.mem_zipIdx_iff_getElem?.mpr (List.getElem?_eq_getElem hi))
  · rintro h ⟨member, place⟩ hmem
    have hget := List.mem_zipIdx_iff_getElem?.mp hmem
    rw [h] at hget
    obtain ⟨_, heq⟩ := List.getElem?_eq_some_iff.mp hget
    rw [List.getElem_range] at heq
    exact heq.symm

namespace Source

open Remap (Accepted InLine fill laidOut placedBy slotsOf)
open Text (IsBoundary bytes byteLength)

/-- The members of a block have pieces of the text, one behind the other. -/
@[mk_iff]
structure Block.PlacedIn (source : List Char) (b : Block) : Prop where
  nonempty : ∀ r ∈ b.ranges, r.start < r.stop
  start : ∀ r ∈ b.ranges, IsBoundary source r.start
  stop : ∀ r ∈ b.ranges, IsBoundary source r.stop
  ordered : b.ranges.Pairwise fun r s => r.stop ≤ s.start

instance (source : List Char) (b : Block) : Decidable (b.PlacedIn source) :=
  decidable_of_iff' _ (Block.placedIn_iff source b)

/-- The members of a block in their order. -/
def Block.order (s : Settings) (b : Block) : List Nat := ordering s b.declarations

/-- The edit that puts the members of a block in an order. -/
def Block.edit (source : List Char) (b : Block) (order : List Nat) : Edit where
  span := b.span
  replacement := arrange source b.ranges b.span.start b.ranges order
  remap := laidOut b.ranges order

/-- What a block comes to under an order: its report, and the edit if a member moves. -/
def Block.rearranged (source : List Char) (b : Block) (order : List Nat) :
    BlockReport × Option Edit :=
  let moved := order != List.range order.length
  ({ label := b.label, line := b.line, moved, order := order.map b.displayName },
    if moved then some (b.edit source order) else none)

namespace Block
variable {source : List Char} {b : Block} {order : List Nat}

@[simp] theorem length_ranges (b : Block) : b.ranges.length = b.members.length := List.length_map ..

@[simp] theorem length_declarations (b : Block) : b.declarations.length = b.members.length :=
  List.length_map ..

/-! ### The span of a block -/

theorem span_start_le {r : ByteRange} (hr : r ∈ b.ranges) : b.span.start ≤ r.start := by
  have hmem : r.start ∈ b.ranges.map ByteRange.start := List.mem_map_of_mem hr
  cases h : (b.ranges.map ByteRange.start).min? with
  | none =>
    rw [List.min?_eq_none_iff.mp h] at hmem
    cases hmem
  | some low =>
    rw [span, h]
    exact (List.min?_eq_some_iff.mp h).2 _ hmem

theorem le_span_stop {r : ByteRange} (hr : r ∈ b.ranges) : r.stop ≤ b.span.stop := by
  have hmem : r.stop ∈ b.ranges.map ByteRange.stop := List.mem_map_of_mem hr
  cases h : (b.ranges.map ByteRange.stop).max? with
  | none =>
    rw [List.max?_eq_none_iff.mp h] at hmem
    cases hmem
  | some high =>
    rw [span, h]
    exact (List.max?_eq_some_iff.mp h).2 _ hmem

section
variable (hne : b.members ≠ [])
include hne

theorem exists_span_start : ∃ r ∈ b.ranges, r.start = b.span.start := by
  obtain ⟨low, hlow⟩ : ∃ low, (b.ranges.map ByteRange.start).min? = some low := by
    rw [← Option.isSome_iff_exists, List.isSome_min?_iff, ne_eq, List.map_eq_nil_iff, ranges,
      List.map_eq_nil_iff]
    exact hne
  rw [span, hlow]
  exact List.mem_map.mp (List.min?_eq_some_iff.mp hlow).1

theorem exists_span_stop : ∃ r ∈ b.ranges, r.stop = b.span.stop := by
  obtain ⟨high, hhigh⟩ : ∃ high, (b.ranges.map ByteRange.stop).max? = some high := by
    rw [← Option.isSome_iff_exists, List.isSome_max?_iff, ne_eq, List.map_eq_nil_iff, ranges,
      List.map_eq_nil_iff]
    exact hne
  rw [span, hhigh]
  exact List.mem_map.mp (List.max?_eq_some_iff.mp hhigh).1

end

/-! ### The edited text -/

/-- Behind an arrangement and what follows the last slot the slots are filled. -/
theorem bytes_arrange {source : List Char} {ranges slots : List ByteRange} {cursor : Nat}
    {order : List Nat} (hline : InLine cursor slots) (hcursor : IsBoundary source cursor)
    (hslots : ∀ slot ∈ slots, IsBoundary source slot.start ∧ IsBoundary source slot.stop)
    (hplaced : ∀ r ∈ placedBy ranges order,
      IsBoundary source r.start ∧ IsBoundary source r.stop ∧ r.start ≤ r.stop)
    (hcount : slots.length = order.length) :
    bytes (arrange source ranges cursor slots order) ++
        (bytes source).drop ((slots.map ByteRange.stop).foldl max cursor) =
      fill (bytes source) cursor slots (placedBy ranges order) := by
  induction slots generalizing cursor order with
  | nil =>
    obtain rfl := List.length_eq_zero_iff.mp hcount.symm
    rfl
  | cons slot slots ih =>
    cases order with
    | nil => exact absurd hcount (by simp)
    | cons m order =>
      obtain ⟨hgap, hle, hrest⟩ := hline
      obtain ⟨hstart, hstop⟩ := hslots slot List.mem_cons_self
      obtain ⟨hfrom, hto, hpiece⟩ := hplaced _ List.mem_cons_self
      have hmax : max cursor slot.stop = slot.stop := Nat.max_eq_right (hgap.trans hle)
      have hbehind := ih hrest hstop (fun s hs => hslots s (List.mem_cons_of_mem slot hs))
        (fun r hr => hplaced r (List.mem_cons_of_mem _ hr)) (by simpa using hcount)
      rw [arrange, Text.bytes_append, Text.bytes_append, Text.bytes_slice hcursor hstart hgap,
        Text.bytes_slice hfrom hto hpiece, List.map_cons, List.foldl_cons, hmax, List.append_assoc,
        hbehind]
      rfl

namespace PlacedIn
variable (h : b.PlacedIn source)
include h

theorem inLine {cursor : Nat} (hcursor : ∀ r ∈ b.ranges, cursor ≤ r.start) :
    InLine cursor b.ranges :=
  .of_pairwise hcursor (fun r hr => (h.nonempty r hr).le) h.ordered

theorem slotsOf_ranges : slotsOf b.ranges = b.ranges :=
  Remap.slotsOf_eq (h.inLine fun _ _ => Nat.zero_le _)

theorem accepted (horder : order.Perm (List.range b.members.length)) : Accepted b.ranges order := by
  refine ⟨by rwa [length_ranges], ?_⟩
  rw [h.slotsOf_ranges]
  exact h.inLine fun _ _ => Nat.zero_le _

theorem stop_le {r : ByteRange} (hr : r ∈ b.ranges) : r.stop ≤ byteLength source := (h.stop r hr).le

section
variable (hne : b.members ≠ [])
include hne

theorem span_start : IsBoundary source b.span.start := by
  obtain ⟨r, hr, hstart⟩ := exists_span_start hne
  exact hstart ▸ h.start r hr

theorem span_stop : IsBoundary source b.span.stop := by
  obtain ⟨r, hr, hstop⟩ := exists_span_stop hne
  exact hstop ▸ h.stop r hr

theorem span_lt : b.span.start < b.span.stop := by
  obtain ⟨r, hr, hstart⟩ := exists_span_start hne
  exact hstart ▸ (h.nonempty r hr).trans_le (le_span_stop hr)

theorem foldl_max_stop : (b.ranges.map ByteRange.stop).foldl max b.span.start = b.span.stop := by
  obtain ⟨r, rest, hranges⟩ : ∃ r rest, b.ranges = r :: rest :=
    List.exists_cons_of_ne_nil (by rwa [ranges, ne_eq, List.map_eq_nil_iff])
  have hr : r ∈ b.ranges := hranges ▸ List.mem_cons_self
  have hstart : b.span.start ≤ r.stop := (span_start_le hr).trans (h.nonempty r hr).le
  have hstop : b.span.stop = (rest.map ByteRange.stop).foldl max r.stop := by
    rw [span, hranges, List.map_cons, List.map_cons, List.max?_cons', Option.getD_some]
  rw [hstop, hranges, List.map_cons, List.foldl_cons, Nat.max_eq_right hstart]

variable (horder : order.Perm (List.range b.members.length))
include horder

/-- Where a block is replaced the slots of its members are filled anew. -/
theorem bytes_replaced :
    bytes (Text.replaceRange source b.span (b.edit source order).replacement) =
      fill (bytes source) 0 b.ranges (placedBy b.ranges order) := by
  have hperm : (placedBy b.ranges order).Perm b.ranges := Remap.placedBy_perm (h.accepted horder).1
  have harrange := bytes_arrange (h.inLine fun r hr => span_start_le hr) (h.span_start hne)
    (fun r hr => ⟨h.start r hr, h.stop r hr⟩)
    (fun r hr => ⟨h.start r (hperm.subset hr), h.stop r (hperm.subset hr),
      (h.nonempty r (hperm.subset hr)).le⟩)
    (by rw [length_ranges, horder.length_eq, List.length_range])
  rw [h.foldl_max_stop hne] at harrange
  rw [Text.bytes_replaceRange (h.span_start hne) (h.span_stop hne), List.append_assoc, edit,
    harrange, Remap.take_append_fill _ fun r hr => span_start_le hr]

theorem edit_fitsIn : (b.edit source order).FitsIn source where
  start := h.span_start hne
  stop := h.span_stop hne
  le := (h.span_lt hne).le
  length := by
    have hlength := congrArg List.length (h.bytes_replaced hne horder)
    have hfill := Remap.length_fill_slots (h.accepted horder) (fun r hr => h.stop_le hr)
      (Text.length_bytes source)
    have hspan := h.span_lt hne
    have hstop := (h.span_stop hne).le
    rw [h.slotsOf_ranges] at hfill
    rw [hfill, Text.bytes_replaceRange (h.span_start hne) (h.span_stop hne), List.length_append,
      List.length_append, List.length_take, List.length_drop, Text.length_bytes,
      Text.length_bytes] at hlength
    show byteLength _ = b.span.stop - b.span.start
    omega

/-- What the edit puts at the new place of an offset is what stood at the offset. -/
theorem getElem?_replacement (hsize : byteLength source < 9223372036854775808) {i : Nat}
    (hi : b.span.has i = true) :
    b.span.has ((laidOut b.ranges order).apply i) = true ∧
      (bytes (b.edit source order).replacement)[(laidOut b.ranges order).apply i - b.span.start]? =
        (bytes source)[i]? := by
  have haccepted := h.accepted horder
  have hstop := (h.span_stop hne).le
  have hfits := h.edit_fitsIn hne horder
  rw [ByteRange.has_iff] at hi
  have hlow := Remap.le_apply hsize haccepted (fun r => h.stop_le) (fun r => span_start_le) hi.1
    (hi.2.trans_le hstop)
  have hhigh := Remap.apply_lt (hstop.trans_lt hsize) haccepted (fun r => le_span_stop) hi.2
  have hhas := ByteRange.has_iff.mpr ⟨hlow, hhigh⟩
  refine ⟨hhas, ?_⟩
  have hget := Remap.getElem?_apply hsize haccepted (fun r => h.stop_le) (bytes source)
    (Text.length_bytes source) (hi.2.trans_le hstop)
  rw [h.slotsOf_ranges, ← h.bytes_replaced hne horder] at hget
  rw [← hget]
  exact (Text.getElem?_replaceRange_inside hfits.start hfits.stop hfits.le hfits.length hhas).symm

end

end PlacedIn

/-! ### The run of a block -/

theorem reorderBlock_eq (source : List Char) (s : Settings) (probe : Probe) (polls : Nat)
    (b : Block) :
    reorderBlock source s probe polls b =
      match (computeOrder probe s b.declarations).outcome polls with
      | (.error fault, polls) => (.error fault, polls)
      | (.ok order, polls) =>
        match Remap.ofPermutation b.ranges order with
        | .error defect => (.error (.invalid defect), polls)
        | .ok _ => (.ok (b.rearranged source order), polls) := by
  rw [reorderBlock, Host.run]
  simp only [blockHost]
  rcases (computeOrder probe s b.declarations).outcome polls with ⟨_ | order, polls⟩
  · rfl
  · simp only [Host.fit]
    cases hremap : Remap.ofPermutation b.ranges order with
    | error defect => rfl
    | ok remap =>
      obtain ⟨_, rfl⟩ := Remap.ofPermutation_eq_ok_iff.mp hremap
      simp only [Outcome.isReordered_eq, rearranged]
      cases order != List.range order.length <;> rfl

/-- Under a probe of any kind a block is reordered one way only. -/
theorem eq_of_reorderBlock {s : Settings} {probe : Probe} {polls : Nat}
    {result : BlockReport × Option Edit} (h : (reorderBlock source s probe polls b).1 =
      .ok result) :
    Batch.Valid b.declarations ∧ b.rearranged source (b.order s) = result := by
  rw [reorderBlock_eq] at h
  rcases houtcome : (computeOrder probe s b.declarations).outcome polls with ⟨_ | order, after⟩
  · rw [houtcome] at h
    cases h
  · obtain ⟨hv, rfl⟩ := eq_ordering_of_outcome s b.declarations (congrArg Prod.fst houtcome)
    rw [houtcome] at h
    simp only at h
    split at h
    · cases h
    · exact ⟨hv, Except.ok.inj h⟩

theorem order_perm {s : Settings} (hv : Batch.Valid b.declarations) :
    (b.order s).Perm (List.range b.members.length) := by
  have hperm := ordering_perm s hv
  rwa [length_declarations] at hperm

/-- Once the declarations are valid and the ranges fit, only the probe can stop the run. -/
structure Orderable (b : Block) : Prop where
  valid : Batch.Valid b.declarations
  inLine : InLine 0 (slotsOf b.ranges)

theorem PlacedIn.orderable (h : b.PlacedIn source) (hv : Batch.Valid b.declarations) :
    b.Orderable where
  valid := hv
  inLine := by
    rw [h.slotsOf_ranges]
    exact h.inLine fun _ _ => Nat.zero_le _

theorem Orderable.accepted (h : b.Orderable) (s : Settings) : Accepted b.ranges (b.order s) := by
  refine ⟨?_, h.inLine⟩
  rw [length_ranges]
  exact order_perm h.valid

theorem Orderable.reorderBlock (h : b.Orderable) (source : List Char) (s : Settings) (probe : Probe)
    (polls : Nat) :
    reorderBlock source s probe polls b =
      (Polling.polled probe (Batch.pollCount b.declarations)
        (b.rearranged source (b.order s))).outcome polls := by
  have hok := Remap.ofPermutation_eq_ok_iff.mpr ⟨h.accepted s, rfl⟩
  rw [reorderBlock_eq, Polling.outcome_polled_map, order, ← computeOrder_eq s probe h.valid]
  rcases houtcome : (computeOrder probe s b.declarations).outcome polls with ⟨_ | order, after⟩
  · rfl
  · obtain ⟨_, rfl⟩ := eq_ordering_of_outcome s b.declarations (congrArg Prod.fst houtcome)
    rw [Block.order] at hok
    simp only [hok]
    rfl

end Block

end Source

end CalleeFirst
