import CalleeFirst.Proofs.Reordering

/-! Texts behind other texts.

What is done to a text is done to it behind any other one, with all offsets moved by the length of
what is in front. Pieces are cut out alike (`slice_front`), ranges are laid out alike
(`apply_shifted`), and a block whose ranges are moved is edited alike (`Block.edit_follows`).

`rearrangement_front`: the front stays, and behind it is what comes of the text alone. -/
namespace CalleeFirst

namespace ByteRange

@[simp] theorem start_shifted (r : ByteRange) (bytes : Nat) :
    (r.shifted bytes).start = r.start + bytes := rfl

@[simp] theorem stop_shifted (r : ByteRange) (bytes : Nat) :
    (r.shifted bytes).stop = r.stop + bytes := rfl

@[simp] theorem length_shifted (r : ByteRange) (bytes : Nat) :
    (r.shifted bytes).length = r.length :=
  Nat.add_sub_add_right ..

@[simp] theorem has_shifted (r : ByteRange) (bytes i : Nat) :
    (r.shifted bytes).has (i + bytes) = r.has i := by
  rw [Bool.eq_iff_iff, has_iff, has_iff, start_shifted, stop_shifted]
  omega

end ByteRange

/-! ### Pieces -/

namespace Text

/-- Cutting behind a front part cuts the rest. -/
theorem splitAtByte_front (front text : List Char) (n : Nat) :
    splitAtByte (n + byteLength front) (front ++ text) =
      (splitAtByte n text).map fun cut => (front ++ cut.1, cut.2) := by
  induction front with
  | nil => simp
  | cons c rest ih =>
    have hsize := c.utf8Size_pos
    obtain ⟨m, hm⟩ : ∃ m, n + byteLength (c :: rest) = m + 1 := ⟨n + byteLength (c :: rest) - 1, by
      rw [byteLength_cons]
      omega⟩
    have hrest : m + 1 - c.utf8Size = n + byteLength rest := by
      rw [← hm, byteLength_cons]
      omega
    have hle : c.utf8Size ≤ m + 1 := by
      rw [← hm, byteLength_cons]
      omega
    rw [hm, List.cons_append, splitAtByte, if_pos hle, hrest, ih]
    cases splitAtByte n text <;> rfl

/-- A range moved by a front part selects what it selected without it. -/
theorem slice_front (front text : List Char) (r : ByteRange) :
    slice (front ++ text) (r.shifted (byteLength front)) = slice text r := by
  rw [slice, slice, slice?, slice?, ByteRange.length_shifted, ByteRange.start_shifted,
    ByteRange.stop_shifted, splitAtByte_front]
  simp only [Nat.add_lt_add_iff_right]
  cases splitAtByte r.start text <;> rfl

theorem slice_upTo_front (front : List Char) {text : List Char} {n : Nat} (h : IsBoundary text n) :
    slice (front ++ text) ⟨0, n + byteLength front⟩ = front ++ slice text ⟨0, n⟩ := by
  obtain ⟨a, b, rfl, rfl⟩ := isBoundary_iff.mp h
  have halone := slice_append [] a b
  have hbehind := slice_append [] (front ++ a) b
  rw [List.nil_append] at halone hbehind
  rw [byteLength_append, Nat.add_comm, List.append_assoc] at hbehind
  exact hbehind.trans (congrArg (front ++ ·) halone.symm)

/-- Replacing behind a front part leaves it alone. -/
theorem replaceRange_front (front : List Char) {text : List Char} {r : ByteRange}
    (h : IsBoundary text r.start) (replacement : List Char) :
    replaceRange (front ++ text) (r.shifted (byteLength front)) replacement =
      front ++ replaceRange text r replacement := by
  have hback : slice (front ++ text) ⟨r.stop + byteLength front, byteLength (front ++ text)⟩ =
      slice text ⟨r.stop, byteLength text⟩ := by
    rw [byteLength_append, Nat.add_comm (byteLength front)]
    exact slice_front front text ⟨r.stop, byteLength text⟩
  rw [replaceRange, ByteRange.start_shifted, ByteRange.stop_shifted, slice_upTo_front front h,
    hback, replaceRange]
  simp only [List.append_assoc]

end Text

/-! ### Remaps -/

namespace Remap
variable {bytes out cursor out' cursor' : Nat}

/-- Ranges moved forward. -/
def shiftedAll (bytes : Nat) (ranges : List ByteRange) : List ByteRange :=
  ranges.map fun r => r.shifted bytes

@[simp] theorem shiftedAll_cons (bytes : Nat) (r : ByteRange) (ranges : List ByteRange) :
    shiftedAll bytes (r :: ranges) = r.shifted bytes :: shiftedAll bytes ranges := rfl

/-- The distance of the two outputs survives a slot, so it is an invariant of the walk over the
slots. -/
theorem shift_slot (h : ∀ x, out' + (x + bytes - cursor') = out + (x - cursor) + bytes)
    (slot r : ByteRange) :
    ∀ x, out' + ((slot.shifted bytes).start - cursor') + (r.shifted bytes).length +
        (x + bytes - (slot.shifted bytes).stop) =
      out + (slot.start - cursor) + r.length + (x - slot.stop) + bytes := by
  intro x
  have hstart := h slot.start
  rw [ByteRange.length_shifted, ByteRange.start_shifted, ByteRange.stop_shifted]
  omega

/-- Where the pieces start in the new layout moves with the ranges. -/
theorem starts_shifted (h : ∀ x, out' + (x + bytes - cursor') = out + (x - cursor) + bytes)
    (slots placed : List ByteRange) :
    starts out' cursor' (shiftedAll bytes slots) (shiftedAll bytes placed) =
      (starts out cursor slots placed).map (· + bytes) := by
  induction slots generalizing out cursor out' cursor' placed with
  | nil => rfl
  | cons slot slots ih =>
    cases placed with
    | nil => rfl
    | cons r placed =>
      have hrest := ih (shift_slot h slot r) placed
      have hstart := h slot.start
      simp only [shiftedAll_cons, starts, ByteRange.start_shifted] at hrest ⊢
      rw [hrest, hstart, List.map_cons]

/-- Where an offset between the pieces goes moves with the ranges. -/
theorem gapPlace_shifted (h : ∀ x, out' + (x + bytes - cursor') = out + (x - cursor) + bytes)
    (slots placed : List ByteRange) (offset : Nat) :
    gapPlace out' cursor' (shiftedAll bytes slots) (shiftedAll bytes placed) (offset + bytes) =
      gapPlace out cursor slots placed offset + bytes := by
  induction slots generalizing out cursor out' cursor' placed with
  | nil => exact h offset
  | cons slot slots ih =>
    cases placed with
    | nil => exact h offset
    | cons r placed =>
      have hrest := ih (shift_slot h slot r) placed
      have hoffset := h offset
      simp only [shiftedAll_cons, gapPlace, ByteRange.start_shifted,
        Nat.add_lt_add_iff_right] at hrest ⊢
      rw [hrest, hoffset]
      split <;> rfl

section
variable {size : Nat} {ranges : List ByteRange} {permutation : List Nat}
  (hperm : permutation.Perm (List.range ranges.length)) (hline : InLine 0 ranges)
include hperm

theorem placedBy_shifted (bytes : Nat) :
    placedBy (shiftedAll bytes ranges) permutation =
      shiftedAll bytes (placedBy ranges permutation) := by
  rw [placedBy, placedBy, shiftedAll, shiftedAll, List.map_map]
  refine List.map_congr_left fun m hm => ?_
  have hlt : m < ranges.length := List.mem_range.mp (hperm.subset hm)
  simp [hlt]

include hline

theorem accepted_of_inLine : Accepted ranges permutation := ⟨hperm, by rwa [slotsOf_eq hline]⟩

/-- Ranges that are moved take offsets along. -/
theorem apply_shifted (hsize : size + bytes < 9223372036854775808)
    (hin : ∀ range ∈ ranges, range.stop ≤ size) {offset : Nat} (hoffset : offset < size) :
    (laidOut (shiftedAll bytes ranges) permutation).apply (offset + bytes) =
      (laidOut ranges permutation).apply offset + bytes := by
  have hline' : InLine 0 (shiftedAll bytes ranges) := (hline.shifted bytes).mono (Nat.zero_le _)
  have haccepted := accepted_of_inLine hperm hline
  have haccepted' : Accepted (shiftedAll bytes ranges) permutation :=
    accepted_of_inLine (by rwa [shiftedAll, List.length_map]) hline'
  have hslots : slotsOf (shiftedAll bytes ranges) = shiftedAll bytes (slotsOf ranges) := by
    rw [slotsOf_eq hline, slotsOf_eq hline']
  have hin' : ∀ range ∈ shiftedAll bytes ranges, range.stop ≤ size + bytes := by
    intro range hrange
    obtain ⟨r, hr, rfl⟩ := List.mem_map.mp hrange
    exact Nat.add_le_add_right (hin r hr) bytes
  have hstart : ∀ x, 0 + (x + bytes - 0) = 0 + (x - 0) + bytes := by
    intro x
    omega
  by_cases hgap : ∀ range ∈ ranges, range.has offset = false
  · have hgap' : ∀ range ∈ shiftedAll bytes ranges, range.has (offset + bytes) = false := by
      intro range hrange
      obtain ⟨r, hr, rfl⟩ := List.mem_map.mp hrange
      rw [ByteRange.has_shifted]
      exact hgap r hr
    rw [apply_of_gap (by omega) haccepted hin (by omega) hgap,
      apply_of_gap hsize haccepted' hin' (by omega) hgap', hslots, placedBy_shifted hperm,
      gapPlace_shifted hstart]
  · push Not at hgap
    obtain ⟨range, hrange, hhas⟩ := hgap
    rw [ne_eq, Bool.not_eq_false] at hhas
    obtain ⟨m, hm⟩ := List.getElem?_of_mem hrange
    have hm' : (shiftedAll bytes ranges)[m]? = some (range.shifted bytes) := by
      rw [shiftedAll, List.getElem?_map, hm, Option.map_some]
    have hplace : permutation.idxOf m < (starts 0 0 (slotsOf ranges)
        (placedBy ranges permutation)).length := by
      rw [length_starts 0 0 (haccepted.fits hin).count, placedBy, List.length_map,
        List.idxOf_lt_length_iff]
      exact hperm.symm.subset (List.mem_range.mpr (List.getElem?_eq_some_iff.mp hm).1)
    rw [apply_of_slot (by omega) haccepted hin hm hhas,
      apply_of_slot hsize haccepted' hin' hm' (by rwa [ByteRange.has_shifted]), hslots,
        placedBy_shifted hperm,
      starts_shifted hstart, ByteRange.start_shifted, Nat.add_sub_add_right]
    simp only [List.getD_eq_getElem?_getD, List.getElem?_map, List.getElem?_eq_getElem hplace,
      Option.map_some, Option.getD_some]
    omega

end

end Remap

namespace Source

open Remap (InLine shiftedAll)
open Text (IsBoundary byteLength)

/-! ### Edits -/

/-- An edit does to a text behind another one what an edit does to the text alone. -/
structure Edit.Follows (bytes : Nat) (e e' : Edit) : Prop where
  span : e'.span = e.span.shifted bytes
  replacement : e'.replacement = e.replacement
  remap : ∀ i, e.span.has i = true → e'.remap.apply (i + bytes) = e.remap.apply i + bytes

/-- Edits that follow those of a source, behind a front part, make the text they made of the
source, behind the front part. -/
theorem applyEdits_front {front source : List Char} {edits edits' : List Edit}
    (h : List.Forall₂ (Edit.Follows (byteLength front)) edits edits')
    (hstart : ∀ e ∈ edits, IsBoundary source e.span.start)
    (hordered : edits.Pairwise fun e f => e.span.start ≤ f.span.start) :
    applyEdits (front ++ source) edits' = front ++ applyEdits source edits := by
  induction h with
  | nil => rfl
  | cons hfollows _ ih =>
    obtain ⟨hbehind, hrest⟩ := List.pairwise_cons.mp hordered
    obtain ⟨he, hstart⟩ := List.forall_mem_cons.mp hstart
    rw [applyEdits_cons, applyEdits_cons, ih hstart hrest, hfollows.span, hfollows.replacement,
      Text.replaceRange_front front (isBoundary_applyEdits he hstart hrest hbehind)]

/-- The edit that an offset comes upon is followed by the one that the moved offset comes upon. -/
theorem head?_follows {bytes i : Nat} {edits edits' : List Edit}
    (h : List.Forall₂ (Edit.Follows bytes) edits edits') :
    Option.Rel (Edit.Follows bytes) (edits.dropWhile fun edit => edit.span.stop ≤ i).head?
      (edits'.dropWhile fun edit => edit.span.stop ≤ i + bytes).head? := by
  induction h with
  | nil => exact .none
  | @cons e e' _ _ hfollows _ ih =>
    have hstop : e'.span.stop ≤ i + bytes ↔ e.span.stop ≤ i := by
      rw [hfollows.span, ByteRange.stop_shifted, Nat.add_le_add_iff_right]
    by_cases hpassed : e.span.stop ≤ i
    · rwa [List.dropWhile_cons_of_pos (by simpa using hpassed),
        List.dropWhile_cons_of_pos (by simpa using hstop.mpr hpassed)]
    · rw [List.dropWhile_cons_of_neg (by simpa using hpassed),
        List.dropWhile_cons_of_neg (by simpa using mt hstop.mp hpassed)]
      exact .some hfollows

/-- Where an offset goes moves with the offset, over the whole file. -/
theorem remap_front {bytes : Nat} {r r' : Reordered}
    (h : List.Forall₂ (Edit.Follows bytes) r.edits r'.edits) (i : Nat) :
    r'.remap (i + bytes) = r.remap i + bytes := by
  have hhead := head?_follows h (i := i)
  rw [Reordered.remap, Reordered.remap]
  cases hfirst : (r.edits.dropWhile fun edit => edit.span.stop ≤ i).head? with
  | none =>
    rw [hfirst] at hhead
    cases hhead' : (r'.edits.dropWhile fun edit => edit.span.stop ≤ i + bytes).head? with
    | none => rfl
    | some e' =>
      rw [hhead'] at hhead
      cases hhead
  | some e =>
    rw [hfirst] at hhead
    cases hhead' : (r'.edits.dropWhile fun edit => edit.span.stop ≤ i + bytes).head? with
    | none =>
      rw [hhead'] at hhead
      cases hhead
    | some e' =>
      rw [hhead'] at hhead
      cases hhead with
      | some hfollows =>
        simp only [hfollows.span, ByteRange.has_shifted]
        split
        · next hhas => exact hfollows.remap i hhas
        · rfl

/-! ### Blocks -/

namespace Block
variable {front source : List Char} {b : Block} {order : List Nat}

/-- The block with the ranges of its members moved forward. -/
def shifted (bytes : Nat) (b : Block) : Block :=
  { b with members := b.members.map fun m => { m with range := m.range.shifted bytes } }

@[simp] theorem ranges_shifted (bytes : Nat) (b : Block) :
    (b.shifted bytes).ranges = shiftedAll bytes b.ranges := by
  rw [ranges, ranges, shifted, shiftedAll, List.map_map, List.map_map]
  rfl

@[simp] theorem declarations_shifted (bytes : Nat) (b : Block) :
    (b.shifted bytes).declarations = b.declarations := by
  rw [declarations, declarations, shifted, List.map_map]
  rfl

/-- The order of the members does not depend on where they stand. -/
@[simp] theorem order_shifted (bytes : Nat) (s : Settings) (b : Block) :
    (b.shifted bytes).order s = b.order s := by
  rw [order, order, declarations_shifted]

@[simp] theorem shifted_zero (b : Block) : b.shifted 0 = b := by
  have hmember : (fun m : Member => { m with range := m.range.shifted 0 }) = id := rfl
  rw [shifted, hmember, List.map_id]

theorem span_shifted (bytes : Nat) (hne : b.members ≠ []) :
    (b.shifted bytes).span = b.span.shifted bytes := by
  have hne' : (b.shifted bytes).members ≠ [] := by simpa [shifted] using hne
  obtain ⟨first, hfirst, hstart⟩ := exists_span_start hne
  obtain ⟨last, hlast, hstop⟩ := exists_span_stop hne
  obtain ⟨first', hfirst', hstart'⟩ := exists_span_start hne'
  obtain ⟨last', hlast', hstop'⟩ := exists_span_stop hne'
  have hmem {r : ByteRange} (hr : r ∈ b.ranges) : r.shifted bytes ∈ (b.shifted bytes).ranges := by
    rw [ranges_shifted]
    exact List.mem_map_of_mem hr
  have hlow := span_start_le (hmem hfirst)
  have hhigh := le_span_stop (hmem hlast)
  rw [ranges_shifted] at hfirst' hlast'
  obtain ⟨low, hlowest, rfl⟩ := List.mem_map.mp hfirst'
  obtain ⟨high, hhighest, rfl⟩ := List.mem_map.mp hlast'
  have hlow' := span_start_le hlowest
  have hhigh' := le_span_stop hhighest
  simp only [ByteRange.start_shifted, ByteRange.stop_shifted] at hstart' hstop' hlow hhigh
  rw [ByteRange.shifted, ← hstart, ← hstop]
  cases hspan : (b.shifted bytes).span with
  | mk start stop =>
    rw [hspan] at hstart' hstop' hlow hhigh
    simp only [ByteRange.mk.injEq] at *
    omega

/-- The rearranged text of a block is the same wherever the block stands. -/
theorem arrange_shifted {ranges : List ByteRange} (hin : ∀ m ∈ order, m < ranges.length)
    (cursor : Nat) (slots : List ByteRange) :
    arrange (front ++ source) (shiftedAll (byteLength front) ranges) (cursor + byteLength front)
        (shiftedAll (byteLength front) slots) order =
      arrange source ranges cursor slots order := by
  induction slots generalizing cursor order with
  | nil => rfl
  | cons slot slots ih =>
    cases order with
    | nil => rfl
    | cons m order =>
      obtain ⟨hm, hin⟩ := List.forall_mem_cons.mp hin
      have hplaced : (shiftedAll (byteLength front) ranges).getD m ⟨0, 0⟩ =
          (ranges.getD m ⟨0, 0⟩).shifted (byteLength front) := by
        simp [shiftedAll, hm]
      rw [Remap.shiftedAll_cons, arrange, arrange, hplaced, Text.slice_front]
      exact congrArg₂ (· ++ ·)
        (congrArg (· ++ _) (Text.slice_front front source ⟨cursor, slot.start⟩))
        (ih hin slot.stop)

/-- The members of a block have ranges of the text, one behind the other. -/
structure LiesIn (source : List Char) (b : Block) : Prop where
  valid : Batch.Valid b.declarations
  inLine : InLine 0 b.ranges
  start : ∀ r ∈ b.ranges, IsBoundary source r.start
  stop : ∀ r ∈ b.ranges, r.stop ≤ byteLength source

namespace LiesIn
variable (h : b.LiesIn source)
include h

/-- The edit of a moved block is the moved edit. -/
theorem edit_follows (s : Settings) (hne : b.members ≠ [])
    (hsize : byteLength source + byteLength front < 9223372036854775808) :
    (b.edit source (b.order s)).Follows (byteLength front)
      ((b.shifted (byteLength front)).edit (front ++ source) (b.order s)) where
  span := span_shifted _ hne
  replacement := by
    have hin : ∀ m ∈ b.order s, m < b.ranges.length := by
      intro m hm
      rw [length_ranges]
      exact List.mem_range.mp ((order_perm h.valid).subset hm)
    rw [edit, edit, span_shifted _ hne, ranges_shifted]
    exact arrange_shifted hin _ _
  remap i hi := by
    have hperm : (b.order s).Perm (List.range b.ranges.length) := by
      rw [length_ranges]
      exact order_perm h.valid
    obtain ⟨last, hlast, hstop⟩ := exists_span_stop hne
    have hbound := h.stop last hlast
    rw [edit, edit, ranges_shifted]
    refine Remap.apply_shifted hperm h.inLine hsize h.stop ?_
    have := (ByteRange.has_iff.mp hi).2
    exact this.trans_le (hstop ▸ hbound)

/-- Where a block is edited, it is behind another text. -/
theorem rearranged_shifted (s : Settings)
    (hsize : byteLength source + byteLength front < 9223372036854775808) :
    Option.Rel (Edit.Follows (byteLength front)) (b.rearranged source (b.order s)).2
      ((b.shifted (byteLength front)).rearranged (front ++ source) (b.order s)).2 := by
  cases hmoved : b.order s != List.range (b.order s).length with
  | false =>
    simp only [rearranged, hmoved]
    exact .none
  | true =>
    have hne := members_ne_of_order_ne (order_perm h.valid) (bne_iff_ne.mp hmoved)
    simp only [rearranged, hmoved]
    exact .some (h.edit_follows s hne hsize)

end LiesIn

end Block

/-! ### Rearrangements -/

theorem edits_rearrangement_eq (source : List Char) (s : Settings) (found : List Block) :
    (rearrangement source s found).edits =
      found.filterMap fun b => (b.rearranged source (b.order s)).2 :=
  List.filterMap_map ..

section
variable (front : List Char) {source : List Char} {s : Settings} {found : List Block}
  (h : ∀ b ∈ found, b.LiesIn source)
include h

theorem start_edits : ∀ e ∈ (rearrangement source s found).edits,
      IsBoundary source e.span.start := by
  intro e he
  obtain ⟨b, hb, hmoved, rfl⟩ := mem_edits.mp he
  have hperm := Block.order_perm (s := s) (h b hb).valid
  obtain ⟨r, hr, hstart⟩ := Block.exists_span_start (Block.members_ne_of_order_ne hperm hmoved)
  exact hstart ▸ (h b hb).start r hr

variable (hsize : byteLength source + byteLength front < 9223372036854775808)
include hsize

/-- The edits of the moved blocks are the moved edits. -/
theorem edits_follow :
    List.Forall₂ (Edit.Follows (byteLength front)) (rearrangement source s found).edits
      (rearrangement (front ++ source) s (found.map (Block.shifted (byteLength front)))).edits := by
  rw [edits_rearrangement_eq, edits_rearrangement_eq, List.filterMap_map]
  induction found with
  | nil => exact .nil
  | cons b rest ih =>
    obtain ⟨hb, hrest⟩ := List.forall_mem_cons.mp h
    have hfollows := hb.rearranged_shifted s hsize
    rw [List.filterMap_cons, List.filterMap_cons, Function.comp_apply, Block.order_shifted]
    revert hfollows
    generalize (b.rearranged source (b.order s)).2 = edit
    generalize ((b.shifted (byteLength front)).rearranged (front ++ source) (b.order s)).2 = edit'
    intro hfollows
    cases hfollows with
    | none => exact ih hrest
    | some hfollows => exact .cons hfollows (ih hrest)

/-- **A front stays where it is.** Behind it is what comes of the text alone. -/
theorem rearrangement_front
    (hordered : found.Pairwise fun b c => b.members ≠ [] → c.members ≠ [] →
      b.span.start ≤ c.span.start) :
    let r := rearrangement source s found
    let r' := rearrangement (front ++ source) s (found.map (Block.shifted (byteLength front)))
    r'.text = front ++ r.text ∧ ∀ i, r'.remap (i + byteLength front) =
      r.remap i + byteLength front := by
  have hfollow := edits_follow front (s := s) h hsize
  have hpairs : (rearrangement source s found).edits.Pairwise fun e f =>
      e.span.start ≤ f.span.start :=
    pairwise_edits (fun a b => a.start ≤ b.start) (fun b hb => (h b hb).valid) hordered
  exact ⟨applyEdits_front hfollow (start_edits h) hpairs, remap_front hfollow⟩

end

end Source

end CalleeFirst
