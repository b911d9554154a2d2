import CalleeFirst.Proofs.Remapping

/-! Layouts that count exactly.

The shift of a layout goes up and down from slot to slot. As long as the ranges end where a signed
word can say so, it never leaves the signed words, and no start is cut off at either end of the
offsets (`Exact`). That is so since the shift in front of a slot is the difference of two offsets
that lie in front of the last end, one in the text after and one in the text before (`Fits.exact`).
Behind all slots it is back at zero (`apply_of_behind`).

`ofPermutation_rearranges`: whatever ranges and permutation are accepted, the remap tells where the
elements of a list go when its slots are filled anew. -/
namespace CalleeFirst.Remap

/-- What a signed word of 64 bits holds. -/
def IsSigned (n : Int) : Prop := -9223372036854775808 ≤ n ∧ n ≤ 9223372036854775807

/-- What an offset of 64 bits can be. -/
def IsOffset (i : Nat) : Prop := i < 18446744073709551616

/-- A slot gets what is placed there, and nothing that is counted on the way leaves its words. -/
structure CountsExactly (shift : Int) (slot placed : ByteRange) : Prop where
  slotLength : IsSigned slot.length
  placedLength : IsSigned placed.length
  growth : IsSigned (placed.length - slot.length)
  next : IsSigned (shift + (placed.length - slot.length))
  start : 0 ≤ slot.start + shift ∧ slot.start + shift ≤ 18446744073709551615

/-- The starts and the shifts of a layout are those in whole numbers, if the text in front of the
first slot moves by `shift`. -/
inductive Exact : Int → (slots placed : List ByteRange) → (starts : List Nat) →
      (shifts : List Int) → Prop where
  | done (shift : Int) : Exact shift [] [] [] [shift]
  | slot {shift : Int} {slot r : ByteRange} {slots placed : List ByteRange} {start : Nat}
      {starts : List Nat}
      {shifts : List Int} (counts : CountsExactly shift slot r)
      (moved : (start : Int) = slot.start + shift)
      (rest : Exact (shift + (r.length - slot.length)) slots placed starts shifts) :
      Exact shift (slot :: slots) (r :: placed) (start :: starts) (shift :: shifts)

/-! ### Shifts -/

section
variable {size out cursor : Nat} {slots placed : List ByteRange}

theorem Fits.countsExactly {slot r : ByteRange}
    (h : Fits size out cursor (slot :: slots) (r :: placed)) (hsize : size < 9223372036854775808) :
    CountsExactly ((out : Int) - cursor) slot r := by
  obtain ⟨hstart, hstop, _⟩ := h.line
  have hin := h.inside slot List.mem_cons_self
  have hout := h.next.out_le
  have hlength : slot.length = slot.stop - slot.start := rfl
  exact
    { slotLength := ⟨by omega, by omega⟩
      placedLength := ⟨by omega, by omega⟩
      growth := ⟨by omega, by omega⟩
      next := ⟨by omega, by omega⟩
      start := ⟨by omega, by omega⟩ }

theorem Fits.exact (h : Fits size out cursor slots placed) (hsize : size < 9223372036854775808) :
    Exact ((out : Int) - cursor) slots placed
      (layOut ((out : Int) - cursor) slots (placed.map ByteRange.length)).1
        (layOut ((out : Int) - cursor) slots (placed.map ByteRange.length)).2 := by
  induction h using Fits.induct with
  | nil out cursor h => exact .done _
  | cons out cursor slot slots r placed h ih =>
    obtain ⟨hstart, hstop, _⟩ := h.line
    have hout := h.next.out_le
    have hlength : slot.length = slot.stop - slot.start := rfl
    have hshift : (out : Int) - cursor + (r.length - slot.length) =
        (out + (slot.start - cursor) + r.length : Nat) - (slot.stop : Nat) := by omega
    have hmoved : moveOffset slot.start ((out : Int) - cursor) = out + (slot.start - cursor) :=
      moveOffset_eq _ (by omega) (by omega)
    rw [List.map_cons, layOut_cons, shift_next hsize h]
    refine .slot (h.countsExactly hsize) ?_ ?_
    · rw [hmoved]
      omega
    · rw [hshift]
      exact ih

/-- All that was placed is as long as all that was there, so what is behind the slots stays. -/
theorem Fits.gapPlace_of_behind (h : Fits size out cursor slots placed) {offset : Nat}
    (hcursor : cursor ≤ offset) (hbehind : ∀ slot ∈ slots, slot.stop ≤ offset) :
    gapPlace out cursor slots placed offset = offset := by
  induction h using Fits.induct with
  | nil out cursor h =>
    have hroom := h.room
    have hsize := h.cursor_le
    rw [total_nil] at hroom
    rw [gapPlace_nil]
    omega
  | cons out cursor slot slots r placed h ih =>
    obtain ⟨hstop, hrest⟩ := List.forall_mem_cons.mp hbehind
    have hslot := h.line.2.1
    rw [gapPlace, if_neg (by omega)]
    exact ih hstop hrest

end

/-! ### Offsets -/

section
variable {ranges : List ByteRange} {permutation : List Nat} {size : Nat}
  (hsize : size < 9223372036854775808)
  (h : Accepted ranges permutation) (hin : ∀ range ∈ ranges, range.stop ≤ size)
include hsize h hin

theorem apply_of_behind {offset : Nat} (hoffset : IsOffset offset)
    (hbehind : ∀ range ∈ ranges, range.stop ≤ offset) :
    (laidOut ranges permutation).apply offset = offset := by
  have hgap : ∀ range ∈ ranges, range.has offset = false := fun range hrange =>
    ByteRange.has_eq_false_iff.mpr (.inr (hbehind range hrange))
  rw [apply_of_gap hsize h hin hoffset hgap]
  refine (h.fits hin).gapPlace_of_behind (Nat.zero_le offset) fun slot hslot => ?_
  exact hbehind slot ((slotsOf_perm ranges).subset hslot)

theorem apply_isOffset {offset : Nat} (hoffset : IsOffset offset) :
    IsOffset ((laidOut ranges permutation).apply offset) := by
  by_cases hlt : offset < size
  · exact (apply_lt hsize h hin hlt).trans (hsize.trans (by decide))
  · rwa [apply_of_behind hsize h hin hoffset fun range hrange =>
      (hin range hrange).trans (Nat.not_lt.mp hlt)]

theorem laidOut_exact : Exact 0 (slotsOf ranges) (placedBy ranges permutation)
    (permutation.map fun m => (laidOut ranges permutation).newStart.getD m 0)
      (laidOut ranges permutation).shift := by
  have hstarts : (layOut 0 (slotsOf ranges)
    ((placedBy ranges permutation).map ByteRange.length)).1 =
      starts 0 0 (slotsOf ranges) (placedBy ranges permutation) := layOut_starts hsize (h.fits hin)
  rw [map_newStart hsize h hin, ← hstarts]
  exact (h.fits hin).exact hsize

variable {α : Type} {xs : List α} (hxs : ∀ range ∈ ranges, range.stop ≤ xs.length)
include hxs

theorem apply_bijOn : Set.BijOn (laidOut ranges permutation).apply
    {i | i < xs.length ∧ IsOffset i} {i | i < xs.length ∧ IsOffset i} := by
  have hset : {i | i < xs.length ∧ IsOffset i} =
      (Finset.range (min xs.length 18446744073709551616) : Set Nat) := by
    ext i
    simp [IsOffset]
  -- A list of its own positions tells every element apart.
  have hranges : ∀ range ∈ ranges, range.stop ≤ (List.range xs.length).length := by
    rwa [List.length_range]
  have hget : ∀ i < xs.length, IsOffset i →
      (fill (List.range xs.length) 0 (slotsOf ranges) (placedBy ranges permutation))[
        (laidOut ranges permutation).apply i]? = some i := by
    intro i hi hword
    rw [getElem?_fill_apply hsize h hin hranges hword, List.getElem?_range hi]
  have hmaps : Set.MapsTo (laidOut ranges permutation).apply {i | i < xs.length ∧ IsOffset i}
      {i | i < xs.length ∧ IsOffset i} := by
    intro i ⟨hi, hword⟩
    have hlt := (List.getElem?_eq_some_iff.mp (hget i hi hword)).1
    rw [length_fill_slots h hranges rfl, List.length_range] at hlt
    exact ⟨hlt, apply_isOffset hsize h hin hword⟩
  have hinj : Set.InjOn (laidOut ranges permutation).apply {i | i < xs.length ∧ IsOffset i} := by
    intro i ⟨hi, hwordi⟩ j ⟨hj, hwordj⟩ heq
    have hgeti := hget i hi hwordi
    rw [heq, hget j hj hwordj] at hgeti
    exact (Option.some.inj hgeti).symm
  rw [hset] at hmaps hinj ⊢
  exact ⟨hmaps, hinj, Finset.surjOn_of_injOn_of_card_le _ hmaps hinj le_rfl⟩

end

/-- **Slots filled anew.** Every position of a list that is an offset of 64 bits goes where its
element goes, and what is behind the list stays. -/
theorem ofPermutation_rearranges {ranges : List ByteRange} {permutation : List Nat} {r : Remap}
    (haccepted : ofPermutation ranges permutation = .ok r)
    (hwords : ∀ range ∈ ranges, range.stop ≤ 9223372036854775807) :
    (slotsOf ranges).Perm ranges ∧
      (slotsOf ranges).Pairwise (fun a b => a.start < b.start ∨ a.start = b.start ∧
        a.stop ≤ b.stop) ∧
      Exact 0 (slotsOf ranges) (placedBy ranges permutation)
        (permutation.map fun m => r.newStart.getD m 0) r.shift ∧
      ∀ (α : Type) (xs : List α), (∀ range ∈ ranges, range.stop ≤ xs.length) →
        let out := fill xs 0 (slotsOf ranges) (placedBy ranges permutation)
        out.length = xs.length ∧
          Set.BijOn r.apply {i | i < xs.length ∧ IsOffset i} {i | i < xs.length ∧ IsOffset i} ∧
          (∀ i < xs.length, IsOffset i → out[r.apply i]? = xs[i]?) ∧
          ∀ i, xs.length ≤ i → IsOffset i → r.apply i = i := by
  obtain ⟨h, rfl⟩ := ofPermutation_eq_ok_iff.mp haccepted
  have hsize : 9223372036854775807 < 9223372036854775808 := by decide
  refine ⟨slotsOf_perm ranges, slotsOf_sorted ranges, laidOut_exact hsize h hwords,
    fun α xs hxs => ?_⟩
  refine ⟨length_fill_slots h hxs rfl, apply_bijOn hsize h hwords hxs, fun i _ hword => ?_,
    fun i hi hword => ?_⟩
  · exact getElem?_fill_apply hsize h hwords hxs hword
  · exact apply_of_behind hsize h hwords hword fun range hrange => (hxs range hrange).trans hi

/-- Out of the order of the text, with an empty range between two that touch. -/
def sampleRanges : List ByteRange := [⟨7, 11⟩, ⟨2, 6⟩, ⟨0, 2⟩, ⟨2, 2⟩]

theorem ofPermutation_rearranges_sample :
    ∃ r, ofPermutation sampleRanges [1, 3, 0, 2] = .ok r ∧
      (∀ range ∈ sampleRanges, range.stop ≤ 9223372036854775807) ∧
      Exact 0 (slotsOf sampleRanges) (placedBy sampleRanges [1, 3, 0, 2])
        ([1, 3, 0, 2].map fun m => r.newStart.getD m 0) r.shift ∧
      fill "x1yyy2 zzz3;".toList 0 (slotsOf sampleRanges) (placedBy sampleRanges [1, 3, 0, 2]) =
        "yyy2zzz3 x1;".toList ∧
      Set.BijOn r.apply {i | i < 12 ∧ IsOffset i} {i | i < 12 ∧ IsOffset i} := by
  obtain ⟨r, hr⟩ : ∃ r, ofPermutation sampleRanges [1, 3, 0, 2] = .ok r :=
    ⟨_, ofPermutation_eq_ok_iff.mpr ⟨⟨by decide, inLine_slotsOf_iff.mpr ⟨by decide, by decide⟩⟩,
      rfl⟩⟩
  have hwords : ∀ range ∈ sampleRanges, range.stop ≤ 9223372036854775807 := by decide
  have hslots : slotsOf sampleRanges = [⟨0, 2⟩, ⟨2, 2⟩, ⟨2, 6⟩, ⟨7, 11⟩] := by
    simp [slotsOf, sortedSlots, sampleRanges, List.mergeSort]
  obtain ⟨_, _, hexact, hlist⟩ := ofPermutation_rearranges hr hwords
  refine ⟨r, hr, hwords, hexact, ?_, (hlist Char "x1yyy2 zzz3;".toList (by decide)).2.1⟩
  rw [hslots]
  decide

end CalleeFirst.Remap
