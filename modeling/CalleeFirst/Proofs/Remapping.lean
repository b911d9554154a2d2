import CalleeFirst.Remap
import Mathlib.Algebra.Ring.Nat
import Mathlib.Data.Finset.Card
import Mathlib.Data.List.Nodup
import Mathlib.Data.Set.Function

/-! Where offsets go when slots are filled anew.

The layout of a remap counts in signed words. As long as all slots lie in front of an offset
that a signed word can hold, nothing wraps around and nothing is cut off: the layout is
that of whole numbers (`starts`, `gapPlace`), where text from `cursor` on goes to `out`,
and every slot moves both on.

Filling slots (`fill`) means the same for a list of anything. `getElem?_fill_apply`: what the
filled list holds at the new place of an offset is what the list held at the offset.
Since that is so for a list of distinct elements, no two offsets get one place (`apply_inj`). -/
namespace CalleeFirst

/-- The elements of a list in a range. -/
def ByteRange.pick {α : Type} (r : ByteRange) (xs : List α) : List α :=
  (xs.drop r.start).take r.length

theorem ByteRange.has_iff {r : ByteRange} {i : Nat} :
    r.has i = true ↔ r.start ≤ i ∧ i < r.stop := by
  rw [has, Bool.and_eq_true, decide_eq_true_eq, decide_eq_true_eq]

theorem ByteRange.has_eq_false_iff {r : ByteRange} {i : Nat} :
    r.has i = false ↔ i < r.start ∨ r.stop ≤ i := by
  rw [← Bool.not_eq_true, has_iff]
  omega

section
variable {α : Type} {r : ByteRange} {xs : List α}

theorem ByteRange.length_pick (h : r.stop ≤ xs.length) : (r.pick xs).length = r.length := by
  rw [pick, List.length_take, List.length_drop, length]
  omega

/-- A piece and what is behind it. -/
theorem ByteRange.pick_append_drop (h : r.start ≤ r.stop) (xs : List α) :
    r.pick xs ++ xs.drop r.stop = xs.drop r.start := by
  have hdrop : xs.drop r.stop = (xs.drop r.start).drop r.length := by
    rw [List.drop_drop, length, Nat.add_sub_cancel' h]
  rw [hdrop, pick, List.take_append_drop]

theorem ByteRange.getElem?_pick {d : Nat} (h : d < r.length) :
    (r.pick xs)[d]? = xs[r.start + d]? := by
  rw [pick, List.getElem?_take_of_lt h, List.getElem?_drop]

end

namespace Remap

/-- Ranges one behind the other, the first not before `cursor`. -/
def InLine (cursor : Nat) : List ByteRange → Prop
  | [] => True
  | slot :: slots => cursor ≤ slot.start ∧ slot.start ≤ slot.stop ∧ InLine slot.stop slots

/-- A list from `cursor` on, where every slot holds what was in the range placed there. -/
def fill {α : Type} (xs : List α) : (cursor : Nat) → (slots placed : List ByteRange) → List α
  | cursor, slot :: slots, r :: placed =>
    ByteRange.pick ⟨cursor, slot.start⟩ xs ++ r.pick xs ++ fill xs slot.stop slots placed
  | cursor, _, _ => xs.drop cursor

/-! ### The layout in whole numbers -/

/-- Where what is placed into the slots starts, if the text from `cursor` on goes to `out`. -/
def starts (out cursor : Nat) : (slots placed : List ByteRange) → List Nat
  | slot :: slots, r :: placed =>
    (out + (slot.start - cursor)) :: starts (out + (slot.start - cursor) + r.length) slot.stop slots
      placed
  | _, _ => []

/-- Where an offset goes that is in no slot. -/
def gapPlace (out cursor : Nat) : (slots placed : List ByteRange) → (offset : Nat) → Nat
  | slot :: slots, r :: placed, offset =>
    if offset < slot.start then out + (offset - cursor)
    else gapPlace (out + (slot.start - cursor) + r.length) slot.stop slots placed offset
  | _, _, offset => out + (offset - cursor)

/-- The bytes in all of the ranges. -/
def total (ranges : List ByteRange) : Nat := (ranges.map ByteRange.length).sum

@[simp] theorem total_nil : total [] = 0 := rfl

@[simp] theorem total_cons (r : ByteRange) (ranges : List ByteRange) :
    total (r :: ranges) = r.length + total ranges := by
  rw [total, List.map_cons, List.sum_cons, total]

@[simp] theorem fill_nil {α : Type} (xs : List α) (cursor : Nat) :
    fill xs cursor [] [] = xs.drop cursor := rfl

@[simp] theorem gapPlace_nil (out cursor offset : Nat) :
    gapPlace out cursor [] [] offset = out + (offset - cursor) := rfl

/-- What is still to be placed fits in front of `size`. -/
structure Fits (size out cursor : Nat) (slots placed : List ByteRange) : Prop where
  line : InLine cursor slots
  inside : ∀ slot ∈ slots, slot.stop ≤ size
  count : slots.length = placed.length
  cursor_le : cursor ≤ size
  room : out + (size - cursor) + total placed = size + total slots

variable {size out cursor : Nat} {slot r : ByteRange} {slots placed : List ByteRange}

theorem InLine.total_le (h : InLine cursor slots) (hcursor : cursor ≤ size)
    (hin : ∀ slot ∈ slots, slot.stop ≤ size) : total slots ≤ size - cursor := by
  induction slots generalizing cursor with
  | nil => exact Nat.zero_le _
  | cons slot slots ih =>
    obtain ⟨hstart, hstop, hrest⟩ := h
    have hin' := hin slot List.mem_cons_self
    have := ih hrest hin' fun s hs => hin s (List.mem_cons_of_mem slot hs)
    rw [total_cons, ByteRange.length]
    omega

namespace Fits

theorem out_le (h : Fits size out cursor slots placed) : out + total placed ≤ size := by
  have := h.line.total_le h.cursor_le h.inside
  have := h.room
  have := h.cursor_le
  omega

theorem next (h : Fits size out cursor (slot :: slots) (r :: placed)) :
    Fits size (out + (slot.start - cursor) + r.length) slot.stop slots placed := by
  obtain ⟨hstart, hstop, hrest⟩ := h.line
  have hin := h.inside slot List.mem_cons_self
  have hroom := h.room
  have hcursor := h.cursor_le
  refine ⟨hrest, fun s hs => h.inside s (List.mem_cons_of_mem slot hs), ?_, hin, ?_⟩
  · simpa using h.count
  · have hlength : slot.length = slot.stop - slot.start := rfl
    rw [total_cons, total_cons] at hroom
    omega

/-- Induction along the slots, each filled by one of the ranges. -/
@[elab_as_elim]
theorem induct {motive : ∀ out cursor slots placed, Fits size out cursor slots placed → Prop}
    (nil : ∀ out cursor (h : Fits size out cursor [] []), motive out cursor [] [] h)
    (cons : ∀ out cursor slot slots r placed
      (h : Fits size out cursor (slot :: slots) (r :: placed)),
      motive _ _ slots placed h.next → motive out cursor (slot :: slots) (r :: placed) h)
    {out cursor : Nat} {slots placed : List ByteRange} (h : Fits size out cursor slots placed) :
    motive out cursor slots placed h := by
  induction slots generalizing out cursor placed with
  | nil =>
    obtain rfl := List.length_eq_zero_iff.mp h.count.symm
    exact nil out cursor h
  | cons slot slots ih =>
    cases placed with
    | nil => exact absurd h.count (by simp)
    | cons r placed => exact cons _ _ _ _ _ _ h (ih h.next)

end Fits

theorem length_starts (out cursor : Nat) (h : slots.length = placed.length) :
    (starts out cursor slots placed).length = placed.length := by
  induction slots generalizing out cursor placed with
  | nil =>
    obtain rfl := List.length_eq_zero_iff.mp h.symm
    rfl
  | cons slot slots ih =>
    cases placed with
    | nil => exact absurd h (by simp)
    | cons r placed =>
      rw [starts, List.length_cons, List.length_cons, ih _ _ (by simpa using h)]

theorem le_of_mem_starts {out cursor start : Nat} {slots placed : List ByteRange}
    (h : start ∈ starts out cursor slots placed) : out ≤ start := by
  fun_induction starts out cursor slots placed with
  | case1 out cursor slot slots r placed ih =>
    rcases List.mem_cons.mp h with rfl | h
    · omega
    · have := ih h
      omega
  | case2 => simp at h

/-- Members that are not empty come one behind the other. -/
theorem starts_sorted (out cursor : Nat) (slots : List ByteRange) {placed : List ByteRange}
    (h : ∀ r ∈ placed, 0 < r.length) : (starts out cursor slots placed).Pairwise (· < ·) := by
  fun_induction starts out cursor slots placed with
  | case1 out cursor slot slots r placed ih =>
    have hr := h r List.mem_cons_self
    refine List.pairwise_cons.mpr ⟨fun start hstart => ?_,
      ih fun s hs => h s (List.mem_cons_of_mem r hs)⟩
    have := le_of_mem_starts hstart
    omega
  | case2 => exact .nil

theorem le_gapPlace (out cursor : Nat) (slots placed : List ByteRange) (offset : Nat) :
    out ≤ gapPlace out cursor slots placed offset := by
  fun_induction gapPlace out cursor slots placed offset with
  | case1 => omega
  | case2 => omega
  | case3 => omega

/-- Gaps keep their order. -/
theorem gapPlace_lt {slots placed : List ByteRange} {out cursor i j : Nat} (hcursor : cursor ≤ i)
    (hij : i < j) (hi : ∀ slot ∈ slots, slot.has i = false) :
    gapPlace out cursor slots placed i < gapPlace out cursor slots placed j := by
  fun_induction gapPlace out cursor slots placed i with
  | case1 out cursor slot slots r placed i hbefore =>
    rw [gapPlace]
    split
    · omega
    · have := le_gapPlace (out + (slot.start - cursor) + r.length) slot.stop slots placed j
      omega
  | case2 out cursor slot slots r placed i hbefore ih =>
    have hgap := hi slot List.mem_cons_self
    rw [ByteRange.has_eq_false_iff] at hgap
    rw [gapPlace, if_neg (by omega)]
    exact ih (by omega) hij fun s hs => hi s (List.mem_cons_of_mem slot hs)
  | case3 out cursor slots placed i hend =>
    rw [gapPlace]
    · omega
    · exact hend

/-! ### Words that do not wrap around -/

theorem signedWord_eq {n : Int} (hlow : -9223372036854775808 ≤ n)
    (hhigh : n < 9223372036854775808) :
    signedWord n = n :=
  Int.bmod_eq_of_le (by omega) (by omega)

theorem moveOffset_eq {offset : Nat} {delta : Int} (place : Nat)
    (h : (offset : Int) + delta = place) (hplace : place < 18446744073709551616) :
    moveOffset offset delta = place := by
  rw [moveOffset, h]
  omega

section
variable (hsize : size < 9223372036854775808)
include hsize

/-- The next shift is the one between the next places. -/
theorem shift_next (h : Fits size out cursor (slot :: slots) (r :: placed)) :
    signedWord ((out : Int) - cursor + (signedWord r.length - signedWord slot.length)) =
      (out + (slot.start - cursor) + r.length : Nat) - (slot.stop : Nat) := by
  obtain ⟨hstart, hstop, _⟩ := h.line
  have hin := h.inside slot List.mem_cons_self
  have hout := h.next.out_le
  have hlength : slot.length = slot.stop - slot.start := rfl
  rw [signedWord_eq (n := r.length) (by omega) (by omega),
    signedWord_eq (n := slot.length) (by omega) (by omega), signedWord_eq (by omega) (by omega)]
  omega

omit hsize in
theorem layOut_cons (shift : Int) (lengths : List Nat) (n : Nat) :
    layOut shift (slot :: slots) (n :: lengths) =
      (moveOffset slot.start shift ::
        (layOut (signedWord (shift + (signedWord n - signedWord slot.length))) slots lengths).1,
      shift :: (layOut (signedWord (shift + (signedWord n - signedWord slot.length))) slots
        lengths).2) :=
  rfl

theorem layOut_starts (h : Fits size out cursor slots placed) :
    (layOut ((out : Int) - cursor) slots (placed.map ByteRange.length)).1 =
      starts out cursor slots placed := by
  induction h using Fits.induct with
  | nil => rfl
  | cons out cursor slot slots r placed h ih =>
    have hout := h.next.out_le
    have hline := h.line.1
    rw [List.map_cons, layOut_cons, starts, shift_next hsize h, ih,
      moveOffset_eq (out + (slot.start - cursor)) (by omega) (by omega)]

/-- An offset in no slot is moved by the shift of the slots that have started. -/
theorem moveOffset_shift (h : Fits size out cursor slots placed) {offset : Nat}
    (hcursor : cursor ≤ offset) (hoffset : offset < 18446744073709551616)
    (hgap : ∀ slot ∈ slots, slot.has offset = false) :
    moveOffset offset ((layOut ((out : Int) - cursor) slots (placed.map ByteRange.length)).2.getD
      (slots.takeWhile fun slot => slot.start ≤ offset).length 0) =
      gapPlace out cursor slots placed offset := by
  induction h using Fits.induct with
  | nil out cursor h =>
    have hroom := h.room
    have hsizes := h.cursor_le
    rw [total_nil] at hroom
    refine moveOffset_eq (out + (offset - cursor)) ?_ (by omega)
    simp only [layOut, List.takeWhile_nil, List.length_nil, List.getD_cons_zero]
    omega
  | cons out cursor slot slots r placed h ih =>
    have hout := h.next.out_le
    rw [List.map_cons, layOut_cons, gapPlace, shift_next hsize h]
    by_cases hbefore : offset < slot.start
    · rw [if_pos hbefore, List.takeWhile_cons_of_neg (by simpa using hbefore), List.length_nil,
        List.getD_cons_zero]
      exact moveOffset_eq _ (by omega) (by omega)
    · have hbehind : slot.stop ≤ offset := by
        have := hgap slot List.mem_cons_self
        rw [ByteRange.has_eq_false_iff] at this
        omega
      rw [if_neg hbefore, List.takeWhile_cons_of_pos (by simpa using hbefore), List.length_cons,
        List.getD_cons_succ]
      exact ih hbehind fun s hs => hgap s (List.mem_cons_of_mem slot hs)

end

/-! ### Filled lists -/

section
variable {α : Type} {xs : List α}

theorem length_gap (h : Fits xs.length out cursor (slot :: slots) (r :: placed)) :
    (ByteRange.pick ⟨cursor, slot.start⟩ xs).length = slot.start - cursor := by
  have hin := h.inside slot List.mem_cons_self
  have hline := h.line.2.1
  exact ByteRange.length_pick (r := ⟨cursor, slot.start⟩) (hline.trans hin)

theorem length_fill (h : Fits xs.length out cursor slots placed)
    (hplaced : ∀ r ∈ placed, r.stop ≤ xs.length) :
    out + (fill xs cursor slots placed).length = xs.length := by
  induction h using Fits.induct with
  | nil out cursor h =>
    have hroom := h.room
    have hcursor := h.cursor_le
    rw [total_nil] at hroom
    rw [fill_nil, List.length_drop]
    omega
  | cons out cursor slot slots r placed h ih =>
    rw [fill, List.length_append, List.length_append, length_gap h,
      ByteRange.length_pick (hplaced r List.mem_cons_self)]
    have := ih fun s hs => hplaced s (List.mem_cons_of_mem r hs)
    omega

/-- Behind the gap and what is placed in the first slot the other slots follow. -/
theorem getElem?_fill_behind (h : Fits xs.length out cursor (slot :: slots) (r :: placed))
    (hr : r.stop ≤ xs.length) {place : Nat}
    (hplace : out + (slot.start - cursor) + r.length ≤ place) :
    (fill xs cursor (slot :: slots) (r :: placed))[place - out]? =
      (fill xs slot.stop slots placed)[place - (out + (slot.start - cursor) + r.length)]? := by
  have hlength : (ByteRange.pick ⟨cursor, slot.start⟩ xs ++ r.pick xs).length =
      slot.start - cursor + r.length := by
    rw [List.length_append, length_gap h, ByteRange.length_pick hr]
  rw [fill, List.getElem?_append_right (by omega), hlength]
  congr 1
  omega

theorem getElem?_fill_gap (h : Fits xs.length out cursor slots placed)
    (hplaced : ∀ r ∈ placed, r.stop ≤ xs.length) {offset : Nat} (hcursor : cursor ≤ offset)
    (hgap : ∀ slot ∈ slots, slot.has offset = false) :
    out ≤ gapPlace out cursor slots placed offset ∧
      (fill xs cursor slots placed)[gapPlace out cursor slots placed offset - out]? =
        xs[offset]? := by
  induction h using Fits.induct with
  | nil out cursor h =>
    rw [gapPlace_nil, fill_nil, Nat.add_sub_cancel_left, List.getElem?_drop,
      Nat.add_sub_cancel' hcursor]
    exact ⟨Nat.le_add_right .., rfl⟩
  | cons out cursor slot slots r placed h ih =>
    rw [gapPlace]
    by_cases hbefore : offset < slot.start
    · rw [if_pos hbefore, fill, Nat.add_sub_cancel_left, List.append_assoc,
        List.getElem?_append_left (by rw [length_gap h]; omega),
        ByteRange.getElem?_pick (by show _ < slot.start - cursor; omega),
        Nat.add_sub_cancel' hcursor]
      exact ⟨Nat.le_add_right .., rfl⟩
    · have hbehind : slot.stop ≤ offset := by
        have := hgap slot List.mem_cons_self
        rw [ByteRange.has_eq_false_iff] at this
        omega
      obtain ⟨hplace, hget⟩ := ih (fun s hs => hplaced s (List.mem_cons_of_mem r hs)) hbehind
        fun s hs => hgap s (List.mem_cons_of_mem slot hs)
      rw [if_neg hbefore, getElem?_fill_behind h (hplaced r List.mem_cons_self) hplace]
      exact ⟨by omega, hget⟩

theorem getElem?_fill_placed (h : Fits xs.length out cursor slots placed)
    (hplaced : ∀ r ∈ placed, r.stop ≤ xs.length) {k d start : Nat} {r : ByteRange}
    (hr : placed[k]? = some r) (hstart : (starts out cursor slots placed)[k]? = some start)
    (hd : d < r.length) :
    out ≤ start ∧ (fill xs cursor slots placed)[start + d - out]? = xs[r.start + d]? := by
  induction h using Fits.induct generalizing k with
  | nil => simp at hr
  | cons out cursor slot slots first placed h ih =>
    rw [starts] at hstart
    cases k with
    | zero =>
      obtain rfl := Option.some.inj hr
      obtain rfl := Option.some.inj hstart
      have hindex : out + (slot.start - cursor) + d - out = slot.start - cursor + d := by omega
      have hpick := ByteRange.length_pick (hplaced first List.mem_cons_self)
      rw [hindex, fill, List.append_assoc, List.getElem?_append_right (by rw [length_gap h]; omega),
        length_gap h, Nat.add_sub_cancel_left, List.getElem?_append_left (by omega),
        ByteRange.getElem?_pick hd]
      exact ⟨Nat.le_add_right .., rfl⟩
    | succ k =>
      obtain ⟨hplace, hget⟩ := ih (fun s hs => hplaced s (List.mem_cons_of_mem first hs)) hr hstart
      rw [getElem?_fill_behind h (hplaced first List.mem_cons_self) (by omega)]
      exact ⟨by omega, hget⟩

end

/-! ### The remap of a permutation -/

theorem badEntry?_eq_none_iff {n : Nat} {seen permutation : List Nat} :
    badEntry? n seen permutation = none ↔
      (∀ entry ∈ permutation, entry < n ∧ entry ∉ seen) ∧ permutation.Nodup := by
  induction permutation generalizing seen with
  | nil =>
    refine iff_of_true rfl ⟨fun _ h => absurd h List.not_mem_nil, List.nodup_nil⟩
  | cons entry rest ih =>
    by_cases hbad : n ≤ entry ∨ entry ∈ seen
    · unfold badEntry?
      rw [if_pos (by simpa using hbad)]
      refine ⟨fun h => absurd h (by simp), fun h => ?_⟩
      obtain ⟨hlt, hnew⟩ := h.1 entry List.mem_cons_self
      exact (hbad.elim (Nat.not_le.mpr hlt) hnew).elim
    · unfold badEntry?
      rw [if_neg (by simpa using hbad), ih, List.nodup_cons]
      simp only [List.mem_cons, not_or]
      grind

theorem slotDefect?_eq_none_iff {before : Option ByteRange} {slots : List ByteRange} :
    slotDefect? before slots = none ↔ InLine ((before.map ByteRange.stop).getD 0) slots := by
  induction slots generalizing before with
  | nil => simp [slotDefect?, InLine]
  | cons slot slots ih =>
    by_cases hreversed : slot.stop < slot.start
    · simp [slotDefect?, InLine, hreversed]
    · cases before with
      | none => simp [slotDefect?, InLine, hreversed, ih, Nat.not_lt.mp hreversed]
      | some previous =>
        by_cases hoverlap : slot.start < previous.stop
        · simp [slotDefect?, InLine, hreversed, hoverlap]
        · simp [slotDefect?, InLine, hreversed, hoverlap, ih, Nat.not_lt.mp hreversed,
            Nat.not_lt.mp hoverlap]

section
variable (ranges : List ByteRange) (permutation : List Nat)

/-- The ranges in the order of their slots. -/
def slotsOf : List ByteRange := (sortedSlots ranges).map Prod.fst

/-- The ranges in the order in which a permutation places them. -/
def placedBy : List ByteRange := permutation.map fun member => ranges.getD member ⟨0, 0⟩

/-- The permutation lists the members, and the ranges do not overlap. -/
def Accepted : Prop :=
  permutation.Perm (List.range ranges.length) ∧ InLine 0 (slotsOf ranges)

/-- The remap of what is accepted. -/
def laidOut : Remap :=
  let layout := layOut 0 (slotsOf ranges) ((placedBy ranges permutation).map ByteRange.length)
  { slots := slotsOf ranges
    owners := (sortedSlots ranges).map Prod.snd
    newStart := (List.range ranges.length).map fun member =>
      layout.1.getD (permutation.idxOf member) 0
    shift := layout.2 }

end

variable {ranges : List ByteRange} {permutation : List Nat}

theorem perm_range_iff {n : Nat} : permutation.Perm (List.range n) ↔
    permutation.length = n ∧ badEntry? n [] permutation = none := by
  simp only [List.not_mem_nil, not_false_eq_true, and_true, badEntry?_eq_none_iff]
  constructor
  · intro h
    refine ⟨h.length_eq.trans List.length_range, fun e he => ?_, h.nodup_iff.mpr List.nodup_range⟩
    exact List.mem_range.mp (h.subset he)
  · rintro ⟨hlength, hlt, hn⟩
    refine (List.subperm_of_subset hn fun e he =>
      List.mem_range.mpr (hlt e he)).perm_of_length_le ?_
    rw [List.length_range, hlength]

theorem ofPermutation_eq_ok_iff {r : Remap} : ofPermutation ranges permutation = .ok r ↔
    Accepted ranges permutation ∧ laidOut ranges permutation = r := by
  have hlengths : (permutation.map fun member => (ranges[member]?.map ByteRange.length).getD 0) =
      (placedBy ranges permutation).map ByteRange.length := by
    rw [placedBy, List.map_map]
    refine List.map_congr_left fun member _ => ?_
    rw [Function.comp, List.getD_eq_getElem?_getD]
    cases ranges[member]? <;> rfl
  have hdefect : slotDefect? none (slotsOf ranges) = none ↔ InLine 0 (slotsOf ranges) :=
    slotDefect?_eq_none_iff
  rw [Accepted, perm_range_iff, ← hdefect, ofPermutation, hlengths]
  split
  · rename_i hlength
    simp [hlength]
  · rename_i hlength
    have hlength := Decidable.not_not.mp hlength
    cases hentry : badEntry? ranges.length [] permutation with
    | some entry => simp
    | none =>
      cases hslot : slotDefect? none (slotsOf ranges) with
      | some defect =>
        rw [slotsOf] at hslot
        simp [hslot]
      | none =>
        rw [slotsOf] at hslot
        simp [hslot, hlength, laidOut, slotsOf]

theorem slotsOf_perm (ranges : List ByteRange) : (slotsOf ranges).Perm ranges := by
  have hperm := (List.mergeSort_perm ranges.zipIdx fun a b =>
    a.1.start < b.1.start || (a.1.start == b.1.start && a.1.stop ≤ b.1.stop)).map Prod.fst
  rwa [List.zipIdx_map_fst] at hperm

theorem placedBy_range (ranges : List ByteRange) :
    placedBy ranges (List.range ranges.length) = ranges := by
  refine List.ext_getElem (by simp [placedBy]) fun i hi _ => ?_
  rw [placedBy, List.length_map, List.length_range] at hi
  simp [placedBy, hi]

theorem placedBy_perm (h : permutation.Perm (List.range ranges.length)) :
    (placedBy ranges permutation).Perm ranges := by
  have hperm := h.map fun member => ranges.getD member ⟨0, 0⟩
  rwa [← placedBy, ← placedBy, placedBy_range] at hperm

/-- What a permutation puts at the place of a member is the member's range. -/
theorem getElem?_placedBy (h : permutation.Perm (List.range ranges.length)) {m : Nat}
    {range : ByteRange} (hm : ranges[m]? = some range) :
    (placedBy ranges permutation)[permutation.idxOf m]? = some range := by
  have hlt : m < ranges.length := (List.getElem?_eq_some_iff.mp hm).1
  have hmem : m ∈ permutation := h.symm.subset (List.mem_range.mpr hlt)
  rw [placedBy, List.getElem?_map, List.getElem?_idxOf hmem, Option.map_some,
    List.getD_eq_getElem?_getD, hm, Option.getD_some]

/-- The slot of a member and its owner stand at one place. -/
theorem exists_slot {m : Nat} {range : ByteRange} (h : ranges[m]? = some range) :
    ∃ k : Nat, (slotsOf ranges)[k]? = some range ∧
      ((sortedSlots ranges).map Prod.snd)[k]? = some m := by
  have hmem : (range, m) ∈ sortedSlots ranges :=
    (List.mergeSort_perm ..).symm.subset (List.mem_zipIdx_iff_getElem?.mpr h)
  obtain ⟨k, hk, hget⟩ := List.getElem_of_mem hmem
  refine ⟨k, ?_, ?_⟩
  · rw [slotsOf, List.getElem?_map, List.getElem?_eq_getElem hk, hget]
    rfl
  · rw [List.getElem?_map, List.getElem?_eq_getElem hk, hget]
    rfl

theorem InLine.start_le {cursor : Nat} {slots : List ByteRange} (h : InLine cursor slots)
    {slot : ByteRange} (hslot : slot ∈ slots) : cursor ≤ slot.start := by
  induction slots generalizing cursor with
  | nil => simp at hslot
  | cons first slots ih =>
    rcases List.mem_cons.mp hslot with rfl | hslot
    · exact h.1
    · exact (h.1.trans h.2.1).trans (ih h.2.2 hslot)

/-- Where a slot holds an offset, the slots that have started are those up to it. -/
theorem length_takeWhile_started {cursor k offset : Nat} {slots : List ByteRange} {slot : ByteRange}
    (h : InLine cursor slots) (hslot : slots[k]? = some slot) (hhas : slot.has offset = true) :
    (slots.takeWhile fun slot => slot.start ≤ offset).length = k + 1 := by
  rw [ByteRange.has_iff] at hhas
  induction slots generalizing cursor k with
  | nil => simp at hslot
  | cons first slots ih =>
    obtain ⟨_, hfirst, hrest⟩ := h
    cases k with
    | zero =>
      obtain rfl := Option.some.inj hslot
      rw [List.takeWhile_cons_of_pos (by simpa using hhas.1)]
      cases slots with
      | nil => rfl
      | cons second slots =>
        have := hrest.1
        rw [List.takeWhile_cons_of_neg (by simp; omega)]
        rfl
    | succ k =>
      have hstart := hrest.start_le (List.mem_of_getElem? hslot)
      rw [List.takeWhile_cons_of_pos (by simp; omega), List.length_cons, ih hrest hslot]

/-! ### Where offsets go -/

section
variable {size : Nat} (hsize : size < 9223372036854775808) (h : Accepted ranges permutation)
  (hin : ∀ range ∈ ranges, range.stop ≤ size)
include h hin

theorem Accepted.fits : Fits size 0 0 (slotsOf ranges) (placedBy ranges permutation) where
  line := h.2
  inside slot hslot := hin slot ((slotsOf_perm ranges).subset hslot)
  count := ((slotsOf_perm ranges).trans (placedBy_perm h.1).symm).length_eq
  cursor_le := Nat.zero_le size
  room := by
    have htotal : total (placedBy ranges permutation) = total (slotsOf ranges) :=
      (((placedBy_perm h.1).trans (slotsOf_perm ranges).symm).map ByteRange.length).sum_nat
    omega

include hsize

theorem apply_of_gap {offset : Nat} (hoffset : offset < 18446744073709551616)
    (hgap : ∀ range ∈ ranges, range.has offset = false) :
    (laidOut ranges permutation).apply offset =
      gapPlace 0 0 (slotsOf ranges) (placedBy ranges permutation) offset := by
  have hgap' : ∀ slot ∈ slotsOf ranges, slot.has offset = false := fun slot hslot =>
    hgap slot ((slotsOf_perm ranges).subset hslot)
  rw [← moveOffset_shift hsize (h.fits hin) (Nat.zero_le offset) hoffset hgap', apply]
  split
  · rfl
  · split
    · rename_i slot hslot
      rw [if_neg]
      · rfl
      · rw [hgap' slot (List.mem_of_getElem? hslot)]
        exact Bool.false_ne_true
    · rfl

theorem apply_of_slot {m offset : Nat} {range : ByteRange} (hm : ranges[m]? = some range)
    (hhas : range.has offset = true) :
    (laidOut ranges permutation).apply offset =
      (starts 0 0 (slotsOf ranges) (placedBy ranges permutation)).getD (permutation.idxOf m) 0 +
        (offset - range.start) := by
  obtain ⟨k, hslot, howner⟩ := exists_slot hm
  have hopened := length_takeWhile_started h.2 hslot hhas
  have hlt : m < ranges.length := (List.getElem?_eq_some_iff.mp hm).1
  have hstarts := layOut_starts hsize (h.fits hin)
  rw [apply]
  simp only [laidOut, hopened, hslot, hhas, if_true]
  congr 1
  rw [List.getD_eq_getElem?_getD, List.getD_eq_getElem?_getD, howner, Option.getD_some,
    List.getElem?_map, List.getElem?_range hlt, Option.map_some, Option.getD_some, ← hstarts]
  rfl

/-- **What stood at an offset stands at its new place** once the slots are filled. -/
theorem getElem?_fill_apply {α : Type} {xs : List α}
    (hxs : ∀ range ∈ ranges, range.stop ≤ xs.length) {offset : Nat}
    (hoffset : offset < 18446744073709551616) :
    (fill xs 0 (slotsOf ranges) (placedBy ranges permutation))[
      (laidOut ranges permutation).apply offset]? = xs[offset]? := by
  have hfits := h.fits hxs
  have hplaced : ∀ r ∈ placedBy ranges permutation, r.stop ≤ xs.length := fun r hr =>
    hxs r ((placedBy_perm h.1).subset hr)
  by_cases hgap : ∀ range ∈ ranges, range.has offset = false
  · have hget := (getElem?_fill_gap hfits hplaced (Nat.zero_le offset) fun slot hslot =>
      hgap slot ((slotsOf_perm ranges).subset hslot)).2
    rwa [Nat.sub_zero, ← apply_of_gap hsize h hin hoffset hgap] at hget
  · obtain ⟨range, hrange, hhas⟩ : ∃ range ∈ ranges, range.has offset = true := by
      simpa using hgap
    obtain ⟨m, hm⟩ := List.mem_iff_getElem?.mp hrange
    have hplace := getElem?_placedBy h.1 hm
    have hlt := (List.getElem?_eq_some_iff.mp hplace).1
    rw [← length_starts 0 0 hfits.count] at hlt
    have hstart := List.getElem?_eq_getElem hlt
    rw [ByteRange.has_iff] at hhas
    have hd : offset - range.start < range.length := by
      rw [ByteRange.length]
      omega
    have hget := (getElem?_fill_placed hfits hplaced hplace hstart hd).2
    rw [apply_of_slot hsize h hin hm (ByteRange.has_iff.mpr hhas), List.getD_eq_getElem?_getD,
      hstart]
    rw [Nat.sub_zero, Nat.add_sub_cancel' hhas.1] at hget
    exact hget

theorem getElem?_apply {α : Type} (xs : List α) (hlength : xs.length = size) {offset : Nat}
    (hoffset : offset < size) :
    (fill xs 0 (slotsOf ranges) (placedBy ranges permutation))[
      (laidOut ranges permutation).apply offset]? = xs[offset]? :=
  getElem?_fill_apply hsize h hin (hlength ▸ hin) (by omega)

omit hsize in
theorem length_fill_slots {α : Type} {xs : List α} (hlength : xs.length = size) :
    (fill xs 0 (slotsOf ranges) (placedBy ranges permutation)).length = xs.length := by
  subst hlength
  have := length_fill (h.fits hin) fun r hr => hin r ((placedBy_perm h.1).subset hr)
  omega

theorem apply_lt {offset : Nat} (hoffset : offset < size) :
    (laidOut ranges permutation).apply offset < size := by
  have hget := getElem?_apply hsize h hin (List.range size) List.length_range hoffset
  rw [List.getElem?_range hoffset] at hget
  have hlt := (List.getElem?_eq_some_iff.mp hget).1
  rwa [length_fill_slots h hin List.length_range, List.length_range] at hlt

/-- A list of distinct elements tells apart the places of two offsets. -/
theorem apply_inj {i j : Nat} (hi : i < size) (hj : j < size)
    (heq : (laidOut ranges permutation).apply i = (laidOut ranges permutation).apply j) :
    i = j := by
  have hgeti := getElem?_apply hsize h hin (List.range size) List.length_range hi
  have hgetj := getElem?_apply hsize h hin (List.range size) List.length_range hj
  rw [List.getElem?_range hi] at hgeti
  rw [← heq, hgeti, List.getElem?_range hj] at hgetj
  exact Option.some.inj hgetj

theorem apply_of_before {offset : Nat} (hoffset : offset < size)
    (hbefore : ∀ range ∈ ranges, offset < range.start) :
    (laidOut ranges permutation).apply offset = offset := by
  have hgap : ∀ range ∈ ranges, range.has offset = false := by
    intro range hrange
    have := hbefore range hrange
    rw [ByteRange.has_eq_false_iff]
    omega
  rw [apply_of_gap hsize h hin (by omega) hgap]
  have hslots : ∀ slot ∈ slotsOf ranges, offset < slot.start := fun slot hslot =>
    hbefore slot ((slotsOf_perm ranges).subset hslot)
  have hcount := (h.fits hin).count
  cases hs : slotsOf ranges with
  | nil =>
    rw [hs] at hcount
    rw [List.length_eq_zero_iff.mp hcount.symm]
    simp
  | cons slot slots =>
    cases hp : placedBy ranges permutation with
    | nil => simp [hs, hp] at hcount
    | cons r placed => rw [gapPlace, if_pos (hslots slot (by simp [hs]))]; omega

/-- Nothing goes to the front of the ranges that was not there. -/
theorem le_apply {low offset : Nat} (hlow : ∀ range ∈ ranges, low ≤ range.start)
    (hle : low ≤ offset) (hoffset : offset < size) :
    low ≤ (laidOut ranges permutation).apply offset := by
  by_contra hlt
  have hfixed := apply_of_before hsize h hin (apply_lt hsize h hin hoffset)
    fun range hrange => Nat.lt_of_not_le fun hge => hlt ((hlow range hrange).trans hge)
  have heq := apply_inj hsize h hin (apply_lt hsize h hin hoffset) hoffset hfixed
  exact hlt (hle.trans_eq heq.symm)

/-- A member moves as a whole. -/
theorem apply_add {m d : Nat} {range : ByteRange} (hm : ranges[m]? = some range)
    (hd : range.start + d < range.stop) :
    (laidOut ranges permutation).apply (range.start + d) =
      (laidOut ranges permutation).apply range.start + d := by
  rw [apply_of_slot hsize h hin hm (ByteRange.has_iff.mpr ⟨by omega, hd⟩),
    apply_of_slot hsize h hin hm (ByteRange.has_iff.mpr ⟨le_rfl, by omega⟩), Nat.sub_self,
    Nat.add_sub_cancel_left]
  rfl

omit hsize in
/-- What is kept by member, told in the order of the permutation. -/
theorem map_starts_idxOf :
    permutation.map (fun m => (starts 0 0 (slotsOf ranges) (placedBy ranges permutation)).getD
      (permutation.idxOf m) 0) =
      starts 0 0 (slotsOf ranges) (placedBy ranges permutation) := by
  have hlength : (starts 0 0 (slotsOf ranges) (placedBy ranges permutation)).length =
      permutation.length := by
    rw [length_starts 0 0 (h.fits hin).count, placedBy, List.length_map]
  refine List.ext_getElem (by rw [List.length_map, hlength]) fun k hk hk' => ?_
  rw [List.length_map] at hk
  rw [List.getElem_map, (h.1.nodup_iff.mpr List.nodup_range).idxOf_getElem k hk]
  simp [hk']

/-- The members start in the order of the permutation. -/
theorem map_apply_start (hne : ∀ range ∈ ranges, range.start < range.stop) :
    permutation.map (fun m => (laidOut ranges permutation).apply (ranges.getD m ⟨0, 0⟩).start) =
      starts 0 0 (slotsOf ranges) (placedBy ranges permutation) := by
  refine Eq.trans (List.map_congr_left fun m hm => ?_) (map_starts_idxOf h hin)
  have hlt : m < ranges.length := List.mem_range.mp (h.1.subset hm)
  have hrange := List.getElem?_eq_getElem hlt
  have hne' := hne _ (List.getElem_mem hlt)
  rw [List.getD_eq_getElem?_getD, hrange, Option.getD_some,
    apply_of_slot hsize h hin hrange (ByteRange.has_iff.mpr ⟨le_rfl, hne'⟩), Nat.sub_self,
    Nat.add_zero]

/-- So do the starts that the remap keeps. -/
theorem map_newStart : permutation.map (fun m => (laidOut ranges permutation).newStart.getD m 0) =
    starts 0 0 (slotsOf ranges) (placedBy ranges permutation) := by
  have hstarts : (layOut 0 (slotsOf ranges)
    ((placedBy ranges permutation).map ByteRange.length)).1 =
      starts 0 0 (slotsOf ranges) (placedBy ranges permutation) := layOut_starts hsize (h.fits hin)
  refine Eq.trans (List.map_congr_left fun m hm => ?_) (map_starts_idxOf h hin)
  have hlt : m < ranges.length := List.mem_range.mp (h.1.subset hm)
  simp only [laidOut, hstarts]
  rw [List.getD_eq_getElem?_getD, List.getElem?_map, List.getElem?_range hlt, Option.map_some,
    Option.getD_some]

theorem apply_gap_lt {i j : Nat} (hij : i < j) (hj : j < 18446744073709551616)
    (hgapi : ∀ range ∈ ranges, range.has i = false)
    (hgapj : ∀ range ∈ ranges, range.has j = false) :
    (laidOut ranges permutation).apply i < (laidOut ranges permutation).apply j := by
  rw [apply_of_gap hsize h hin (hij.trans hj) hgapi, apply_of_gap hsize h hin hj hgapj]
  exact gapPlace_lt (Nat.zero_le i) hij fun slot hslot =>
    hgapi slot ((slotsOf_perm ranges).subset hslot)

end

/-! ### Ranges that are in line already -/

theorem InLine.pairwise {cursor : Nat} {slots : List ByteRange} (h : InLine cursor slots) :
    slots.Pairwise fun a b => a.stop ≤ b.start := by
  induction slots generalizing cursor with
  | nil => exact .nil
  | cons slot slots ih =>
    exact List.pairwise_cons.mpr ⟨fun b hb => h.2.2.start_le hb, ih h.2.2⟩

theorem InLine.le {cursor : Nat} {slots : List ByteRange} (h : InLine cursor slots)
    {slot : ByteRange} (hslot : slot ∈ slots) : slot.start ≤ slot.stop := by
  induction slots generalizing cursor with
  | nil => simp at hslot
  | cons first slots ih =>
    rcases List.mem_cons.mp hslot with rfl | hslot
    · exact h.2.1
    · exact ih h.2.2 hslot

theorem InLine.of_pairwise {cursor : Nat} {slots : List ByteRange}
    (hstart : ∀ slot ∈ slots, cursor ≤ slot.start) (hle : ∀ slot ∈ slots, slot.start ≤ slot.stop)
    (h : slots.Pairwise fun a b => a.stop ≤ b.start) :
    InLine cursor slots := by
  induction slots generalizing cursor with
  | nil => trivial
  | cons slot slots ih =>
    obtain ⟨hbehind, hrest⟩ := List.pairwise_cons.mp h
    exact ⟨hstart slot List.mem_cons_self, hle slot List.mem_cons_self,
      ih hbehind (fun s hs => hle s (List.mem_cons_of_mem slot hs)) hrest⟩

theorem InLine.mono {cursor floor : Nat} {slots : List ByteRange} (h : InLine cursor slots)
    (hfloor : floor ≤ cursor) : InLine floor slots := by
  cases slots with
  | nil => trivial
  | cons slot slots => exact ⟨hfloor.trans h.1, h.2⟩

theorem InLine.shifted {cursor : Nat} {slots : List ByteRange} (h : InLine cursor slots)
    (bytes : Nat) :
    InLine (cursor + bytes) (slots.map fun r => r.shifted bytes) := by
  induction slots generalizing cursor with
  | nil => trivial
  | cons slot slots ih =>
    obtain ⟨hgap, hle, hrest⟩ := h
    exact ⟨Nat.add_le_add_right hgap bytes, Nat.add_le_add_right hle bytes, ih hrest⟩

theorem slotsOf_eq {ranges : List ByteRange} (h : InLine 0 ranges) : slotsOf ranges = ranges := by
  have hsorted : ranges.zipIdx.Pairwise fun a b =>
      (a.1.start < b.1.start || (a.1.start == b.1.start && a.1.stop ≤ b.1.stop)) = true := by
    have hline := h.pairwise
    rw [← List.zipIdx_map_fst 0 ranges, List.pairwise_map] at hline
    refine hline.imp_of_mem fun {a b} ha hb hab => ?_
    have hale := h.le (List.fst_mem_of_mem_zipIdx ha)
    have hble := h.le (List.fst_mem_of_mem_zipIdx hb)
    simp only [Bool.or_eq_true, decide_eq_true_eq, Bool.and_eq_true, beq_iff_eq]
    omega
  rw [slotsOf, sortedSlots, List.mergeSort_of_pairwise hsorted, List.zipIdx_map_fst]

/-- None of the ranges is reversed, and no two of them overlap. -/
structure Apart (ranges : List ByteRange) : Prop where
  forward : ∀ r ∈ ranges, r.start ≤ r.stop
  pairwise : ranges.Pairwise fun r s => r.stop ≤ s.start ∨ s.stop ≤ r.start

theorem Apart.perm {ranges slots : List ByteRange} (h : Apart ranges) (hperm : ranges.Perm slots) :
    Apart slots where
  forward r hr := h.forward r (hperm.symm.subset hr)
  pairwise := h.pairwise.perm hperm fun hrs => hrs.symm

theorem slotsOf_sorted (ranges : List ByteRange) :
    (slotsOf ranges).Pairwise fun a b => a.start < b.start ∨ a.start = b.start ∧
      a.stop ≤ b.stop := by
  have hsorted : (sortedSlots ranges).Pairwise fun a b =>
      (a.1.start < b.1.start || (a.1.start == b.1.start && a.1.stop ≤ b.1.stop)) = true :=
    List.pairwise_mergeSort (by grind) (by grind) ranges.zipIdx
  rw [slotsOf, List.pairwise_map]
  exact hsorted.imp fun hab => by simpa using hab

/-- Only neighbours are compared, but in sorted slots that is enough. -/
theorem inLine_slotsOf_iff {ranges : List ByteRange} :
    InLine 0 (slotsOf ranges) ↔ Apart ranges := by
  have hperm := slotsOf_perm ranges
  constructor
  · intro h
    have hslots : Apart (slotsOf ranges) := ⟨fun _ hslot => h.le hslot, h.pairwise.imp .inl⟩
    exact hslots.perm hperm
  · intro h
    have hslots := h.perm hperm.symm
    refine .of_pairwise (fun _ _ => Nat.zero_le _) hslots.forward ?_
    refine (slotsOf_sorted ranges).and hslots.pairwise |>.imp_of_mem fun {a b} ha hb hab => ?_
    have hale := hslots.forward a ha
    have hble := hslots.forward b hb
    omega

theorem fill_self {α : Type} (xs : List α) {cursor : Nat} {slots : List ByteRange}
    (h : InLine cursor slots) :
    fill xs cursor slots slots = xs.drop cursor := by
  induction slots generalizing cursor with
  | nil => rfl
  | cons slot slots ih =>
    rw [fill, ih h.2.2, List.append_assoc, ByteRange.pick_append_drop h.2.1]
    exact ByteRange.pick_append_drop (r := ⟨cursor, slot.start⟩) h.1 xs

/-- What stands in front of all slots stays. -/
theorem take_append_fill {α : Type} (xs : List α) {cursor : Nat} {slots : List ByteRange}
    (h : ∀ slot ∈ slots, cursor ≤ slot.start) (placed : List ByteRange) :
    xs.take cursor ++ fill xs cursor slots placed = fill xs 0 slots placed := by
  cases slots with
  | nil => exact List.take_append_drop cursor xs
  | cons slot slots =>
    cases placed with
    | nil => exact List.take_append_drop cursor xs
    | cons r placed =>
      have hgap : xs.take cursor ++ ByteRange.pick ⟨cursor, slot.start⟩ xs =
          ByteRange.pick ⟨0, slot.start⟩ xs := by
        have hle := h slot List.mem_cons_self
        simp only [ByteRange.pick, ByteRange.length, ← List.take_add, List.drop_zero, Nat.sub_zero,
          Nat.add_sub_cancel' hle]
      rw [fill, fill, ← List.append_assoc, ← List.append_assoc, hgap]

/-- The members in the order that they have stay where they are. -/
theorem apply_range {size : Nat} (hsize : size < 9223372036854775808) {ranges : List ByteRange}
    (hline : InLine 0 ranges) (hin : ∀ range ∈ ranges, range.stop ≤ size) {offset : Nat}
    (hoffset : offset < size) : (laidOut ranges (List.range ranges.length)).apply offset =
      offset := by
  have haccepted : Accepted ranges (List.range ranges.length) :=
    ⟨.refl _, (slotsOf_eq hline).symm ▸ hline⟩
  have hget := getElem?_apply hsize haccepted hin (List.range size) List.length_range hoffset
  rw [slotsOf_eq hline, placedBy_range, fill_self _ hline, List.drop_zero,
    List.getElem?_range hoffset] at hget
  obtain ⟨hlt, hplace⟩ := List.getElem?_eq_some_iff.mp hget
  rwa [List.getElem_range] at hplace

end Remap

end CalleeFirst
