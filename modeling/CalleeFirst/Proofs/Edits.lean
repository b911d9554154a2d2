import CalleeFirst.Source.Reorder
import CalleeFirst.Proofs.Bytes

/-! Edits of a text.

Edits replace spans that come one behind the other by texts of the same length. They are
applied from the last to the first, so every span is still bounded by characters when its
turn comes (`Editable.isBoundary`). What comes out holds the replacement in every span and is the
old text elsewhere (`Editable.getElem?_inside`, `Editable.getElem?_outside`), and an offset is
remapped by the one edit whose span has it, if there is one. -/
namespace CalleeFirst.Source

open Text (IsBoundary bytes byteLength)

/-- The edit replaces a piece of the text by one of the same length. -/
structure Edit.FitsIn (source : List Char) (e : Edit) : Prop where
  start : IsBoundary source e.span.start
  stop : IsBoundary source e.span.stop
  le : e.span.start ≤ e.span.stop
  length : byteLength e.replacement = e.span.length

/-- The edits fit, and their spans come one behind the other. -/
structure Editable (source : List Char) (edits : List Edit) : Prop where
  fits : ∀ e ∈ edits, e.FitsIn source
  ordered : edits.Pairwise fun e f => e.span.stop ≤ f.span.start

theorem applyEdits_cons (source : List Char) (e : Edit) (edits : List Edit) :
    applyEdits source (e :: edits) =
      Text.replaceRange (applyEdits source edits) e.span e.replacement := rfl

/-- Boundaries in front of all spans stay, if those start one behind the other. -/
theorem isBoundary_applyEdits {source : List Char} {edits : List Edit} {n : Nat}
    (hn : IsBoundary source n) (hstart : ∀ e ∈ edits, IsBoundary source e.span.start)
    (hordered : edits.Pairwise fun e f => e.span.start ≤ f.span.start)
    (hfront : ∀ e ∈ edits, n ≤ e.span.start) : IsBoundary (applyEdits source edits) n := by
  induction edits generalizing n with
  | nil => exact hn
  | cons e edits ih =>
    obtain ⟨hbehind, hrest⟩ := List.pairwise_cons.mp hordered
    obtain ⟨he, hstart⟩ := List.forall_mem_cons.mp hstart
    obtain ⟨hle, hfront⟩ := List.forall_mem_cons.mp hfront
    rw [applyEdits_cons]
    exact (ih hn hstart hrest hfront).replaceRange (ih he hstart hrest hbehind) hle _

namespace Editable
variable {source : List Char} {e : Edit} {edits : List Edit}

theorem tail (h : Editable source (e :: edits)) : Editable source edits :=
  ⟨fun f hf => h.fits f (List.mem_cons_of_mem e hf), (List.pairwise_cons.mp h.ordered).2⟩

theorem behind (h : Editable source (e :: edits)) : ∀ f ∈ edits, e.span.stop ≤ f.span.start :=
  (List.pairwise_cons.mp h.ordered).1

/-! ### The edited text -/

/-- Boundaries in front of all spans stay. -/
theorem isBoundary (h : Editable source edits) {n : Nat} (hn : IsBoundary source n)
    (hfront : ∀ e ∈ edits, n ≤ e.span.start) : IsBoundary (applyEdits source edits) n :=
  isBoundary_applyEdits hn (fun e he => (h.fits e he).start)
    (h.ordered.imp_of_mem fun he _ hle => (h.fits _ he).le.trans hle) hfront

theorem isBoundary_start (h : Editable source (e :: edits)) :
    IsBoundary (applyEdits source edits) e.span.start :=
  h.tail.isBoundary (h.fits e List.mem_cons_self).start fun f hf =>
    (h.fits e List.mem_cons_self).le.trans (h.behind f hf)

theorem isBoundary_stop (h : Editable source (e :: edits)) :
    IsBoundary (applyEdits source edits) e.span.stop :=
  h.tail.isBoundary (h.fits e List.mem_cons_self).stop h.behind

theorem byteLength_applyEdits (h : Editable source edits) :
    byteLength (applyEdits source edits) = byteLength source := by
  induction edits with
  | nil => rfl
  | cons e edits ih =>
    have he := h.fits e List.mem_cons_self
    rw [applyEdits_cons, Text.byteLength_replaceRange h.isBoundary_start h.isBoundary_stop he.le
      he.length, ih h.tail]

theorem getElem?_outside (h : Editable source edits) {p : Nat}
    (hp : ∀ e ∈ edits, e.span.has p = false) :
    (bytes (applyEdits source edits))[p]? = (bytes source)[p]? := by
  induction edits with
  | nil => rfl
  | cons e edits ih =>
    have he := h.fits e List.mem_cons_self
    rw [applyEdits_cons, Text.getElem?_replaceRange_outside h.isBoundary_start h.isBoundary_stop
      he.le he.length (hp e List.mem_cons_self),
      ih h.tail fun f hf => hp f (List.mem_cons_of_mem e hf)]

theorem getElem?_inside (h : Editable source edits) (he : e ∈ edits) {p : Nat}
    (hp : e.span.has p = true) :
    (bytes (applyEdits source edits))[p]? = (bytes e.replacement)[p - e.span.start]? := by
  induction edits with
  | nil => simp at he
  | cons f edits ih =>
    have hf := h.fits f List.mem_cons_self
    rw [applyEdits_cons]
    rcases List.mem_cons.mp he with rfl | hmem
    · exact Text.getElem?_replaceRange_inside h.isBoundary_start h.isBoundary_stop hf.le
        hf.length hp
    · have hout : f.span.has p = false := by
        have := h.behind e hmem
        rw [ByteRange.has_iff] at hp
        rw [ByteRange.has_eq_false_iff]
        omega
      rw [Text.getElem?_replaceRange_outside h.isBoundary_start h.isBoundary_stop hf.le hf.length
        hout, ih h.tail hmem]

/-! ### Offsets -/

/-- The first edit that does not end before an offset is the one that has it. -/
theorem head?_dropWhile (h : Editable source edits) (he : e ∈ edits) {p : Nat}
    (hp : e.span.has p = true) :
    (edits.dropWhile fun edit => edit.span.stop ≤ p).head? = some e := by
  rw [ByteRange.has_iff] at hp
  induction edits with
  | nil => simp at he
  | cons f edits ih =>
    rcases List.mem_cons.mp he with rfl | hmem
    · rw [List.dropWhile_cons_of_neg (by simpa using hp.2), List.head?_cons]
    · have := h.behind e hmem
      rw [List.dropWhile_cons_of_pos (by simp; omega), ih h.tail hmem]

end Editable

namespace Reordered
variable {source : List Char} {r : Reordered}

theorem remap_inside (h : Editable source r.edits) {e : Edit} (he : e ∈ r.edits) {p : Nat}
    (hp : e.span.has p = true) : r.remap p = e.remap.apply p := by
  rw [remap, h.head?_dropWhile he hp]
  simp only [hp, if_true]

theorem remap_outside {p : Nat} (hp : ∀ e ∈ r.edits, e.span.has p = false) : r.remap p = p := by
  rw [remap]
  split
  · rename_i e he
    have hmem : e ∈ r.edits := (List.dropWhile_sublist _).subset (List.mem_of_mem_head? he)
    rw [hp e hmem, if_neg Bool.false_ne_true]
  · rfl

end Reordered

end CalleeFirst.Source
