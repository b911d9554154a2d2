import CalleeFirst.Text.Slice
import CalleeFirst.Proofs.Remapping

/-! Texts as bytes.

`exists_slice`: between two boundaries of characters a text has a piece, and the piece is what
the text holds there. `bytes_slice` and `bytes_replaceRange` say the same of the bytes, where
boundaries no longer matter. `bytes_lt_bytes_iff`: the order of the bytes is the order of the code
points. -/
namespace CalleeFirst.Text

/-- The UTF-8 encoding of a text. -/
def bytes (text : List Char) : List UInt8 := text.flatMap String.utf8EncodeChar

@[simp] theorem bytes_append (a b : List Char) : bytes (a ++ b) = bytes a ++ bytes b :=
  List.flatMap_append

@[simp] theorem length_bytes (text : List Char) : (bytes text).length = byteLength text := by
  induction text with
  | nil => rfl
  | cons c rest ih =>
    rw [bytes, List.flatMap_cons, List.length_append, String.length_utf8EncodeChar, byteLength_cons]
    exact congrArg _ ih

theorem byteLength_eq_zero {text : List Char} (h : byteLength text = 0) : text = [] := by
  cases text with
  | nil => rfl
  | cons c rest =>
    have := c.utf8Size_pos
    rw [byteLength_cons] at h
    omega

/-! ### Order -/

theorem ofNat_lt_ofNat {m n : Nat} (hm : m < 256) (hn : n < 256) :
    UInt8.ofNat m < UInt8.ofNat n ↔ m < n := by
  rw [UInt8.lt_iff_toNat_lt, UInt8.toNat_ofNat_of_lt' hm, UInt8.toNat_ofNat_of_lt' hn]

theorem ofNat_inj {m n : Nat} (hm : m < 256) (hn : n < 256) :
    UInt8.ofNat m = UInt8.ofNat n ↔ m = n := by
  rw [← UInt8.toNat_inj, UInt8.toNat_ofNat_of_lt' hm, UInt8.toNat_ofNat_of_lt' hn]

/-- The encodings of two characters differ before either of them ends. -/
theorem utf8EncodeChar_append_lt {c d : Char} (h : c < d) (x y : List UInt8) :
    String.utf8EncodeChar c ++ x < String.utf8EncodeChar d ++ y := by
  have hval : c.val.toNat < d.val.toNat := h
  have hbound : d.val.toNat < 1114112 := by
    have := d.valid
    rw [UInt32.isValidChar, Nat.isValidChar] at this
    omega
  have hdigits : ∀ v, v / 4096 = v / 64 / 64 ∧ v / 262144 = v / 64 / 64 / 64 := by omega
  rw [String.utf8EncodeChar, String.utf8EncodeChar]
  generalize c.val.toNat = m at hval
  generalize d.val.toNat = n at hval hbound
  simp only [hdigits]
  -- Encodings of one length are the digits to base 64; the first byte tells those of two lengths
  -- apart.
  split_ifs <;>
    simp (disch := omega) only [List.cons_append, List.cons_lt_cons_iff, ofNat_lt_ofNat, ofNat_inj]
      <;> omega

theorem bytes_lt_bytes {a b : List Char} (h : a < b) : bytes a < bytes b := by
  induction a generalizing b with
  | nil =>
    cases b with
    | nil => exact absurd h (List.lt_irrefl [])
    | cons d b =>
      have hpos : 0 < (bytes (d :: b)).length := by
        rw [length_bytes, byteLength_cons]
        exact Nat.add_pos_left d.utf8Size_pos _
      obtain ⟨first, rest, hbytes⟩ := List.exists_cons_of_length_pos hpos
      rw [hbytes]
      exact List.nil_lt_cons first rest
  | cons c a ih =>
    cases b with
    | nil => exact absurd h (List.not_lt_nil _)
    | cons d b =>
      rcases List.cons_lt_cons_iff.mp h with hlt | ⟨rfl, hlt⟩
      · exact utf8EncodeChar_append_lt hlt (bytes a) (bytes b)
      · exact List.append_left_lt (ih hlt)

/-- Comparing texts by bytes is comparing them by characters. -/
theorem bytes_lt_bytes_iff {a b : List Char} : bytes a < bytes b ↔ a < b := by
  refine ⟨fun h => ?_, bytes_lt_bytes⟩
  rcases Std.lt_trichotomy a b with hlt | rfl | hgt
  · exact hlt
  · exact absurd h (List.lt_irrefl _)
  · exact absurd h (List.lt_asymm (bytes_lt_bytes hgt))

/-! ### Boundaries -/

/-- A character ends, or the text starts, at a byte offset. -/
def IsBoundary (text : List Char) (n : Nat) : Prop := (splitAtByte n text).isSome = true

instance (text : List Char) (n : Nat) : Decidable (IsBoundary text n) :=
  inferInstanceAs (Decidable (_ = true))

/-- A text is cut where one of its front parts ends. -/
theorem splitAtByte_append (a b : List Char) :
    splitAtByte (byteLength a) (a ++ b) = some (a, b) := by
  induction a with
  | nil => rw [byteLength_nil, List.nil_append, splitAtByte]
  | cons c rest ih =>
    have hpos := c.utf8Size_pos
    obtain ⟨n, hn⟩ : ∃ n, byteLength (c :: rest) = n + 1 :=
      Nat.exists_eq_add_one.mpr (by simp; omega)
    have hrest : n + 1 - c.utf8Size = byteLength rest := by
      rw [← hn, byteLength_cons, Nat.add_sub_cancel_left]
    have hle : c.utf8Size ≤ n + 1 := by
      rw [← hn, byteLength_cons]
      omega
    rw [hn, List.cons_append, splitAtByte, if_pos hle, hrest, ih]
    rfl

/-- A cut gives two parts of the text, the first of the length asked for. -/
theorem eq_append_of_splitAtByte {n : Nat} {text a b : List Char}
    (h : splitAtByte n text = some (a, b)) :
    text = a ++ b ∧ byteLength a = n := by
  fun_induction splitAtByte n text generalizing a b with
  | case1 text =>
    obtain ⟨rfl, rfl⟩ := Prod.mk.inj (Option.some.inj h)
    exact ⟨rfl, rfl⟩
  | case2 => cases h
  | case3 n c rest hle ih =>
    simp only [Option.bind_eq_bind, Option.bind_eq_some_iff] at h
    obtain ⟨⟨before, behind⟩, hsplit, heq⟩ := h
    obtain ⟨rfl, rfl⟩ := Prod.mk.inj (Option.some.inj heq)
    obtain ⟨rfl, hlength⟩ := ih hsplit
    rw [byteLength_cons, hlength]
    exact ⟨rfl, Nat.add_sub_cancel' hle⟩
  | case4 => cases h

/-- The boundaries of a text are the lengths of its front parts. -/
theorem isBoundary_iff {text : List Char} {n : Nat} :
    IsBoundary text n ↔ ∃ a b, text = a ++ b ∧ byteLength a = n := by
  rw [IsBoundary, Option.isSome_iff_exists]
  constructor
  · rintro ⟨⟨a, b⟩, h⟩
    exact ⟨a, b, eq_append_of_splitAtByte h⟩
  · rintro ⟨a, b, rfl, rfl⟩
    exact ⟨(a, b), splitAtByte_append a b⟩

theorem IsBoundary.le {text : List Char} {n : Nat} (h : IsBoundary text n) :
    n ≤ byteLength text := by
  obtain ⟨a, b, rfl, rfl⟩ := isBoundary_iff.mp h
  rw [byteLength_append]
  omega

theorem isBoundary_zero (text : List Char) : IsBoundary text 0 :=
  isBoundary_iff.mpr ⟨[], text, rfl, rfl⟩

theorem isBoundary_byteLength (text : List Char) : IsBoundary text (byteLength text) :=
  isBoundary_iff.mpr ⟨text, [], (List.append_nil text).symm, rfl⟩

/-! ### Pieces -/

theorem slice_append (a piece b : List Char) :
    slice (a ++ piece ++ b) ⟨byteLength a, byteLength (a ++ piece)⟩ = piece := by
  have hlength : ByteRange.length ⟨byteLength a, byteLength (a ++ piece)⟩ = byteLength piece := by
    rw [ByteRange.length, byteLength_append, Nat.add_sub_cancel_left]
  have hnot : ¬ byteLength (a ++ piece) < byteLength a := by
    rw [byteLength_append]
    omega
  rw [slice, slice?, List.append_assoc, splitAtByte_append, Option.bind_eq_bind, Option.bind_some]
  simp only [hnot, if_false, hlength, splitAtByte_append]
  rfl

section
variable {text : List Char} {r : ByteRange}

/-- Between two boundaries the text is cut into three pieces. -/
theorem exists_slice (hstart : IsBoundary text r.start) (hstop : IsBoundary text r.stop)
    (hle : r.start ≤ r.stop) :
    ∃ a b, text = a ++ slice text r ++ b ∧ byteLength a = r.start ∧
      byteLength (a ++ slice text r) = r.stop := by
  obtain ⟨a, rest, htext, ha⟩ := isBoundary_iff.mp hstart
  obtain ⟨front, b, htext', hfront⟩ := isBoundary_iff.mp hstop
  obtain ⟨piece, rfl⟩ : ∃ piece, front = a ++ piece := by
    rcases List.append_eq_append_iff.mp (htext.symm.trans htext') with ⟨piece, rfl, _⟩ |
      ⟨piece, rfl, _⟩
    · exact ⟨piece, rfl⟩
    · rw [byteLength_append] at ha
      obtain rfl := byteLength_eq_zero (by omega : byteLength piece = 0)
      exact ⟨[], by simp⟩
  have hslice : slice text r = piece := by
    have hpiece := slice_append a piece b
    rwa [ha, hfront, ← htext'] at hpiece
  exact ⟨a, b, by rw [hslice, htext'], ha, by rw [hslice, hfront]⟩

/-- The bytes of a slice are the bytes its range picks. -/
theorem bytes_slice (hstart : IsBoundary text r.start) (hstop : IsBoundary text r.stop)
    (hle : r.start ≤ r.stop) : bytes (slice text r) = r.pick (bytes text) := by
  obtain ⟨a, b, htext, ha, hpiece⟩ := exists_slice hstart hstop hle
  rw [byteLength_append, ha] at hpiece
  have hlength : r.length = (bytes (slice text r)).length := by
    rw [length_bytes, ByteRange.length]
    omega
  conv_rhs => rw [htext, bytes_append, bytes_append, List.append_assoc]
  rw [ByteRange.pick, ← ha, ← length_bytes, List.drop_left, hlength, List.take_left]

/-- Replacing a range of the text replaces it in the bytes. -/
theorem bytes_replaceRange (hstart : IsBoundary text r.start) (hstop : IsBoundary text r.stop)
    (replacement : List Char) :
    bytes (replaceRange text r replacement) =
      (bytes text).take r.start ++ bytes replacement ++ (bytes text).drop r.stop := by
  have hfront := bytes_slice (r := ⟨0, r.start⟩) (isBoundary_zero text) hstart (Nat.zero_le _)
  have hback := bytes_slice (r := ⟨r.stop, byteLength text⟩) hstop (isBoundary_byteLength text)
    hstop.le
  rw [replaceRange, bytes_append, bytes_append, hfront, hback]
  simp [ByteRange.pick, ByteRange.length]

/-- Boundaries in front of what is replaced stay. -/
theorem IsBoundary.replaceRange {n : Nat} (h : IsBoundary text n) (hstart : IsBoundary text r.start)
    (hle : n ≤ r.start) (replacement : List Char) :
    IsBoundary (replaceRange text r replacement) n := by
  obtain ⟨a, b, htext, ha, hfront⟩ := exists_slice (r := ⟨n, r.start⟩) h hstart hle
  generalize slice text ⟨n, r.start⟩ = piece at htext hfront
  have hslice := slice_append [] (a ++ piece) b
  rw [List.nil_append, hfront, ← htext] at hslice
  rw [Text.replaceRange, ← byteLength_nil, hslice, List.append_assoc, List.append_assoc]
  exact isBoundary_iff.mpr ⟨a, _, rfl, ha⟩

section
variable {replacement : List Char} (hstart : IsBoundary text r.start)
  (hstop : IsBoundary text r.stop)
  (hle : r.start ≤ r.stop) (hlength : byteLength replacement = r.length)
include hstart hstop hle hlength

/-- A replacement of the same length keeps the length. -/
theorem byteLength_replaceRange : byteLength (replaceRange text r replacement) =
      byteLength text := by
  have hbound := hstop.le
  rw [← length_bytes, bytes_replaceRange hstart hstop, List.length_append, List.length_append,
    List.length_take, List.length_drop, length_bytes, length_bytes, hlength, ByteRange.length]
  omega

theorem getElem?_replaceRange_inside {p : Nat} (hp : r.has p = true) :
    (bytes (replaceRange text r replacement))[p]? = (bytes replacement)[p - r.start]? := by
  rw [ByteRange.has_iff] at hp
  have hbound := hstop.le
  have htake : ((bytes text).take r.start).length = r.start := by
    rw [List.length_take, length_bytes]
    omega
  have hin : p - r.start < (bytes replacement).length := by
    rw [length_bytes, hlength, ByteRange.length]
    omega
  rw [bytes_replaceRange hstart hstop, List.append_assoc, List.getElem?_append_right (by omega),
    htake, List.getElem?_append_left hin]

/-- Outside of the range every byte stays where it is. -/
theorem getElem?_replaceRange_outside {p : Nat} (hp : r.has p = false) :
    (bytes (replaceRange text r replacement))[p]? = (bytes text)[p]? := by
  rw [ByteRange.has_eq_false_iff] at hp
  have hbound := hstop.le
  have hfront : ((bytes text).take r.start ++ bytes replacement).length = r.stop := by
    rw [List.length_append, List.length_take, length_bytes, length_bytes, hlength, ByteRange.length]
    omega
  rw [bytes_replaceRange hstart hstop]
  by_cases hbefore : p < r.start
  · rw [List.append_assoc, List.getElem?_append_left
      (by rw [List.length_take, length_bytes]; omega), List.getElem?_take_of_lt hbefore]
  · rw [List.getElem?_append_right (by omega), hfront, List.getElem?_drop,
      Nat.add_sub_cancel' (by omega)]

end

end

end CalleeFirst.Text
