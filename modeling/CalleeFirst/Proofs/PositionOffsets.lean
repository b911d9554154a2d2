import CalleeFirst.Proofs.Bytes
import CalleeFirst.Proofs.Extraction

/-! Positions and byte offsets.

A boundary of characters has a line, by the line feeds in front of it, and a column, by the
characters of its line in front of it. The index leads from there back to the boundary, unless
nothing but carriage returns is left of the line (`OnlyReturns`): those returns, and the ones
directly in front of them, count as the end of the line, so all of these boundaries share the offset
at which the run of returns starts (`offset_of_onlyReturns`).

`offset_inverts` adds what holds of positions that no boundary has, on lines and in columns that
do not exist: their offsets are boundaries too, and in the order of the positions. -/
namespace CalleeFirst.Source

open Lexeme (Position)
open Text (IsBoundary byteLength byteLength_append)

/-- From here to the end of the line there are only carriage returns. -/
def OnlyReturns (rest : List Char) : Prop := ∀ c ∈ rest.takeWhile (· != '\n'), c = '\r'

instance (rest : List Char) : Decidable (OnlyReturns rest) :=
  List.decidableBAll (· = '\r') (rest.takeWhile (· != '\n'))

/-- The line of what follows a text, and its column there. -/
def placeBehind (before : List Char) : Position :=
  ⟨1 + before.count '\n', (before.rtakeWhile (· != '\n')).length⟩

/-! ### The line of a boundary -/

theorem takeWhile_line {more tail : List Char} (hmore : '\n' ∉ more)
    (htail : ∀ c ∈ tail.head?, c = '\n') :
    (more ++ tail).takeWhile (· != '\n') = more := by
  have hstop : tail.takeWhile (· != '\n') = [] := by
    cases tail with
    | nil => rfl
    | cons c tail =>
      obtain rfl : c = '\n' := htail c rfl
      rfl
  rw [List.takeWhile_append_of_pos, hstop, List.append_nil]
  intro c hc
  rw [bne_iff_ne]
  rintro rfl
  exact hmore hc

theorem rtakeWhile_line {upper part : List Char} (hupper : EndsLine upper) (hpart : '\n' ∉ part) :
    (upper ++ part).rtakeWhile (· != '\n') = part := by
  rw [List.rtakeWhile, List.reverse_append, takeWhile_line, List.reverse_reverse]
  · rwa [List.mem_reverse]
  · rwa [List.head?_reverse]

theorem placeBehind_eq (before : List Char) : placeBehind before = Position.start.after before := by
  obtain ⟨upper, part, rfl, hupper, hpart⟩ := exists_line_start before
  rw [after_append_part hupper hpart, placeBehind, rtakeWhile_line hupper hpart, lineNumber,
    List.count_append, List.count_eq_zero.mpr hpart, Nat.add_zero, Nat.add_comm]

/-! ### Runs of carriage returns -/

theorem dropReturns_append_returns (part : List Char) {returns : List Char}
    (h : ∀ c ∈ returns, c = '\r') :
    dropReturns (part ++ returns) = dropReturns part := by
  rw [dropReturns, List.reverse_append, List.dropWhile_append_of_pos]
  · rfl
  · intro c hc
    rw [h c (List.mem_reverse.mp hc), beq_self_eq_true]

theorem exists_returns (part : List Char) :
    ∃ returns, part = dropReturns part ++ returns ∧ ∀ c ∈ returns, c = '\r' := by
  refine ⟨part.rtakeWhile (· == '\r'), (List.rdropWhile_append_rtakeWhile ..).symm, fun c hc => ?_⟩
  have hreturn := List.mem_rtakeWhile_imp hc
  rwa [beq_iff_eq] at hreturn

theorem getLast?_dropReturns (part : List Char) : (dropReturns part).getLast? ≠ some '\r' := by
  intro hlast
  have hne : part.rdropWhile (· == '\r') ≠ [] := fun hnil => by
    rw [show dropReturns part = [] from hnil] at hlast
    cases hlast
  have hnot := List.rdropWhile_last_not _ _ hne
  rw [beq_iff_eq] at hnot
  exact hnot (Option.some.inj ((List.getLast?_eq_some_getLast hne).symm.trans hlast))

/-- In front of a character that is no carriage return nothing of a line is dropped. -/
theorem isPrefix_dropReturns (part : List Char) {more : List Char} (h : ∃ c ∈ more, c ≠ '\r') :
    part <+: dropReturns (part ++ more) := by
  obtain ⟨c, hc, hvisible⟩ := h
  obtain ⟨front, back, rfl⟩ := List.append_of_mem hc
  have hlast : ∀ d ∈ (part ++ front ++ [c]).getLast?, d ≠ '\r' := by
    simpa using hvisible
  have hdrop := dropReturns_append hlast back
  simp only [List.append_assoc, List.singleton_append] at hdrop
  rw [hdrop]
  exact List.prefix_append ..

/-! ### Offsets of boundaries -/

section
variable {before rest : List Char}

theorem offset_of_not_onlyReturns (h : ¬ OnlyReturns rest) :
    (Lines.ofText (before ++ rest)).offset (placeBehind before) = byteLength before := by
  obtain ⟨upper, part, more, tail, rfl, rfl, htail, hline⟩ := exists_isLine before rest
  have hmore : '\n' ∉ more := fun hmem => hline.whole (List.mem_append_right part hmem)
  rw [OnlyReturns, takeWhile_line hmore htail] at h
  rw [placeBehind_eq]
  exact hline.offset_after rfl (isPrefix_dropReturns part (by simpa using h))

/-- Where only carriage returns are left of the line, the offset is where their run starts. -/
theorem offset_of_onlyReturns (h : OnlyReturns rest) :
    ∃ kept returns, before = kept ++ returns ∧ (∀ c ∈ returns, c = '\r') ∧
      kept.getLast? ≠ some '\r' ∧ (Lines.ofText (before ++ rest)).offset (placeBehind before) =
        byteLength kept := by
  obtain ⟨upper, part, more, tail, rfl, rfl, htail, hline⟩ := exists_isLine before rest
  have hmore : '\n' ∉ more := fun hmem => hline.whole (List.mem_append_right part hmem)
  have hpart : '\n' ∉ part := fun hmem => hline.whole (List.mem_append_left more hmem)
  rw [OnlyReturns, takeWhile_line hmore htail] at h
  obtain ⟨returns, hreturns, hall⟩ := exists_returns part
  refine ⟨upper ++ dropReturns part, returns, ?_, hall, ?_, ?_⟩
  · rw [List.append_assoc, ← hreturns]
  · rw [List.getLast?_append]
    intro hlast
    rcases Option.or_eq_some_iff.mp hlast with hlast | ⟨_, hlast⟩
    · exact getLast?_dropReturns part hlast
    · exact absurd (hline.above '\r' hlast) (by decide)
  · have htake : (dropReturns part).take part.length = dropReturns part :=
      List.take_of_length_le (dropReturns_isPrefix part).length_le
    rw [placeBehind_eq, after_append_part hline.above hpart, Lines.offset, hline.line?,
      byteLength_append]
    dsimp only
    rw [dropReturns_append_returns part h, htake]

end

/-! ### Offsets of any positions -/

/-- The line that is being read is a piece at the start of what was passed and is to come. -/
theorem exists_first_piece (start : Nat) (before rest : List Char) :
    ∃ above below, before.reverse ++ rest = above ++ dropReturns before.reverse ++ below ∧
      start = start + byteLength above := by
  obtain ⟨returns, hreturns, _⟩ := exists_returns before.reverse
  refine ⟨[], returns ++ rest, ?_, rfl⟩
  rw [List.nil_append, ← List.append_assoc, ← hreturns]

/-- A line is a piece of the text that starts at its offset. -/
theorem exists_line_piece {start : Nat} {before text : List Char} {line : Line}
    (h : line ∈ linesFrom start before text) :
    ∃ above below, before.reverse ++ text = above ++ line.text ++ below ∧
      line.start = start + byteLength above := by
  induction text generalizing start before with
  | nil =>
    obtain rfl := List.mem_singleton.mp h
    exact exists_first_piece start before []
  | cons c rest ih =>
    rw [linesFrom] at h
    split at h
    · next hc =>
      subst hc
      rcases List.mem_cons.mp h with rfl | h
      · exact exists_first_piece start before ('\n' :: rest)
      · obtain ⟨above, below, hrest, hstart⟩ := ih h
        rw [List.reverse_nil, List.nil_append] at hrest
        refine ⟨before.reverse ++ '\n' :: above, below, by simp [hrest], ?_⟩
        rw [hstart, byteLength_append, byteLength_reverse, Text.byteLength_cons]
        show _ = _ + (_ + (1 + _))
        omega
    · obtain ⟨above, below, hrest, hstart⟩ := ih h
      rw [List.reverse_cons, List.append_assoc] at hrest
      exact ⟨above, below, hrest, hstart⟩

/-- A piece at the start of a line ends at a boundary. -/
theorem isBoundary_of_isPrefix {text piece : List Char} {number : Nat} {line : Line}
    (h : (Lines.ofText text).line? number = some line) (hpiece : piece <+: line.text) :
    IsBoundary text (line.start + byteLength piece) := by
  rw [Lines.line?, Lines.ofText, List.getElem?_toArray] at h
  obtain ⟨above, below, htext, hstart⟩ := exists_line_piece (List.mem_of_getElem? h)
  obtain ⟨rest, hline⟩ := hpiece
  rw [List.reverse_nil, List.nil_append, ← hline] at htext
  refine Text.isBoundary_iff.mpr ⟨above ++ piece, rest ++ below, ?_, ?_⟩
  · rw [htext]
    simp only [List.append_assoc]
  · rw [byteLength_append, hstart, Nat.zero_add]

theorem isBoundary_offset (text : List Char) (p : Position) :
    IsBoundary text ((Lines.ofText text).offset p) := by
  rw [Lines.offset]
  cases hline : (Lines.ofText text).line? p.line with
  | none => exact Text.isBoundary_byteLength text
  | some line => exact isBoundary_of_isPrefix hline (List.take_prefix ..)

theorem isBoundary_firstVisible (text : List Char) (number : Nat) :
    IsBoundary text ((Lines.ofText text).firstVisible number) := by
  rw [Lines.firstVisible]
  cases hline : (Lines.ofText text).line? number with
  | none => exact Text.isBoundary_byteLength text
  | some line => exact isBoundary_of_isPrefix hline (List.takeWhile_prefix _)

/-- **Offsets and positions.** Every boundary of characters is the offset of its line and column,
except that those in or behind the carriage returns at the end of a line have the offset at
which these returns start. Any position has a boundary for its offset, and positions in order have
offsets in order, whether or not the text has such lines and columns. -/
theorem offset_inverts (text : List Char) :
    (∀ b, IsBoundary text b → ∃ before rest, text = before ++ rest ∧ byteLength before = b ∧
      (¬ OnlyReturns rest → (Lines.ofText text).offset (placeBehind before) = b) ∧
      (OnlyReturns rest → ∃ kept returns, before = kept ++ returns ∧ (∀ c ∈ returns, c = '\r') ∧
        kept.getLast? ≠ some '\r' ∧ (Lines.ofText text).offset (placeBehind before) =
          byteLength kept)) ∧
    (∀ p : Position, 1 ≤ p.line →
      IsBoundary text ((Lines.ofText text).offset p) ∧
        (Lines.ofText text).offset p ≤ byteLength text) ∧
    ∀ p q : Position, 1 ≤ p.line → p.line < q.line ∨ p.line = q.line ∧ p.column ≤ q.column →
      (Lines.ofText text).offset p ≤ (Lines.ofText text).offset q := by
  refine ⟨fun b hb => ?_, fun p _ => ?_, fun p q hp hpq => ?_⟩
  · obtain ⟨before, rest, rfl, rfl⟩ := Text.isBoundary_iff.mp hb
    exact ⟨before, rest, rfl, rfl, offset_of_not_onlyReturns, offset_of_onlyReturns⟩
  · exact ⟨isBoundary_offset text p, (isBoundary_offset text p).le⟩
  · have hstart : Position.start ≤ p := by
      rw [Position.le_iff]
      show 1 < _ ∨ 1 = _ ∧ 0 ≤ _
      omega
    exact Lines.offset_le text hstart hpq

/-- A character of two bytes and two carriage returns make up the first line. -/
theorem offset_inverts_sample : let text := "é\r\r\nb".toList
    IsBoundary text 3 ∧ OnlyReturns "\r\nb".toList ∧
    (∃ kept returns, "é\r".toList = kept ++ returns ∧ (∀ c ∈ returns, c = '\r') ∧
      kept.getLast? ≠ some '\r' ∧
      (Lines.ofText text).offset ⟨1, 2⟩ = byteLength kept) ∧
    (Lines.ofText text).offset ⟨1, 2⟩ = 2 ∧ IsBoundary text ((Lines.ofText text).offset ⟨7, 1⟩) ∧
    (Lines.ofText text).offset ⟨1, 5⟩ ≤ (Lines.ofText text).offset ⟨2, 0⟩ := by
  intro text
  obtain ⟨hboundary, hany, hordered⟩ := offset_inverts text
  have hb : IsBoundary text 3 := by decide
  have honly : OnlyReturns "\r\nb".toList := by decide
  obtain ⟨before, rest, htext, hlength, _, hreturns⟩ := hboundary 3 hb
  obtain ⟨rfl, rfl⟩ : "é\r".toList = before ∧ "\r\nb".toList = rest := by
    have hsplit := Text.splitAtByte_append before rest
    rw [hlength, ← htext] at hsplit
    exact Prod.mk.inj (Option.some.inj hsplit)
  exact ⟨hb, honly, hreturns honly, by decide, (hany ⟨7, 1⟩ (by decide)).1,
    hordered ⟨1, 5⟩ ⟨2, 0⟩ (by decide) (by decide)⟩

end CalleeFirst.Source
