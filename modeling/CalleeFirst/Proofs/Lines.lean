import CalleeFirst.Source.Lines
import Mathlib.Data.List.DropRight

/-! The lines of a text and the offsets of positions.

`IsLine` cuts a text at a line; what the index knows about the line is its start and its text
without carriage returns at the end (`IsLine.line?`). A position behind a part of the text
has the part's length for its offset, provided that it is not among those carriage
returns (`IsLine.offset_after`). -/
namespace CalleeFirst.Source

open Lexeme (Position)
open Text (byteLength byteLength_append isBlank)

/-- The text is empty or ends with a line feed, so that a line starts behind it. -/
def EndsLine (text : List Char) : Prop := ∀ c ∈ text.getLast?, c = '\n'

/-- The number of the line that starts or goes on behind a text. -/
def lineNumber (text : List Char) : Nat := text.count '\n' + 1

/-- `line` is a whole line of the text, and `upper` all that stands above it. -/
structure IsLine (body upper line : List Char) : Prop where
  above : EndsLine upper
  whole : '\n' ∉ line
  body : ∃ tail, body = upper ++ line ++ tail ∧ ∀ c ∈ tail.head?, c = '\n'

/-! ### Line feeds -/

theorem endsLine_nil : EndsLine [] := fun _ h => absurd h (by simp)

theorem endsLine_append_feed (text : List Char) : EndsLine (text ++ ['\n']) := by
  simp [EndsLine]

theorem EndsLine.eq_nil_or (h : EndsLine text) : text = [] ∨ ∃ front, text = front ++ ['\n'] := by
  rcases List.eq_nil_or_concat text with rfl | ⟨front, c, rfl⟩
  · exact .inl rfl
  · rw [List.concat_eq_append] at h ⊢
    obtain rfl : c = '\n' := h c (by simp)
    exact .inr ⟨front, rfl⟩

/-- Every text is a number of whole lines and a part of one. -/
theorem exists_line_start (text : List Char) :
    ∃ upper part, text = upper ++ part ∧ EndsLine upper ∧ '\n' ∉ part := by
  induction text using List.reverseRecOn with
  | nil => exact ⟨[], [], rfl, endsLine_nil, List.not_mem_nil⟩
  | append_singleton text c ih =>
    by_cases hc : c = '\n'
    · subst hc
      exact ⟨text ++ ['\n'], [], (List.append_nil _).symm, endsLine_append_feed text,
        List.not_mem_nil⟩
    · obtain ⟨upper, part, rfl, hupper, hpart⟩ := ih
      refine ⟨upper, part ++ [c], List.append_assoc .., hupper, ?_⟩
      simpa using ⟨hpart, Ne.symm hc⟩

/-- Every text starts with the rest of a line. -/
theorem exists_line_end (text : List Char) :
    ∃ more tail, text = more ++ tail ∧ '\n' ∉ more ∧ ∀ c ∈ tail.head?, c = '\n' := by
  induction text with
  | nil => exact ⟨[], [], rfl, List.not_mem_nil, by simp⟩
  | cons c rest ih =>
    by_cases hc : c = '\n'
    · exact ⟨[], c :: rest, rfl, List.not_mem_nil, by simp [hc]⟩
    · obtain ⟨more, tail, rfl, hmore, htail⟩ := ih
      exact ⟨c :: more, tail, rfl, by simpa using ⟨Ne.symm hc, hmore⟩, htail⟩

/-- The line in which a text is cut. -/
theorem exists_isLine (before rest : List Char) :
    ∃ upper part more tail, before = upper ++ part ∧ rest = more ++ tail ∧
      (∀ c ∈ tail.head?, c = '\n') ∧
      IsLine (before ++ rest) upper (part ++ more) := by
  obtain ⟨upper, part, rfl, hupper, hpart⟩ := exists_line_start before
  obtain ⟨more, tail, rfl, hmore, htail⟩ := exists_line_end rest
  refine ⟨upper, part, more, tail, rfl, rfl, htail, hupper, ?_, tail, by simp, htail⟩
  simpa using ⟨hpart, hmore⟩

/-! ### Positions -/

theorem after_of_not_mem (p : Position) {part : List Char} (h : '\n' ∉ part) :
    p.after part = ⟨p.line, p.column + part.length⟩ := by
  induction part generalizing p with
  | nil => rfl
  | cons c rest ih =>
    rw [List.mem_cons, not_or] at h
    obtain ⟨hc, hrest⟩ := h
    rw [Position.after_cons, Position.next, if_neg (Ne.symm hc), ih _ hrest, List.length_cons,
      Nat.add_right_comm, Nat.add_assoc]

theorem line_after (p : Position) (text : List Char) :
    (p.after text).line = p.line + text.count '\n' := by
  induction text generalizing p with
  | nil => rfl
  | cons c rest ih =>
    rw [Position.after_cons, ih, Position.next]
    by_cases hc : c = '\n'
    · subst hc
      rw [if_pos rfl, List.count_cons_self, Nat.add_right_comm, Nat.add_assoc]
    · rw [if_neg hc, List.count_cons_of_ne hc]

theorem EndsLine.after_eq (h : EndsLine upper) :
    Position.start.after upper = ⟨lineNumber upper, 0⟩ := by
  have hline : (Position.start.after upper).line = lineNumber upper := by
    rw [line_after, lineNumber, Nat.add_comm]
    rfl
  have hcolumn : (Position.start.after upper).column = 0 := by
    rcases h.eq_nil_or with rfl | ⟨front, rfl⟩
    · rfl
    · rw [Position.after_append, Position.after_cons, Position.after_nil, Position.next, if_pos rfl]
  rw [← hline, ← hcolumn]

theorem after_append_part (h : EndsLine upper) (hpart : '\n' ∉ part) :
    Position.start.after (upper ++ part) = ⟨lineNumber upper, part.length⟩ := by
  rw [Position.after_append, h.after_eq, after_of_not_mem _ hpart, Nat.zero_add]

/-! ### Carriage returns -/

/-- Carriage returns are dropped behind the last other character only. -/
theorem dropReturns_append {front : List Char} (h : ∀ c ∈ front.getLast?, c ≠ '\r')
    (rest : List Char) :
    dropReturns (front ++ rest) = front ++ dropReturns rest := by
  rw [dropReturns, List.reverse_append, List.dropWhile_append]
  split
  · rename_i hreturns
    have hrest : dropReturns rest = [] := by
      rw [dropReturns, List.isEmpty_iff.mp hreturns, List.reverse_nil]
    rw [hrest, List.append_nil]
    rcases List.eq_nil_or_concat front with rfl | ⟨init, c, rfl⟩
    · rfl
    · rw [List.concat_eq_append] at h ⊢
      have hc : c ≠ '\r' := h c (by simp)
      rw [List.reverse_append, List.reverse_singleton, List.singleton_append,
        List.dropWhile_cons_of_neg (by simpa using hc)]
      simp
  · rw [List.reverse_append, List.reverse_reverse, dropReturns]

/-! ### The index -/

theorem getElem?_linesFrom_zero (start : Nat) (before : List Char) {line tail : List Char}
    (hline : '\n' ∉ line) (htail : ∀ c ∈ tail.head?, c = '\n') :
    (linesFrom start before (line ++ tail))[0]? =
      some ⟨start, dropReturns (before.reverse ++ line)⟩ := by
  induction line generalizing before with
  | nil =>
    cases tail with
    | nil => simp [linesFrom]
    | cons c tail =>
      obtain rfl : c = '\n' := htail c (by simp)
      simp [linesFrom]
  | cons c rest ih =>
    rw [List.mem_cons, not_or] at hline
    obtain ⟨hc, hrest⟩ := hline
    rw [List.cons_append, linesFrom, if_neg (Ne.symm hc), ih (c :: before) hrest]
    simp

/-- Lines in front of a line feed are passed one by one. -/
theorem drop_linesFrom (start : Nat) (before front rest : List Char) :
    (linesFrom start before (front ++ '\n' :: rest)).drop (front.count '\n' + 1) =
      linesFrom (start + byteLength before + byteLength front + 1) [] rest := by
  induction front generalizing start before with
  | nil => rw [List.nil_append, linesFrom, if_pos rfl, List.count_nil, List.drop_succ_cons]; rfl
  | cons c front ih =>
    rw [List.cons_append, linesFrom, Text.byteLength_cons]
    by_cases hc : c = '\n'
    · subst hc
      rw [if_pos rfl, List.count_cons_self, List.drop_succ_cons, ih, Text.byteLength_nil]
      congr 1
      show _ = _ + (1 + _) + 1
      omega
    · rw [if_neg hc, List.count_cons_of_ne hc, ih, Text.byteLength_cons]
      congr 1
      omega

namespace IsLine
variable {body upper line : List Char} (h : IsLine body upper line)
include h

theorem line? : (Lines.ofText body).line? (lineNumber upper) =
      some ⟨byteLength upper, dropReturns line⟩ := by
  obtain ⟨tail, rfl, htail⟩ := h.body
  have hhead := fun start => getElem?_linesFrom_zero start [] h.whole htail
  rw [Lines.line?, Lines.ofText, lineNumber, Nat.add_sub_cancel, List.getElem?_toArray]
  rcases h.above.eq_nil_or with rfl | ⟨front, rfl⟩
  · exact hhead 0
  · have hcount : (front ++ ['\n']).count '\n' = front.count '\n' + 1 := by simp
    have hlength : byteLength (front ++ ['\n']) = byteLength front + 1 := byteLength_append ..
    have hdrop := congrArg (fun lines => lines[0]?) (drop_linesFrom 0 [] front (line ++ tail))
    simp only [List.getElem?_drop, Nat.add_zero, hhead] at hdrop
    rw [Nat.zero_add, Text.byteLength_nil, Nat.zero_add] at hdrop
    rw [List.append_assoc, List.append_assoc, List.singleton_append, hcount, hlength]
    exact hdrop

theorem text : (Lines.ofText body).text (lineNumber upper) = dropReturns line := by
  rw [Lines.text, h.line?]
  rfl

theorem firstVisible : (Lines.ofText body).firstVisible (lineNumber upper) =
    byteLength upper + byteLength ((dropReturns line).takeWhile isBlank) := by
  rw [Lines.firstVisible, h.line?]

theorem offset_after {part more : List Char} (hline : line = part ++ more)
    (hreturn : part <+: dropReturns line) :
    (Lines.ofText body).offset (Position.start.after (upper ++ part)) =
      byteLength (upper ++ part) := by
  have hpart : '\n' ∉ part := fun hmem => h.whole (hline ▸ List.mem_append_left more hmem)
  rw [after_append_part h.above hpart, Lines.offset, h.line?, byteLength_append]
  show _ + byteLength ((dropReturns line).take part.length) = _
  rw [List.prefix_iff_eq_take.mp hreturn |>.symm]

end IsLine

/-- A position has the offset of the text in front of it if a character that is not blank
stands behind it or in front of it. -/
theorem offset_after_eq (before rest : List Char)
    (h : (∃ c ∈ rest.head?, isBlank c = false) ∨ ∃ c ∈ before.getLast?, isBlank c = false) :
    (Lines.ofText (before ++ rest)).offset (Position.start.after before) = byteLength before := by
  obtain ⟨upper, part, more, tail, rfl, rfl, htail, hline⟩ := exists_isLine before rest
  refine hline.offset_after rfl ?_
  rcases h with ⟨c, hc, hvisible⟩ | ⟨c, hc, hvisible⟩
  · cases more with
    | nil =>
      obtain rfl := htail c (by simpa using hc)
      exact absurd hvisible (by decide)
    | cons d more =>
      obtain rfl : d = c := by simpa using hc
      have hreturn : ∀ e ∈ (part ++ [d]).getLast?, e ≠ '\r' := by
        rintro e he rfl
        obtain rfl : d = '\r' := by simpa using he
        exact absurd hvisible (by decide)
      have hdrop := dropReturns_append hreturn more
      rw [List.append_assoc, List.singleton_append, List.append_assoc] at hdrop
      rw [hdrop]
      exact List.prefix_append ..
  · have hreturn : ∀ e ∈ part.getLast?, e ≠ '\r' := by
      rintro e he rfl
      rw [List.getLast?_append, Option.mem_def.mp he, Option.some_or, Option.mem_some_iff] at hc
      obtain rfl := hc
      exact absurd hvisible (by decide)
    rw [dropReturns_append hreturn]
    exact List.prefix_append ..

end CalleeFirst.Source
