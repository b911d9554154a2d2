import CalleeFirst.Source.Blocks
import CalleeFirst.Proofs.Bytes
import CalleeFirst.Proofs.Lines

/-! The ranges of members.

The members of a block stand in the text in order, with anything between them (`Spelled`). A
member takes with it the lines of comments directly above, down to its indentation, if it
opens its line (`Leads`): as many as there are, but none that starts before the floor.

`blockOf_ranges`: the ranges of a block cover its members one by one. Each starts behind its
floor, which is the opening brace or the end of the range before, and ends with its member. -/
namespace CalleeFirst.Source

open Lexeme (Position)
open Text (IsBoundary byteLength byteLength_append isBlank)

/-! ### How members stand in a text -/

/-- A text that starts and ends with a character that is not blank. -/
@[mk_iff]
structure Visible (token : List Char) : Prop where
  first : ∃ c ∈ token.head?, isBlank c = false
  last : ∃ c ∈ token.getLast?, isBlank c = false

instance (token : List Char) : Decidable (Visible token) :=
  decidable_of_iff (token.head?.any (!isBlank ·) = true ∧ token.getLast?.any (!isBlank ·) = true)
    (by simp [visible_iff, Option.any_eq_true])

theorem Visible.byteLength_pos {token : List Char} (h : Visible token) : 0 < byteLength token := by
  obtain ⟨c, hc, _⟩ := h.first
  refine Nat.pos_of_ne_zero fun hzero => ?_
  rw [Text.byteLength_eq_zero hzero] at hc
  exact absurd hc (by simp)

/-- The members stand in a text in order, the first somewhere behind `before`. -/
inductive Spelled (body : List Char) : (before : List Char) → List Syntax.Member → Prop where
  | nil {before : List Char} (inside : before <+: body) : Spelled body before []
  | cons {before gap token : List Char} {m : Syntax.Member} {rest : List Syntax.Member}
      (visible : Visible token)
      (span : m.span = ⟨Position.start.after (before ++ gap),
        Position.start.after (before ++ gap ++ token)⟩)
      (behind : Spelled body (before ++ gap ++ token) rest) : Spelled body before (m :: rest)

/-- A block stands in a text: `opening` ends with its opening brace, and the members follow. -/
structure StandsIn (body opening : List Char) (b : Syntax.Block) : Prop where
  brace : opening.getLast? = some '\x7b'
  inside : b.inside = Position.start.after opening
  members : Spelled body opening b.members

/-- The spans of tokens behind a text, each token given with the gap before it. -/
def spansBehind (before : List Char) : List (List Char × List Char) → List Lexeme.Span
  | [] => []
  | (gap, token) :: rest =>
    ⟨Position.start.after (before ++ gap), Position.start.after (before ++ gap ++ token)⟩ ::
      spansBehind (before ++ gap ++ token) rest

/-- Members stand in a text if their spans are those of its tokens. -/
theorem Spelled.of_spans {body before : List Char} {members : List Syntax.Member}
    (tokens : List (List Char × List Char)) (hvisible : ∀ p ∈ tokens, Visible p.2)
    (hspans : members.map Syntax.Member.span = spansBehind before tokens)
    (hbody : before ++ tokens.flatMap (fun p => p.1 ++ p.2) <+: body) :
    Spelled body before members := by
  induction tokens generalizing before members with
  | nil =>
    obtain rfl := List.map_eq_nil_iff.mp hspans
    exact .nil (by simpa using hbody)
  | cons p tokens ih =>
    obtain ⟨m, rest, rfl, hm, hrest⟩ := List.map_eq_cons_iff.mp hspans
    rw [List.forall_mem_cons] at hvisible
    exact .cons hvisible.1 hm (ih hvisible.2 hrest (by simpa using hbody))

/-! ### What belongs to a member -/

/-- Lines, each with the line feed behind it. -/
def unlines (lines : List (List Char)) : List Char := lines.flatMap (· ++ ['\n'])

/-- What follows is the first of its line that is not blank. -/
def OpensLine (before : List Char) : Prop :=
  ∃ upper margin, before = upper ++ margin ∧ EndsLine upper ∧ '\n' ∉ margin ∧
    ∀ c ∈ margin, isBlank c = true

/-- The line above is missing, is no comment, or starts before the floor. -/
def RunEnds (floor : Nat) (upper : List Char) : Prop :=
  upper = [] ∨ ∃ higher above, upper = higher ++ above ++ ['\n'] ∧ EndsLine higher ∧ '\n' ∉ above ∧
    (isCommentLine above = false ∨ byteLength (higher ++ above.takeWhile isBlank) < floor)

/-- All the lines of comments that stand over an indentation, behind the text above them. -/
structure Comments (floor : Nat) (upper : List Char) (lines : List (List Char))
    (indent : List Char) :
    Prop where
  above : EndsLine upper
  whole : ∀ line ∈ lines, '\n' ∉ line
  comments : ∀ line ∈ lines, isCommentLine line = true
  margin : '\n' ∉ indent
  blank : ∀ c ∈ indent, isBlank c = true
  maximal : RunEnds floor upper

/-- What a member takes with it in front of its first token, `front` being what stays. -/
inductive Leads (floor : Nat) : (front lead : List Char) → Prop where
  /-- Something else stands in front of it in its line. -/
  | behind {front : List Char} (h : ¬ OpensLine front) : Leads floor front []
  /-- It opens its line, and no comments stand above. -/
  | bare {upper indent : List Char} (h : Comments floor upper [] indent) :
      Leads floor (upper ++ indent) []
  /-- It opens its line, and lines of comments stand above. Only the indentation of the
  first of them stays. -/
  | comments {upper margin first indent : List Char} {lines : List (List Char)}
      (hmargin : ∀ c ∈ margin, isBlank c = true) (hfirst : ['/', '/'] <+: first)
      (h : Comments floor upper ((margin ++ first) :: lines) indent) :
      Leads floor (upper ++ margin) (unlines (first :: lines) ++ indent)

/-- The range of a member: from the comments that belong to it to the end of its last token. -/
structure Covers (body : List Char) (floor : Nat) (m : Syntax.Member) (r : ByteRange) : Prop where
  piece : ∃ front lead token behind, body = front ++ lead ++ token ++ behind ∧
    m.span = ⟨Position.start.after (front ++ lead), Position.start.after (front ++ lead ++ token)⟩ ∧
    r.start = byteLength front ∧ byteLength (front ++ lead) < r.stop ∧
    r.stop = byteLength (front ++ lead ++ token) ∧ Leads floor front lead
  floor_le : floor ≤ r.start

/-- Ranges cover members one by one, and the end of each is the floor of the next. -/
inductive Covered (body : List Char) :
    (floor : Nat) → List Syntax.Member → List ByteRange → Prop where
  | nil {floor : Nat} : Covered body floor [] []
  | cons {floor : Nat} {m : Syntax.Member} {r : ByteRange} {members : List Syntax.Member}
      {ranges : List ByteRange} (first : Covers body floor m r)
      (rest : Covered body r.stop members ranges) :
      Covered body floor (m :: members) (r :: ranges)

/-! ### Lines of comments -/

/-- A line with a character that is not blank starts at the first of them, whatever carriage
returns it ends with. -/
theorem dropReturns_margin (margin : List Char) {c : Char} (hc : isBlank c = false)
    (rest : List Char) :
    dropReturns (margin ++ c :: rest) = margin ++ c :: dropReturns rest := by
  have hreturn : ∀ d ∈ (margin ++ [c]).getLast?, d ≠ '\r' := by
    rintro d hd rfl
    obtain rfl : c = '\r' := by simpa using hd
    exact absurd hc (by decide)
  have hdrop := dropReturns_append hreturn rest
  rwa [List.append_assoc, List.singleton_append, List.append_assoc] at hdrop

theorem takeWhile_margin {margin : List Char} (hmargin : ∀ c ∈ margin, isBlank c = true) {c : Char}
    (hc : isBlank c = false) (rest : List Char) :
    (margin ++ c :: rest).takeWhile isBlank = margin := by
  rw [List.takeWhile_append_of_pos hmargin, List.takeWhile_cons_of_neg (by simp [hc]),
    List.append_nil]

theorem trimStart_margin {margin : List Char} (hmargin : ∀ c ∈ margin, isBlank c = true) {c : Char}
    (hc : isBlank c = false) (rest : List Char) :
    Text.trimStart (margin ++ c :: rest) = c :: rest := by
  rw [Text.trimStart, List.dropWhile_append_of_pos hmargin,
    List.dropWhile_cons_of_neg (by simp [hc])]

/-- A line is blank, or its margin ends somewhere. -/
theorem exists_margin (line : List Char) : (∀ c ∈ line, isBlank c = true) ∨
    ∃ margin c rest, line = margin ++ c :: rest ∧ (∀ d ∈ margin, isBlank d = true) ∧
      isBlank c = false := by
  induction line with
  | nil => exact .inl fun _ h => absurd h List.not_mem_nil
  | cons d line ih =>
    cases hd : isBlank d with
    | false => exact .inr ⟨[], d, line, rfl, fun _ h => absurd h List.not_mem_nil, hd⟩
    | true =>
      rcases ih with hblank | ⟨margin, c, rest, rfl, hmargin, hc⟩
      · exact .inl (List.forall_mem_cons.mpr ⟨hd, hblank⟩)
      · exact .inr ⟨d :: margin, c, rest, rfl, List.forall_mem_cons.mpr ⟨hd, hmargin⟩, hc⟩

theorem dropReturns_isPrefix (text : List Char) : dropReturns text <+: text :=
  List.rdropWhile_prefix (· == '\r') text

theorem isPrefixOf_dropReturns {marker : List Char} (h : '\r' ∉ marker) (text : List Char) :
    marker.isPrefixOf (dropReturns text) = marker.isPrefixOf text := by
  rw [Bool.eq_iff_iff, List.isPrefixOf_iff_prefix, List.isPrefixOf_iff_prefix]
  constructor
  · intro hmarker
    exact hmarker.trans (dropReturns_isPrefix text)
  · rintro ⟨rest, rfl⟩
    have hreturn : ∀ c ∈ marker.getLast?, c ≠ '\r' := by
      rintro c hc rfl
      exact h (List.mem_of_getLast? hc)
    rw [dropReturns_append hreturn]
    exact List.prefix_append ..

theorem isCommentLine_dropReturns (line : List Char) :
    isCommentLine (dropReturns line) = isCommentLine line := by
  rcases exists_margin line with hblank | ⟨margin, c, rest, rfl, hmargin, hc⟩
  · have hblank' : ∀ c ∈ dropReturns line, isBlank c = true := fun c hc =>
      hblank c ((dropReturns_isPrefix line).subset hc)
    rw [isCommentLine, Text.trimStart, List.dropWhile_eq_nil_iff.mpr hblank', isCommentLine,
      Text.trimStart, List.dropWhile_eq_nil_iff.mpr hblank]
  · have hreturns : dropReturns (c :: rest) = c :: dropReturns rest := dropReturns_margin [] hc rest
    rw [dropReturns_margin margin hc, isCommentLine, isCommentLine, trimStart_margin hmargin hc,
      trimStart_margin hmargin hc, ← hreturns, isPrefixOf_dropReturns (by decide),
      isPrefixOf_dropReturns (by decide)]

/-- A comment behind its margin starts with two slashes. -/
theorem exists_slashes {line : List Char} (h : isCommentLine line = true) :
    ∃ margin first, line = margin ++ first ∧ (∀ c ∈ margin, isBlank c = true) ∧
      ['/', '/'] <+: first := by
  refine ⟨line.takeWhile isBlank, Text.trimStart line, List.takeWhile_append_dropWhile.symm,
    fun c hc => List.mem_takeWhile_imp hc, ?_⟩
  rw [isCommentLine, Bool.and_eq_true] at h
  exact List.isPrefixOf_iff_prefix.mp h.1

theorem IsLine.firstVisible_comment {body upper line : List Char} (h : IsLine body upper line)
    (hcomment : isCommentLine line = true) :
    (Lines.ofText body).firstVisible (lineNumber upper) =
      byteLength (upper ++ line.takeWhile isBlank) := by
  obtain ⟨margin, first, rfl, hmargin, rest, rfl⟩ := exists_slashes hcomment
  have hslash : isBlank '/' = false := by decide
  rw [h.firstVisible, List.cons_append, dropReturns_margin margin hslash,
    takeWhile_margin hmargin hslash, takeWhile_margin hmargin hslash, byteLength_append]

theorem unlines_append (lines : List (List Char)) (line : List Char) :
    unlines (lines ++ [line]) = unlines lines ++ line ++ ['\n'] := by
  simp [unlines]

theorem count_unlines {lines : List (List Char)} (h : ∀ line ∈ lines, '\n' ∉ line) :
    (unlines lines).count '\n' = lines.length := by
  induction lines with
  | nil => rfl
  | cons line lines ih =>
    have hline := List.count_eq_zero.mpr (h line List.mem_cons_self)
    have hlines := ih fun l hl => h l (List.mem_cons_of_mem line hl)
    rw [unlines] at hlines
    rw [unlines, List.flatMap_cons, List.count_append, List.count_append, hline, hlines,
      List.length_cons]
    simp [Nat.add_comm]

/-- The run goes on over a line that is a comment and does not start before the floor. -/
theorem IsLine.firstCommentLine {body higher above : List Char} (h : IsLine body higher above)
    (floor : Nat) :
    firstCommentLine (Lines.ofText body) floor (lineNumber (higher ++ above ++ ['\n'])) =
      if isCommentLine above = true ∧ floor ≤ byteLength (higher ++ above.takeWhile isBlank) then
        firstCommentLine (Lines.ofText body) floor (lineNumber higher)
      else lineNumber (higher ++ above ++ ['\n']) := by
  have hnumber : lineNumber (higher ++ above ++ ['\n']) = higher.count '\n' + 2 := by
    simp [lineNumber, List.count_eq_zero.mpr h.whole]
  have htext : isCommentLine ((Lines.ofText body).text (higher.count '\n' + 1)) =
      isCommentLine above := by
    rw [← isCommentLine_dropReturns above, ← h.text, lineNumber]
  rw [hnumber, Source.firstCommentLine, htext]
  cases hcomment : isCommentLine above with
  | false => simp
  | true =>
    have hvisible := h.firstVisible_comment hcomment
    rw [lineNumber] at hvisible
    simp [hvisible, lineNumber]

/-- The run of comments above a line: its lines, and what ends it. -/
theorem exists_comments (floor : Nat) {body upper : List Char} (hbody : upper <+: body)
    (h : EndsLine upper) :
    ∃ higher lines, upper = higher ++ unlines lines ∧ EndsLine higher ∧
      (∀ line ∈ lines, '\n' ∉ line) ∧ (∀ line ∈ lines, isCommentLine line = true) ∧
        RunEnds floor higher ∧
      firstCommentLine (Lines.ofText body) floor (lineNumber upper) = lineNumber higher ∧
      ∀ first ∈ lines.head?, floor ≤ byteLength (higher ++ first.takeWhile isBlank) := by
  induction hn : upper.count '\n' generalizing upper with
  | zero =>
    rcases h.eq_nil_or with rfl | ⟨front, rfl⟩
    · exact ⟨[], [], rfl, endsLine_nil, by simp, by simp, .inl rfl, rfl, by simp⟩
    · simp at hn
  | succ n ih =>
    rcases h.eq_nil_or with rfl | ⟨front, rfl⟩
    · simp at hn
    obtain ⟨higher, above, rfl, hhigher, habove⟩ := exists_line_start front
    obtain ⟨tail, rfl⟩ := hbody
    have hline : IsLine (higher ++ above ++ ['\n'] ++ tail) higher above :=
      ⟨hhigher, habove, '\n' :: tail, by simp, by simp⟩
    rw [hline.firstCommentLine floor]
    by_cases hgoes : isCommentLine above = true ∧
      floor ≤ byteLength (higher ++ above.takeWhile isBlank)
    · rw [if_pos hgoes]
      have hcount : higher.count '\n' = n := by simpa [List.count_eq_zero.mpr habove] using hn
      obtain ⟨top, lines, rfl, htop, hwhole, hcomments, hends, hfirst, hhead⟩ :=
        ih ⟨above ++ ['\n'] ++ tail, by simp⟩ hhigher hcount
      refine ⟨top, lines ++ [above], ?_, htop, ?_, ?_, hends, hfirst, ?_⟩
      · simp [unlines_append]
      · simpa [or_imp, forall_and] using ⟨hwhole, habove⟩
      · simpa [or_imp, forall_and] using ⟨hcomments, hgoes.1⟩
      · cases lines with
        | nil => simpa [unlines] using hgoes.2
        | cons first lines => simpa using hhead
    · rw [if_neg hgoes]
      have hends : RunEnds floor (higher ++ above ++ ['\n']) := by
        refine .inr ⟨higher, above, rfl, hhigher, habove, ?_⟩
        rwa [not_and_or, Bool.not_eq_true, Nat.not_le] at hgoes
      exact ⟨_, [], (List.append_nil _).symm, h, by simp, by simp, hends, rfl, by simp⟩

/-! ### The start of a member -/

theorem line_start_unique {upper part upper' part' : List Char}
    (heq : upper ++ part = upper' ++ part') (hupper : EndsLine upper) (hpart : '\n' ∉ part)
    (hupper' : EndsLine upper') (hpart' : '\n' ∉ part') :
    upper = upper' ∧ part = part' := by
  have hshorter : ∀ {a x b : List Char}, EndsLine (a ++ x) → '\n' ∉ x ++ b → x = [] := by
    intro a x b hends hno
    rcases List.eq_nil_or_concat x with rfl | ⟨init, c, rfl⟩
    · rfl
    · rw [List.concat_eq_append] at hends hno
      obtain rfl : c = '\n' := hends c (by simp)
      exact absurd hno (by simp)
  rcases List.append_eq_append_iff.mp heq with ⟨x, rfl, rfl⟩ | ⟨x, rfl, rfl⟩
  · obtain rfl := hshorter hupper' hpart
    simp
  · obtain rfl := hshorter hupper hpart'
    simp

/-- The first character of a line that is not blank is the one behind its margin. -/
theorem IsLine.firstVisible_eq_iff {body upper part more : List Char} {c : Char}
    (h : IsLine body upper (part ++ c :: more)) (hc : isBlank c = false) :
    (Lines.ofText body).firstVisible (lineNumber upper) = byteLength (upper ++ part) ↔
      ∀ d ∈ part, isBlank d = true := by
  rw [h.firstVisible, byteLength_append, Nat.add_left_cancel_iff, dropReturns_margin part hc]
  constructor
  · intro hlength
    rcases exists_margin part with hblank | ⟨margin, d, rest, rfl, hmargin, hd⟩
    · exact hblank
    · rw [List.append_assoc, List.cons_append, takeWhile_margin hmargin hd, byteLength_append,
        Text.byteLength_cons] at hlength
      have := d.utf8Size_pos
      omega
  · intro hblank
    rw [takeWhile_margin hblank hc]

/-- Behind a run of comments the first of them decides where the member starts. -/
theorem Comments.exists_leads {floor : Nat} {upper indent rest : List Char}
    {lines : List (List Char)} (h : Comments floor upper lines indent)
    (hhead : ∀ first ∈ lines.head?, floor ≤ byteLength (upper ++ first.takeWhile isBlank))
    (hfloor : floor ≤ byteLength (upper ++ unlines lines ++ indent)) :
    ∃ front lead, upper ++ unlines lines ++ indent = front ++ lead ∧ floor ≤ byteLength front ∧
      Leads floor front lead ∧
      (if lineNumber upper < lineNumber upper + lines.length then
        max ((Lines.ofText (upper ++ unlines lines ++ indent ++ rest)).firstVisible
          (lineNumber upper)) floor
      else max (byteLength (upper ++ unlines lines ++ indent)) floor) = byteLength front := by
  cases lines with
  | nil =>
    have hnone : upper ++ unlines [] ++ indent = upper ++ indent := by simp [unlines]
    rw [hnone] at hfloor ⊢
    rw [if_neg (by simp), Nat.max_eq_left hfloor]
    exact ⟨upper ++ indent, [], (List.append_nil _).symm, hfloor, .bare h, rfl⟩
  | cons line lines =>
    have hcomment := h.comments line List.mem_cons_self
    have hline : IsLine (upper ++ unlines (line :: lines) ++ indent ++ rest) upper line :=
      ⟨h.above, h.whole line List.mem_cons_self, '\n' :: (unlines lines ++ indent ++ rest),
        by simp [unlines], by simp⟩
    have hfloor' := hhead line rfl
    rw [if_pos (by simp), hline.firstVisible_comment hcomment, Nat.max_eq_left hfloor']
    obtain ⟨margin, first, rfl, hmargin, hslashes⟩ := exists_slashes hcomment
    have htake : (margin ++ first).takeWhile isBlank = margin := by
      obtain ⟨rest, rfl⟩ := hslashes
      exact takeWhile_margin hmargin (by decide) _
    rw [htake] at hfloor' ⊢
    exact ⟨upper ++ margin, unlines (first :: lines) ++ indent, by simp [unlines], hfloor',
      .comments hmargin hslashes h, rfl⟩

/-- Where a member starts, and what it takes with it. -/
theorem exists_leads {ahead rest : List Char} (hrest : ∃ c ∈ rest.head?, isBlank c = false)
    {floor : Nat} (hfloor : floor ≤ byteLength ahead) :
    ∃ front lead, ahead = front ++ lead ∧ floor ≤ byteLength front ∧ Leads floor front lead ∧
      memberStart (Lines.ofText (ahead ++ rest)) floor (Position.start.after ahead) =
        byteLength front := by
  have htoken := offset_after_eq ahead rest (.inl hrest)
  obtain ⟨c, hc, hvisible⟩ := hrest
  obtain ⟨upper, part, more, tail, rfl, rfl, htail, hline⟩ := exists_isLine ahead rest
  have hpart : '\n' ∉ part := fun h => hline.whole (List.mem_append_left more h)
  have hplace := after_append_part hline.above hpart
  obtain ⟨more, rfl⟩ : ∃ rest, more = c :: rest := by
    cases more with
    | nil =>
      obtain rfl := htail c (by simpa using hc)
      exact absurd hvisible (by decide)
    | cons d more =>
      obtain rfl : d = c := by simpa using hc
      exact ⟨more, rfl⟩
  have hopens := hline.firstVisible_eq_iff hvisible
  rw [hplace] at htoken ⊢
  rw [memberStart]
  simp only [htoken]
  by_cases hblank : ∀ d ∈ part, isBlank d = true
  · rw [if_pos (hopens.mpr hblank)]
    obtain ⟨higher, lines, rfl, hhigher, hwhole, hcomments, hends, hfirst, hhead⟩ :=
      exists_comments floor (show upper <+: upper ++ part ++ (c :: more ++ tail) by simp)
        hline.above
    rw [hfirst]
    have hrun : Comments floor higher lines part :=
      ⟨hhigher, hwhole, hcomments, hpart, hblank, hends⟩
    have hnumber : lineNumber (higher ++ unlines lines) = lineNumber higher + lines.length := by
      rw [lineNumber, List.count_append, count_unlines hwhole, lineNumber, Nat.add_right_comm]
    rw [hnumber]
    exact hrun.exists_leads hhead hfloor
  · rw [if_neg (mt hopens.mp hblank), if_neg (lt_irrefl _), Nat.max_eq_left hfloor]
    refine ⟨upper ++ part, [], (List.append_nil _).symm, hfloor, .behind ?_, rfl⟩
    rintro ⟨upper', margin, heq, hupper', hmargin, hblank'⟩
    obtain ⟨rfl, rfl⟩ := line_start_unique heq hline.above hpart hupper' hmargin
    exact hblank hblank'

/-! ### The ranges of a block -/

theorem Covers.start_lt_stop {body : List Char} {floor : Nat} {m : Syntax.Member} {r : ByteRange}
    (h : Covers body floor m r) : r.start < r.stop := by
  obtain ⟨front, lead, token, behind, _, _, hstart, hlt, _⟩ := h.piece
  rw [byteLength_append] at hlt
  omega

theorem Covers.isBoundary {body : List Char} {floor : Nat} {m : Syntax.Member} {r : ByteRange}
    (h : Covers body floor m r) : IsBoundary body r.start ∧ IsBoundary body r.stop := by
  obtain ⟨front, lead, token, behind, rfl, _, hstart, _, hstop, _⟩ := h.piece
  rw [Text.isBoundary_iff, Text.isBoundary_iff]
  exact ⟨⟨front, lead ++ token ++ behind, by simp, hstart.symm⟩,
    ⟨front ++ lead ++ token, behind, rfl, hstop.symm⟩⟩

namespace Covered
variable {body : List Char} {floor : Nat} {members : List Syntax.Member} {ranges : List ByteRange}
  (h : Covered body floor members ranges)
include h

theorem floor_le {r : ByteRange} (hr : r ∈ ranges) : floor ≤ r.start := by
  induction h with
  | nil => exact absurd hr List.not_mem_nil
  | cons first _ ih =>
    have hlt := first.start_lt_stop
    have hfloor := first.floor_le
    rcases List.mem_cons.mp hr with rfl | hr
    · exact hfloor
    · have := ih hr
      omega

theorem pairwise : ranges.Pairwise fun r s => r.stop ≤ s.start := by
  induction h with
  | nil => exact .nil
  | cons _ rest ih => exact List.pairwise_cons.mpr ⟨fun r hr => rest.floor_le hr, ih⟩

theorem exists_covers {r : ByteRange} (hr : r ∈ ranges) : ∃ floor m, Covers body floor m r := by
  induction h with
  | nil => exact absurd hr List.not_mem_nil
  | cons first _ ih =>
    rcases List.mem_cons.mp hr with rfl | hr
    · exact ⟨_, _, first⟩
    · exact ih hr

end Covered

theorem Spelled.isPrefix {body before : List Char} {members : List Syntax.Member}
    (h : Spelled body before members) : before <+: body := by
  induction h with
  | nil inside => exact inside
  | cons _ _ _ ih => exact ((List.prefix_append ..).trans (List.prefix_append ..)).trans ih

/-- One member after the other gets its range, the floor being what is passed already. -/
theorem membersFrom_covered {body before : List Char} {members : List Syntax.Member}
    (h : Spelled body before members)
    (declareAt : Nat → Syntax.Member → Declaration × VisibilityClass) (place : Nat) :
    Covered body (byteLength before) members
      ((membersFrom (Lines.ofText body) declareAt (byteLength before) place members).map
        Member.range) := by
  induction h generalizing place with
  | nil => exact .nil
  | @cons before gap token m rest visible span behind ih =>
    obtain ⟨tail, rfl⟩ := behind.isPrefix
    have hhead : ∃ c ∈ (token ++ tail).head?, isBlank c = false := by
      obtain ⟨c, hc, hvisible⟩ := visible.first
      exact ⟨c, by simp [Option.mem_def.mp hc], hvisible⟩
    have hlast : ∃ c ∈ (before ++ gap ++ token).getLast?, isBlank c = false := by
      obtain ⟨c, hc, hvisible⟩ := visible.last
      exact ⟨c, by simp [List.getLast?_append, Option.mem_def.mp hc], hvisible⟩
    have hstop := offset_after_eq _ tail (.inr hlast)
    obtain ⟨front, lead, hsplit, hfloor, hleads, hstart⟩ := exists_leads hhead
      (show byteLength before ≤ byteLength (before ++ gap) by rw [byteLength_append]; omega)
    rw [← List.append_assoc] at hstart
    rw [membersFrom, List.map_cons, span, hstop, hstart]
    refine .cons ⟨⟨front, lead, token, tail, by rw [hsplit], ?_, rfl, ?_, ?_, hleads⟩,
      hfloor⟩ (ih (place + 1))
    · rw [span, hsplit]
    · rw [← hsplit, byteLength_append (before ++ gap)]
      exact Nat.lt_add_of_pos_right visible.byteLength_pos
    · rw [hsplit]

theorem StandsIn.covered {body opening : List Char} {b : Syntax.Block} (h : StandsIn body opening b)
    (order : VisibilityOrder) :
    Covered body (byteLength opening) b.members (blockOf order (Lines.ofText body) b).ranges := by
  obtain ⟨tail, rfl⟩ := h.members.isPrefix
  have hinside := offset_after_eq opening tail (.inr ⟨_, h.brace, by decide⟩)
  rw [Block.ranges, blockOf, h.inside, hinside]
  exact membersFrom_covered h.members _ 0

/-- **Ranges cover members.** In a block whose members stand in the text in order, the
ranges cover the members one by one, each behind the end of the one before. They are
inside of the block, do not overlap, and start and end between characters. -/
theorem blockOf_ranges (order : VisibilityOrder) {body opening : List Char} {b : Syntax.Block}
    (h : StandsIn body opening b) :
    Covered body (byteLength opening) b.members (blockOf order (Lines.ofText body) b).ranges ∧
    (blockOf order (Lines.ofText body) b).ranges.Pairwise (fun r s => r.stop ≤ s.start) ∧
    ∀ r ∈ (blockOf order (Lines.ofText body) b).ranges, byteLength opening ≤ r.start ∧
      r.start < r.stop ∧
      IsBoundary body r.start ∧ IsBoundary body r.stop := by
  have hcovered := h.covered order
  refine ⟨hcovered, hcovered.pairwise, fun r hr => ?_⟩
  obtain ⟨_, _, hcovers⟩ := hcovered.exists_covers hr
  exact ⟨hcovered.floor_le hr, hcovers.start_lt_stop, hcovers.isBoundary⟩

/-- The second member has a comment above it that ends with a carriage return. -/
def rangesText : List Char := "impl A \x7b\n fn a() \x7b\x7d\n // é\r\n fn b() \x7b\x7d \x7d".toList

theorem blockOf_ranges_sample : ∃ b, (trees rangesText >>= Grammar.blocks) = .ok [b] ∧
    StandsIn rangesText "impl A \x7b".toList b ∧
    (blockOf .standard (Lines.ofText rangesText) b).ranges = [⟨10, 19⟩, ⟨21, 38⟩] ∧
    Covered rangesText 8 b.members (blockOf .standard (Lines.ofText rangesText) b).ranges := by
  have hspans : (trees rangesText >>= Grammar.blocks).toOption.map (fun found => found.map fun b =>
      (b.inside, b.members.map Syntax.Member.span,
        (blockOf .standard (Lines.ofText rangesText) b).ranges)) =
      some [(⟨1, 8⟩, [⟨⟨2, 1⟩, ⟨2, 10⟩⟩, ⟨⟨4, 1⟩, ⟨4, 10⟩⟩], [⟨10, 19⟩, ⟨21, 38⟩])] := by
    decide +kernel
  cases hfound : trees rangesText >>= Grammar.blocks with
  | error place =>
    rw [hfound] at hspans
    cases hspans
  | ok found =>
    rw [hfound] at hspans
    obtain ⟨b, rfl, hb⟩ := List.map_eq_singleton_iff.mp (Option.some.inj hspans)
    simp only [Prod.mk.injEq] at hb
    obtain ⟨hinside, hmembers, hranges⟩ := hb
    have hstands : StandsIn rangesText "impl A \x7b".toList b :=
      ⟨by decide, hinside, .of_spans [("\n ".toList, "fn a() \x7b\x7d".toList),
        ("\n // é\r\n ".toList, "fn b() \x7b\x7d".toList)] (by decide +kernel) hmembers
        (by decide +kernel)⟩
    exact ⟨b, rfl, hstands, hranges, (blockOf_ranges .standard hstands).1⟩

end CalleeFirst.Source
