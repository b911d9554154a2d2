import CalleeFirst.Proofs.Extraction
import CalleeFirst.Proofs.PushedItems
import CalleeFirst.Proofs.Shifting

/-! A character in front of the first line.

The scanner counts it in the columns of the first line only (`scanFrom_column`). In the index of the
lines it makes the first line longer and moves the lines behind it.

A place may or may not be counted with the character. `Follows` says that a place in the longer text
is the one that belongs to a place in the text, so that the same lines above it are comments of a
member that starts there. If all places of a block follow it, the block is only moved by the
character (`blockOf_cons`, `blockOf_pushed`). -/
namespace CalleeFirst

open Grammar (pushedPlace)
open Grammar.HasPlaces (pushed)
open Lexeme (Position byteOrderMark)

theorem line_le_line {p q : Position} (h : p ≤ q) : p.line ≤ q.line := by
  rw [Position.le_iff] at h
  omega

/-- Columns change, but not lines. -/
theorem line_pushed {n : Nat} (p : Position) : (pushed n p).line = p.line := by
  show (pushedPlace n p).line = p.line
  rw [pushedPlace]
  split <;> rfl

/-! ### Scanning -/

namespace Lexeme
variable {n : Nat}

theorem next_pushed {p : Position} (h : 1 ≤ p.line) (c : Char) :
    (pushed n p).next c = pushed n (p.next c) := by
  obtain ⟨line, column⟩ := p
  by_cases hc : c = '\n'
  · obtain ⟨line, rfl⟩ := Nat.exists_eq_add_of_le' h
    by_cases hline : line = 0 <;> simp [pushed, pushedPlace, Position.next, hline, hc]
  · by_cases hline : line = 1 <;>
      simp [pushed, pushedPlace, Position.next, hline, hc, Nat.add_right_comm]

/-- A line feed ends what is pushed. -/
theorem after_pushed {p : Position} (h : 1 ≤ p.line) (text : List Char) :
    (pushed n p).after text = pushed n (p.after text) := by
  induction text generalizing p with
  | nil => rfl
  | cons c text ih =>
    rw [Position.after_cons, Position.after_cons, next_pushed h,
      ih (h.trans (line_le_line (p.le_next c)))]

instance : Grammar.HasPlaces Frame where
  pushed n frame := { frame with start := pushed n frame.start, before := pushed n frame.before }

instance {α : Type} [Grammar.HasPlaces α] : Grammar.HasPlaces (Except Position α) where
  pushed n
    | .ok a => .ok (pushed n a)
    | .error p => .error (pushed n p)

theorem DocComment.trees_pushed (comment : DocComment) (start stop : Position) :
    comment.trees ⟨pushed n start, pushed n stop⟩ = pushed n (comment.trees ⟨start, stop⟩) := by
  unfold DocComment.trees
  cases comment.inner <;> simp <;> rfl

theorem reverse_pushed (trees : List Tree) : (pushed n trees).reverse = pushed n trees.reverse :=
  List.map_reverse.symm

theorem closeGroup_pushed (closer : Delimiter) (stop : Position) (trees : List Tree)
    (stack : List Frame) : closeGroup closer (pushed n stop) (pushed n trees) (pushed n stack) =
      pushed n (closeGroup closer stop trees stack) := by
  cases stack with
  | nil => rfl
  | cons frame stack =>
    obtain ⟨delimiter, start, before⟩ := frame
    show closeGroup _ _ _ (⟨delimiter, pushed n start, pushed n before⟩ :: pushed n stack) = _
    rw [closeGroup, closeGroup, apply_ite (pushed n), reverse_pushed]
    simp
    rfl

theorem leaf?_pushed {text : List Char} {length : Nat} {tree : Span → Tree}
    (h : leaf? text = some (length, tree)) (start stop : Position) :
    tree ⟨pushed n start, pushed n stop⟩ = pushed n (tree ⟨start, stop⟩) := by
  unfold leaf? at h
  repeat' split at h
  all_goals cases h
  all_goals rfl

/-- What is scanned further to the right is the same further to the right. -/
theorem scanFrom_pushed {text : List Char} {place : Position} {stack : List Frame}
    {trees : List Tree} (h : 1 ≤ place.line) :
    scanFrom text (pushed n place) (pushed n stack) (pushed n trees) =
      pushed n (scanFrom text place stack trees) := by
  induction hlength : text.length using Nat.strongRecOn generalizing text place stack trees with
  | ind length ih =>
    subst hlength
    have hline := h.trans (line_le_line (place.le_after (text.take (gapLength text))))
    -- Both scans take the same step, so one split serves both.
    rw [scanFrom.eq_def, scanFrom.eq_def text place]
    dsimp only
    rw [after_pushed h]
    generalize place.after (text.take (gapLength text)) = start at hline ⊢
    have hafter (part : List Char) : 1 ≤ (start.after part).line :=
      hline.trans (line_le_line (start.le_after part))
    split
    · cases stack with
      | nil => exact congrArg _ (reverse_pushed trees)
      | cons frame stack => rfl
    · next c tail hdrop =>
      have hshorter (k : Nat) : (tail.drop k).length < text.length := length_drop_lt k hdrop
      have hnext : 1 ≤ (start.next c).line := hline.trans (line_le_line (start.le_next c))
      simp only [next_pushed hline, after_pushed hline, closeGroup_pushed]
      split
      · rw [DocComment.trees_pushed, reverse_pushed, ← Grammar.pushed_append]
        exact ih _ (hshorter _) (hafter _) rfl
      · split
        · show scanFrom _ _ (pushed n (⟨_, start, trees⟩ :: stack)) (pushed n []) = _
          exact ih _ (hshorter _) hnext rfl
        · next closer _ _ =>
          rcases closeGroup closer (start.next c) trees stack with _ | ⟨stack, trees⟩
          · rfl
          · exact ih _ (hshorter _) hnext rfl
        · split
          · next hleaf =>
            rw [leaf?_pushed hleaf, ← Grammar.pushed_cons]
            exact ih _ (hshorter _) (hafter _) rfl
          · rfl

/-- The text may start anywhere in the first line. -/
theorem scanFrom_column (text : List Char) (n : Nat) :
    scanFrom text ⟨1, n⟩ [] [] = pushed n (scanFrom text .start [] []) := by
  have hplace : pushed n Position.start = ⟨1, n⟩ := congrArg (Position.mk 1) (Nat.zero_add n)
  rw [← hplace]
  exact @scanFrom_pushed n text .start [] [] (Nat.le_refl 1)

end Lexeme

namespace Source

open Grammar (InOrder Orderly)
open Syntax (Node)
open Text (byteLength byteLength_append isBlank)

/-! ### Lines -/

/-- The line, starting later. -/
def Line.shifted (bytes : Nat) (line : Line) : Line := { line with start := line.start + bytes }

theorem linesFrom_shifted (bytes start : Nat) (before text : List Char) :
    linesFrom (start + bytes) before text =
      (linesFrom start before text).map (Line.shifted bytes) := by
  induction text generalizing start before with
  | nil => rfl
  | cons c rest ih =>
    have hnext : start + bytes + byteLength before + 1 = start + byteLength before + 1 + bytes := by
      omega
    rw [linesFrom, linesFrom]
    split
    · rw [List.map_cons, hnext, ih]
      rfl
    · exact ih ..

/-- Characters at the start of a line move the lines behind it. -/
theorem tail_linesFrom (start : Nat) (before extra text : List Char) :
    (linesFrom start (before ++ extra) text).tail =
      (linesFrom start before text).tail.map (Line.shifted (byteLength extra)) := by
  induction text generalizing before with
  | nil => rfl
  | cons c rest ih =>
    have hnext : start + byteLength (before ++ extra) + 1 =
        start + byteLength before + 1 + byteLength extra := by
      rw [byteLength_append]
      omega
    rw [linesFrom, linesFrom]
    split
    · rw [List.tail_cons, List.tail_cons, hnext, linesFrom_shifted]
    · exact ih (c :: before)

/-- A comment starts before any place in a later line. -/
theorem firstVisible_lt_offset {text : List Char} {number : Nat} {q : Position}
    (hcomment : isCommentLine ((Lines.ofText text).text number) = true) (hnumber : 1 ≤ number)
    (hq : number < q.line) : (Lines.ofText text).firstVisible number <
      (Lines.ofText text).offset q := by
  rw [Lines.firstVisible]
  rw [Lines.text] at hcomment
  cases hline : (Lines.ofText text).line? number with
  | none =>
    rw [hline] at hcomment
    cases hcomment
  | some line =>
    rw [hline] at hcomment
    have hstop := Lines.stop_le_offset hline hnumber hq
    have hvisible : 0 < byteLength (line.text.dropWhile Text.isBlank) := by
      refine Nat.pos_of_ne_zero fun hzero => ?_
      have hnil : Text.trimStart line.text = [] := Text.byteLength_eq_zero hzero
      rw [Option.map_some, Option.getD_some, isCommentLine, hnil] at hcomment
      cases hcomment
    have hlength : byteLength line.text =
        byteLength (line.text.takeWhile Text.isBlank) + byteLength
          (line.text.dropWhile Text.isBlank) := by
      rw [← byteLength_append, List.takeWhile_append_dropWhile]
    rw [Line.stop, hlength] at hstop
    dsimp only
    omega

section
variable {c : Char} {text : List Char}

/-- The first line starts with the character. -/
theorem exists_line_one (text : List Char) : ∃ line,
    (Lines.ofText text).line? 1 = some ⟨0, dropReturns line⟩ ∧
      ∀ c ≠ '\n', (Lines.ofText (c :: text)).line? 1 = some ⟨0, dropReturns (c :: line)⟩ := by
  obtain ⟨line, tail, rfl, hline, htail⟩ := exists_line_end text
  have hfirst (line : List Char) (hline : '\n' ∉ line) :
      (Lines.ofText (line ++ tail)).line? 1 = some ⟨0, dropReturns line⟩ := by
    rw [Lines.line?, Lines.ofText, List.getElem?_toArray]
    exact getElem?_linesFrom_zero 0 [] hline htail
  refine ⟨line, hfirst line hline, fun c hc => ?_⟩
  exact hfirst (c :: line) (by simpa using ⟨hc.symm, hline⟩)

namespace Lines

theorem line?_cons (hc : c ≠ '\n') {number : Nat} (h : 2 ≤ number) :
    (ofText (c :: text)).line? number = ((ofText text).line? number).map
      (Line.shifted c.utf8Size) := by
  obtain ⟨k, rfl⟩ := Nat.exists_eq_add_of_le' h
  have htail := tail_linesFrom 0 [] [c] text
  have hfirst : linesFrom 0 [] (c :: text) = linesFrom 0 ([] ++ [c]) text := by
    rw [linesFrom, if_neg hc]
    rfl
  rw [line?, line?, ofText, ofText, List.getElem?_toArray, List.getElem?_toArray, hfirst]
  show (linesFrom 0 ([] ++ [c]) text)[k + 1]? = ((linesFrom 0 [] text)[k + 1]?).map _
  rw [← List.getElem?_tail, ← List.getElem?_tail, htail, List.getElem?_map]
  rfl

theorem text_cons (hc : c ≠ '\n') {number : Nat} (h : 2 ≤ number) :
    (ofText (c :: text)).text number = (ofText text).text number := by
  rw [Lines.text, Lines.text, line?_cons hc h, Option.map_map]
  rfl

theorem offset_cons (hc : c ≠ '\n') {p : Position} (h : 2 ≤ p.line) :
    (ofText (c :: text)).offset p = (ofText text).offset p + c.utf8Size := by
  rw [offset, offset, line?_cons hc h]
  cases (ofText text).line? p.line with
  | none => exact Nat.add_comm ..
  | some line => exact Nat.add_right_comm ..

theorem firstVisible_cons (hc : c ≠ '\n') {number : Nat} (h : 2 ≤ number) :
    (ofText (c :: text)).firstVisible number = (ofText text).firstVisible number + c.utf8Size := by
  rw [firstVisible, firstVisible, line?_cons hc h]
  cases (ofText text).line? number with
  | none => exact Nat.add_comm ..
  | some line => exact Nat.add_right_comm ..

/-- In the first line the character is counted in columns, too. -/
theorem offset_cons_one (hc : isBlank c = false) (column : Nat) :
    (ofText (c :: text)).offset ⟨1, column + 1⟩ =
      (ofText text).offset ⟨1, column⟩ + c.utf8Size := by
  obtain ⟨line, hplain, hcons⟩ := exists_line_one text
  have hfeed : c ≠ '\n' := by
    rintro rfl
    cases hc
  have hreturns : dropReturns (c :: line) = c :: dropReturns line := dropReturns_margin [] hc line
  simp only [offset, hplain, hcons c hfeed, hreturns, List.take_succ_cons, Text.byteLength_cons]
  omega

end Lines

end

/-! ### Places that follow -/

/-- Whether a line is a comment that can belong to what starts at an offset behind it. -/
def reaches (text : List Char) (floor number : Nat) : Bool :=
  isCommentLine ((Lines.ofText text).text number) &&
    decide (floor ≤ (Lines.ofText text).firstVisible number)

/-- The place `q` behind the character `c` is what `p` is in the text alone, and at neither of them
does anything reach back to the first line. -/
structure Follows (c : Char) (text : List Char) (p q : Position) : Prop where
  line : q.line = p.line
  offset : (Lines.ofText (c :: text)).offset q = (Lines.ofText text).offset p + c.utf8Size
  plain : reaches text ((Lines.ofText text).offset p) 1 = false
  behind : reaches (c :: text) ((Lines.ofText (c :: text)).offset q) 1 = false

/-- What starts behind the first line does not reach back to a comment there. -/
theorem not_reaches_one (text : List Char) {p : Position} (hp : 2 ≤ p.line) :
    reaches text ((Lines.ofText text).offset p) 1 = false := by
  rw [reaches]
  cases hcomment : isCommentLine ((Lines.ofText text).text 1) with
  | false => rfl
  | true =>
    have hlt := firstVisible_lt_offset hcomment (Nat.le_refl 1) hp
    simpa using hlt

/-- Behind the first line a place follows itself. -/
theorem Follows.self {c : Char} (hc : c ≠ '\n') (text : List Char) {p : Position}
    (h : 2 ≤ p.line) : Follows c text p p :=
  ⟨rfl, Lines.offset_cons hc h, not_reaches_one text h, not_reaches_one (c :: text) h⟩

/-- A line that starts with a mark is no comment. -/
theorem not_reaches_marked (text : List Char) (floor : Nat) :
    reaches (byteOrderMark :: text) floor 1 = false := by
  have hvisible : isBlank byteOrderMark = false := by decide
  obtain ⟨line, _, hcons⟩ := exists_line_one text
  have htext : (Lines.ofText (byteOrderMark :: text)).text 1 =
      byteOrderMark :: dropReturns line := by
    rw [Lines.text, hcons byteOrderMark (by decide), Option.map_some, Option.getD_some]
    exact dropReturns_margin [] hvisible line
  rw [reaches, htext, isCommentLine, Text.trimStart, List.dropWhile_cons_of_neg (by decide)]
  rfl

/-- If the text starts with a mark, a place follows a further mark that it is counted with. -/
theorem Follows.right (text : List Char) {p : Position} (h : 1 ≤ p.line) :
    Follows byteOrderMark (byteOrderMark :: text) p (pushed 1 p) where
  line := line_pushed p
  offset := by
    obtain ⟨line, column⟩ := p
    by_cases hone : line = 1
    · subst hone
      exact Lines.offset_cons_one (by decide) column
    · have hplace : pushed 1 (Position.mk line column) = ⟨line, column⟩ := if_neg hone
      rw [hplace]
      exact Lines.offset_cons (by decide) (Nat.lt_of_le_of_ne h (Ne.symm hone))
  plain := not_reaches_marked ..
  behind := not_reaches_marked ..

/-! ### Members that follow -/

theorem two_le_firstCommentLine {text : List Char} {floor : Nat}
    (hfloor : reaches text floor 1 = false) {line : Nat} (h : 2 ≤ line) :
    2 ≤ firstCommentLine (Lines.ofText text) floor line := by
  induction line using firstCommentLine.induct (Lines.ofText text) floor with
  | case1 => exact absurd h (by decide)
  | case2 => exact absurd h (by decide)
  | case3 line hcomment ih =>
    rw [firstCommentLine, if_pos hcomment]
    refine ih ?_
    rcases Nat.eq_zero_or_pos line with rfl | hpos
    · exact absurd (hfloor.symm.trans hcomment) Bool.false_ne_true
    · exact Nat.succ_le_succ hpos
  | case4 line hcomment =>
    rw [firstCommentLine, if_neg hcomment]
    exact h

/-- Above the first line there is nothing. -/
theorem memberStart_of_line_le {index : Lines} {floor : Nat} {start : Position}
    (h : start.line ≤ 1) : memberStart index floor start = max (index.offset start) floor := by
  have hfirst : firstCommentLine index floor start.line = start.line := by
    rcases Nat.le_one_iff_eq_zero_or_eq_one.mp h with h | h <;> rw [h] <;> rfl
  simp only [memberStart, hfirst, ite_self, Nat.lt_irrefl, if_false]

section
variable {c : Char} (hc : c ≠ '\n') {text : List Char} {p q : Position} (h : Follows c text p q)
include hc h

theorem firstCommentLine_cons (line : Nat) :
    firstCommentLine (Lines.ofText (c :: text)) ((Lines.ofText (c :: text)).offset q) line =
      firstCommentLine (Lines.ofText text) ((Lines.ofText text).offset p) line := by
  have hreaches (number : Nat) :
      reaches (c :: text) ((Lines.ofText (c :: text)).offset q) (number + 1) =
        reaches text ((Lines.ofText text).offset p) (number + 1) := by
    rcases Nat.eq_zero_or_pos number with rfl | hpos
    · exact h.behind.trans h.plain.symm
    · have hnumber : 2 ≤ number + 1 := Nat.succ_le_succ hpos
      simp only [reaches, Lines.text_cons hc hnumber, Lines.firstVisible_cons hc hnumber, h.offset,
        Nat.add_le_add_iff_right]
  induction line with
  | zero => rfl
  | succ line ih =>
    cases line with
    | zero => rfl
    | succ line =>
      have hline := hreaches line
      rw [reaches, reaches] at hline
      rw [firstCommentLine, firstCommentLine, hline, ih]

/-- A member that follows takes the same comments along. -/
theorem memberStart_cons {start start' : Position} (hstart : Follows c text start start') :
    memberStart (Lines.ofText (c :: text)) ((Lines.ofText (c :: text)).offset q) start' =
      memberStart (Lines.ofText text) ((Lines.ofText text).offset p) start + c.utf8Size := by
  rcases Nat.lt_or_ge 1 start.line with hline | hline
  · have hfirst := two_le_firstCommentLine h.plain hline
    have hcomments := firstCommentLine_cons hc h start.line
    rw [h.offset] at hcomments
    simp only [memberStart, hstart.line, hstart.offset, h.offset, hcomments,
      Lines.firstVisible_cons hc hline, Nat.add_right_cancel_iff]
    split
    · simp only [Lines.firstVisible_cons hc hfirst, Nat.add_max_add_right]
      split <;> rfl
    · simp only [Nat.lt_irrefl, if_false, Nat.add_max_add_right]
  · rw [memberStart_of_line_le hline, memberStart_of_line_le (hstart.line ▸ hline), hstart.offset,
      h.offset, Nat.add_max_add_right]

omit h in
/-- Members of which all places follow are moved. -/
theorem membersFrom_cons (declareAt : Nat → Syntax.Member → Declaration × VisibilityClass)
    {f : Syntax.Member → Syntax.Member} {g : Position → Position}
    (hspan : ∀ m, (f m).span = m.span.moved g)
    (hdeclares : ∀ i m, declareAt i (f m) = declareAt i m) (place : Nat) {p : Position}
    {members : List Syntax.Member} (h : InOrder p members)
    (hp : ∀ q, p ≤ q → Follows c text q (g q)) :
    membersFrom (Lines.ofText (c :: text)) declareAt ((Lines.ofText (c :: text)).offset (g p)) place
      (members.map f) = (membersFrom (Lines.ofText text) declareAt ((Lines.ofText text).offset p)
        place members).map fun m => { m with range := m.range.shifted c.utf8Size } := by
  induction members generalizing p place with
  | nil => rfl
  | cons m rest ih =>
    obtain ⟨hbehind, hle, _, hrest⟩ := h
    have hstart := hp _ hbehind
    have hstop := hp _ (hbehind.trans hle)
    have hmembers := ih (place + 1) hrest fun q hq => hp q ((hbehind.trans hle).trans hq)
    rw [hstop.offset] at hmembers
    rw [List.map_cons, membersFrom, membersFrom, List.map_cons, hdeclares, hspan]
    simp only [Lexeme.Span.moved, memberStart_cons hc (hp p (le_refl p)) hstart, hstart.line,
      hstop.offset, hmembers]
    rfl

omit h in
/-- A block is only moved by a character at the start, unless it has members and is opened in the
first line. -/
theorem blockOf_cons (text : List Char) (order : VisibilityOrder) {b : Syntax.Block}
    (hb : InOrder b.inside b.members) (hinside : b.members ≠ [] → 2 ≤ b.inside.line) :
    blockOf order (Lines.ofText (c :: text)) b =
      (blockOf order (Lines.ofText text) b).shifted c.utf8Size := by
  by_cases hmembers : b.members = []
  · rw [blockOf, blockOf, hmembers]
    rfl
  · have hfollows (q : Position) (hq : b.inside ≤ q) : Follows c text q (id q) :=
      .self hc text ((hinside hmembers).trans (line_le_line hq))
    have hmoved := membersFrom_cons hc (declare order (typeName? b.selfType) b.trait.isSome)
      (f := id) (fun _ => rfl) (fun _ _ => rfl) 0 hb hfollows
    rw [List.map_id] at hmoved
    exact congrArg (Block.mk b.selfType.text (b.trait.map Node.text) b.start.line) hmoved

end

/-- If the text starts with a mark, a block is only moved by a further mark that its columns are
counted with. -/
theorem blockOf_pushed (text : List Char) (order : VisibilityOrder) {b : Syntax.Block}
    (hb : Orderly b) :
    blockOf order (Lines.ofText (byteOrderMark :: byteOrderMark :: text)) (pushed 1 b) =
      (blockOf order (Lines.ofText (byteOrderMark :: text)) b).shifted byteOrderMark.utf8Size := by
  have hfollows (q : Position) (hq : b.inside ≤ q) :
      Follows byteOrderMark (byteOrderMark :: text) q (pushedPlace 1 q) :=
    .right text (line_le_line (hb.inside.trans hq))
  have hmembers := membersFrom_cons (by decide)
    (declare order (typeName? b.selfType) b.trait.isSome) (f := pushed 1) (fun _ => rfl)
    (declare_moved rfl order (typeName? b.selfType) b.trait.isSome) 0 hb.members hfollows
  have htexts : (pushed 1 b.trait).map Node.text = b.trait.map Node.text := by
    cases b.trait with
    | none => rfl
    | some trait => exact congrArg some (Node.text_moved rfl trait)
  have hown : typeName? (pushed 1 b.selfType) = typeName? b.selfType := typeName?_moved b.selfType
  show Block.mk (pushed 1 b.selfType).text ((pushed 1 b.trait).map Node.text)
    (pushed 1 b.start).line (membersFrom _ (declare order (typeName? (pushed 1 b.selfType))
      (pushed 1 b.trait).isSome) _ 0 (b.members.map (pushed 1))) = _
  rw [htexts, hown, Grammar.isSome_pushed, line_pushed]
  exact congrArg₂ (Block.mk · (b.trait.map Node.text) b.start.line ·)
    (Node.text_moved rfl b.selfType) hmembers

end Source

end CalleeFirst
