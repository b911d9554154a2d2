import CalleeFirst.Lexeme.Scan
import Mathlib.Order.Defs.PartialOrder

/-! Where the trees of a text stand.

Trees come in the order of the text: none starts before the one in front of it has ended.
Only the trees that a documentation comment is turned into all stand where the comment
stands, so that behind the marks they start with nothing is passed yet (`Tree.passed`).

`scan_stand`: the trees of a text stand one behind the other, and so do those inside of
every brace, behind its opening character. No word among them is empty. -/
namespace CalleeFirst.Lexeme

/-! ### The order of positions -/

namespace Position

instance : Preorder Position where
  le p q := p.line < q.line ∨ p.line = q.line ∧ p.column ≤ q.column
  le_refl p := .inr ⟨rfl, Nat.le_refl _⟩
  le_trans p q r hpq hqr := by omega

theorem le_iff {p q : Position} : p ≤ q ↔ p.line < q.line ∨ p.line = q.line ∧ p.column ≤ q.column :=
  Iff.rfl

theorem le_next (p : Position) (c : Char) : p ≤ p.next c := by
  rw [le_iff, next]
  split <;> simp

theorem le_after (p : Position) (text : List Char) : p ≤ p.after text := by
  induction text generalizing p with
  | nil => exact le_refl p
  | cons c text ih => exact le_trans (le_next p c) (ih _)

end Position

/-! ### Trees in order -/

/-- Where the next tree can start at the earliest. -/
def Tree.passed : Tree → Position
  | .mark char _ span => if char = '#' ∨ char = '!' then span.start else span.stop
  | tree => tree.stop

/-- Trees stand one behind the other, between two positions. -/
def Consecutive (p : Position) : List Tree → Position → Prop
  | [], q => p ≤ q
  | tree :: rest, q => p ≤ tree.start ∧ tree.start ≤ tree.stop ∧ Consecutive tree.passed rest q

/-- Words are not empty, and what is inside of braces stands in order. -/
inductive Tree.Sound : Tree → Prop where
  | word {text : String} {span : Span} (named : text ≠ "") : Sound (.word text span)
  | mark {char : Char} {joined : Bool} {span : Span} : Sound (.mark char joined span)
  | literal {text : String} {span : Span} : Sound (.literal text span)
  | group {delimiter : Delimiter} {inner : List Tree} {span : Span}
      (order : delimiter = .brace → Consecutive (span.start.next delimiter.opener) inner span.stop)
      (each : delimiter = .brace → ∀ tree ∈ inner, tree.Sound) : Sound (.group delimiter inner span)

/-- Sound trees, one behind the other. -/
structure Stand (p : Position) (trees : List Tree) (q : Position) : Prop where
  order : Consecutive p trees q
  each : ∀ tree ∈ trees, tree.Sound

theorem Tree.start_le_passed {tree : Tree} (h : tree.start ≤ tree.stop) :
    tree.start ≤ tree.passed := by
  cases tree with
  | mark char joined span =>
    rw [passed]
    split
    · exact le_refl _
    · exact h
  | _ => exact h

theorem Tree.passed_le_stop {tree : Tree} (h : tree.start ≤ tree.stop) :
    tree.passed ≤ tree.stop := by
  cases tree with
  | mark char joined span =>
    rw [passed]
    split
    · exact h
    · exact le_refl _
  | _ => exact le_refl _

namespace Consecutive

theorem le {p q : Position} {trees : List Tree} (h : Consecutive p trees q) : p ≤ q := by
  induction trees generalizing p with
  | nil => exact h
  | cons tree rest ih => exact le_trans h.1 (le_trans (Tree.start_le_passed h.2.1) (ih h.2.2))

theorem of_le {p p' q : Position} {trees : List Tree} (hp : p' ≤ p) (h : Consecutive p trees q) :
    Consecutive p' trees q := by
  cases trees with
  | nil => exact le_trans hp h
  | cons tree rest => exact ⟨le_trans hp h.1, h.2⟩

theorem append {p q r : Position} {front back : List Tree} (h : Consecutive p front q)
    (h' : Consecutive q back r) : Consecutive p (front ++ back) r := by
  induction front generalizing p with
  | nil => exact h'.of_le h
  | cons tree rest ih => exact ⟨h.1, h.2.1, ih h.2.2⟩

/-- What is behind a tree is behind what it passes. -/
theorem behind {p q : Position} {front back : List Tree} {tree : Tree}
    (h : Consecutive p (front ++ tree :: back) q) :
    p ≤ tree.start ∧ tree.start ≤ tree.stop ∧ Consecutive tree.passed back q := by
  induction front generalizing p with
  | nil => exact h
  | cons first rest ih =>
    obtain ⟨hfirst, hstop, hback⟩ := h
    obtain ⟨hle, htree⟩ := ih hback
    exact ⟨le_trans hfirst (le_trans (Tree.start_le_passed hstop) hle), htree⟩

theorem right {p q : Position} {front back : List Tree} (h : Consecutive p (front ++ back) q) :
    Consecutive p back q := by
  induction front generalizing p with
  | nil => exact h
  | cons tree rest ih => exact (ih h.2.2).of_le (le_trans h.1 (Tree.start_le_passed h.2.1))

theorem singleton {p : Position} {tree : Tree} (hp : p ≤ tree.start) (h : tree.start ≤ tree.stop) :
    Consecutive p [tree] tree.stop :=
  ⟨hp, h, Tree.passed_le_stop h⟩

end Consecutive

namespace Stand
variable {p q r : Position} {front back : List Tree}

theorem right (h : Stand p (front ++ back) q) : Stand p back q where
  order := h.order.right
  each tree htree := h.each tree (List.mem_append_right front htree)

theorem nil (h : p ≤ q) : Stand p [] q := ⟨h, fun _ hmem => absurd hmem List.not_mem_nil⟩

theorem append (h : Stand p front q) (h' : Stand q back r) : Stand p (front ++ back) r where
  order := h.order.append h'.order
  each tree htree := (List.mem_append.mp htree).elim (h.each tree) (h'.each tree)

theorem behind {tree : Tree} (h : Stand p (front ++ tree :: back) q) :
    Stand tree.passed back q where
  order := h.order.behind.2.2
  each other hmem := h.each other (List.mem_append_right front (List.mem_cons_of_mem tree hmem))

theorem singleton {tree : Tree} (hp : p ≤ tree.start) (h : tree.start ≤ tree.stop)
    (hsound : tree.Sound) :
    Stand p [tree] tree.stop where
  order := .singleton hp h
  each other hmem := by
    rw [List.mem_singleton.mp hmem]
    exact hsound

end Stand

/-! ### Leaves and documentation comments -/

theorem identifierLength_pos {text : List Char} {n : Nat} (h : identifierLength text = some n) :
    0 < n ∧ text ≠ [] := by
  cases text with
  | nil => simp [identifierLength] at h
  | cons c rest =>
    simp only [identifierLength, Option.ite_none_right_eq_some, Option.some.injEq] at h
    exact ⟨by omega, List.cons_ne_nil c rest⟩

theorem wordLength_pos {text : List Char} {n : Nat} (h : wordLength text = some n) :
    0 < n ∧ text ≠ [] := by
  simp only [wordLength, Option.ite_none_left_eq_some] at h
  have hany := h.2
  unfold anyWordLength at hany
  split at hany
  · simp only [Option.bind_eq_bind, Option.bind_eq_some_iff, Option.ite_none_left_eq_some,
      Option.some.injEq] at hany
    obtain ⟨m, _, _, rfl⟩ := hany
    exact ⟨by omega, List.cons_ne_nil _ _⟩
  · exact identifierLength_pos hany

/-- A leaf stands where it is put, and a word has characters. -/
theorem leaf?_sound {text : List Char} {n : Nat} {tree : Span → Tree}
    (h : leaf? text = some (n, tree)) (span : Span) :
    (tree span).span = span ∧ (tree span).Sound := by
  unfold leaf? at h
  split at h
  · cases h
    exact ⟨rfl, .literal⟩
  · split at h
    · cases h
      exact ⟨rfl, .mark⟩
    · split at h
      · next m hword =>
        cases h
        refine ⟨rfl, .word ?_⟩
        obtain ⟨hpos, hne⟩ := wordLength_pos hword
        rw [ne_eq, ← String.toList_inj, String.toList_ofList]
        simp [List.take_eq_nil_iff, hne, Nat.ne_of_gt hpos]
      · simp only [Option.ite_none_right_eq_some, Option.some.injEq] at h
        cases h.2
        exact ⟨rfl, .literal⟩

/-- The trees of a documentation comment stand where the comment stands. -/
theorem DocComment.stand_trees (comment : DocComment) (span : Span) {p : Position}
    (hp : p ≤ span.start) (h : span.start ≤ span.stop) :
    Stand p (comment.trees span) span.stop := by
  have hgroup : (Tree.group .bracket [.word "doc" span, .mark '=' false span,
      .literal (Text.literal comment.content) span] span).Sound := .group (by simp) (by simp)
  unfold trees
  cases comment.inner with
  | false =>
    refine ⟨⟨hp, h, le_refl _, h, le_refl _⟩, ?_⟩
    simpa using ⟨.mark, hgroup⟩
  | true =>
    refine ⟨⟨hp, h, le_refl _, h, le_refl _, h, le_refl _⟩, ?_⟩
    simpa using ⟨.mark, .mark, hgroup⟩

/-! ### The scanner -/

/-- What is read up to a place: the trees of the innermost open group, and before each of the
open groups the trees in front of it. -/
def Read (place : Position) : List Frame → List Tree → Prop
  | [], trees => Stand .start trees.reverse place
  | frame :: stack, trees =>
    Stand (frame.start.next frame.delimiter.opener) trees.reverse place ∧
      Read frame.start stack frame.before

/-- The scanner goes on over trees that stand behind the place. -/
theorem Read.append {place stop : Position} {stack : List Frame} {trees more : List Tree}
    (h : Read place stack trees) (hmore : Stand place more stop) :
    Read stop stack (more.reverse ++ trees) := by
  cases stack with
  | nil =>
    show Stand .start _ stop
    rw [List.reverse_append, List.reverse_reverse]
    exact Stand.append h hmore
  | cons frame stack =>
    refine ⟨?_, h.2⟩
    rw [List.reverse_append, List.reverse_reverse]
    exact Stand.append h.1 hmore

theorem Read.open {place start : Position} {stack : List Frame} {trees : List Tree} {c : Char}
    {delimiter : Delimiter} (h : Read place stack trees) (hstart : place ≤ start)
    (hc : Delimiter.ofOpener? c = some delimiter) :
    Read (start.next c) (⟨delimiter, start, trees⟩ :: stack) [] := by
  have hopener : delimiter.opener = c := by simpa using List.find?_some hc
  refine ⟨.nil ?_, ?_⟩
  · rw [hopener]
  · simpa using h.append (.nil hstart)

theorem Read.close {place stop : Position} {closer : Delimiter} {stack stack' : List Frame}
    {trees trees' : List Tree} (h : Read place stack trees) (hstop : place ≤ stop)
    (hclose : closeGroup closer stop trees stack = some (stack', trees')) :
    Read stop stack' trees' := by
  cases stack with
  | nil => simp [closeGroup] at hclose
  | cons frame stack =>
    simp only [closeGroup, Option.ite_none_right_eq_some, Option.some.injEq,
      Prod.mk.injEq] at hclose
    obtain ⟨rfl, rfl, rfl⟩ := hclose
    have hinner := h.1.append (.nil hstop)
    rw [List.append_nil] at hinner
    have hle : frame.start ≤ stop := le_trans (Position.le_next _ _) hinner.order.le
    have hgroup : Stand frame.start [.group frame.delimiter trees.reverse ⟨frame.start, stop⟩]
        stop :=
      .singleton (le_refl _) hle (.group (fun _ => hinner.order) fun _ => hinner.each)
    exact h.2.append hgroup

theorem scanFrom_stand {text : List Char} {place : Position} {stack : List Frame}
    {trees result : List Tree} (h : Read place stack trees)
    (hok : scanFrom text place stack trees = .ok result) :
    ∃ stop, Stand .start result stop := by
  fun_induction scanFrom text place stack trees with
  | case1 => cases hok
  | case2 text place =>
    cases hok
    exact ⟨place, h⟩
  | case3 text place stack trees gap start c tail _ comment _ stop ih =>
    have hcomment := comment.stand_trees ⟨start, stop⟩ (place.le_after (text.take gap))
      (start.le_after _)
    exact ih (h.append hcomment) hok
  | case4 text place stack trees gap start c tail _ _ opener delimiter hopener ih =>
    have hc : Delimiter.ofOpener? c = some delimiter := by
      simp only [opener] at hopener
      split at hopener
      · cases hopener
      · exact hopener
    exact ih (h.open (place.le_after _) hc) hok
  | case5 text place stack trees gap start c tail _ _ opener closer _ _ stack' trees' hclose ih =>
    exact ih (h.close (le_trans (place.le_after _) (start.le_next c)) hclose) hok
  | case6 => cases hok
  | case7 text place stack trees gap start c tail _ _ opener _ _ n tree hleaf stop ih =>
    obtain ⟨hspan, hsound⟩ := leaf?_sound hleaf ⟨start, stop⟩
    have htree : Stand place [tree ⟨start, stop⟩] (tree ⟨start, stop⟩).stop := by
      refine .singleton ?_ ?_ hsound
      · rw [Tree.start, hspan]
        exact place.le_after _
      · rw [Tree.start, Tree.stop, hspan]
        exact start.le_after _
    rw [Tree.stop, hspan] at htree
    exact ih (h.append htree) hok
  | case8 => cases hok

/-- The trees of a text stand one behind the other. -/
theorem scan_stand {text : List Char} {trees : List Tree} (h : scan text = .ok trees) :
    ∃ stop, Stand .start trees stop := by
  unfold scan at h
  split at h
  · next c rest =>
    have hstart (place : Position) (hplace : .start ≤ place) : Read place [] [] := .nil hplace
    split at h
    · exact scanFrom_stand (hstart _ (Position.start.le_next c)) h
    · exact scanFrom_stand (hstart _ (le_refl _)) h
  · cases h
    exact ⟨.start, .nil (le_refl _)⟩

end CalleeFirst.Lexeme
