import CalleeFirst.Source.Text

/-! Lines that tell the system how to run a text.

Such a line starts with the signs of an attribute of the whole text, but no bracket follows. It is
taken off before the text is read. Where it is not, the scanner makes marks of the signs, and what
comes next is no group in brackets (`bracket_scanFrom`), so that the attribute is refused
(`blocks_of_runLine`).

A byte order mark that is not taken off is no token (`scanFrom_mark`). -/
namespace CalleeFirst

open Lexeme (Position Span Tree)

/-! ### What is scanned first -/

namespace Lexeme

/-- The trees in front of all open groups come first, and then the outermost group. -/
def Begun (stack : List Frame) (trees result : List Tree) : Prop :=
  match stack.getLast? with
  | none => trees.reverse <+: result
  | some frame => ∃ inner span,
    frame.before.reverse ++ [.group frame.delimiter inner span] <+: result

theorem Begun.of_append {stack : List Frame} (more : List Tree) {trees result : List Tree}
    (h : Begun stack (more ++ trees) result) : Begun stack trees result := by
  unfold Begun at h ⊢
  split
  · next hstack =>
    rw [hstack, List.reverse_append] at h
    exact (List.prefix_append ..).trans h
  · next frame hstack =>
    rw [hstack] at h
    exact h

theorem Begun.of_open {stack : List Frame} {trees result : List Tree} {delimiter : Delimiter}
    {start : Position} (h : Begun (⟨delimiter, start, trees⟩ :: stack) [] result) :
    Begun stack trees result := by
  cases stack with
  | nil =>
    obtain ⟨_, _, hprefix⟩ := h
    exact (List.prefix_append ..).trans hprefix
  | cons frame stack =>
    unfold Begun at h ⊢
    rwa [List.getLast?_cons_cons] at h

theorem Begun.of_close {closer : Delimiter} {stop : Position} {stack stack' : List Frame}
    {trees trees' result : List Tree}
    (hclose : closeGroup closer stop trees stack = some (stack', trees'))
    (h : Begun stack' trees' result) : Begun stack trees result := by
  cases stack with
  | nil => cases hclose
  | cons frame stack =>
    simp only [closeGroup, Option.ite_none_right_eq_some, Option.some.injEq,
      Prod.mk.injEq] at hclose
    obtain ⟨rfl, rfl, rfl⟩ := hclose
    cases stack with
    | nil => exact ⟨_, _, by simpa [Begun] using h⟩
    | cons next stack =>
      unfold Begun at h ⊢
      rwa [List.getLast?_cons_cons]

/-- What was scanned stays in front. -/
theorem scanFrom_begun {text : List Char} {place : Position} {stack : List Frame}
    {trees result : List Tree} (hok : scanFrom text place stack trees = .ok result) :
    Begun stack trees result := by
  fun_induction scanFrom text place stack trees with
  | case1 => cases hok
  | case2 =>
    cases hok
    exact List.prefix_refl _
  | case3 text place stack trees gap start c tail _ comment _ stop ih => exact (ih hok).of_append _
  | case4 text place stack trees gap start c tail _ _ opener delimiter _ ih =>
    exact (ih hok).of_open
  | case5 text place stack trees gap start c tail _ _ opener closer _ _ stack' trees' hclose ih =>
    exact (ih hok).of_close hclose
  | case6 => cases hok
  | case7 text place stack trees gap start c tail _ _ opener _ _ n tree _ stop ih =>
    exact Begun.of_append [_] (ih hok)
  | case8 => cases hok

theorem bracket_leaf {text : List Char} {n : Nat} {tree : Span → Tree}
    (h : leaf? text = some (n, tree)) (span : Span) (more : List Tree) :
    Grammar.Look.bracket (tree span :: more) = false := by
  unfold leaf? at h
  repeat' split at h
  all_goals cases h
  all_goals rfl

/-- A group in brackets comes next only if there is a bracket behind the gap. -/
theorem bracket_scanFrom {text : List Char} (hhead : (text.drop (gapLength text)).head? ≠ some '[')
    {place : Position} {trees result : List Tree}
    (hok : scanFrom text place [] trees = .ok result) :
    ∃ more, result = trees.reverse ++ more ∧ Grammar.Look.bracket more = false := by
  rw [scanFrom.eq_def] at hok
  dsimp only at hok
  split at hok
  · cases hok
    exact ⟨[], (List.append_nil _).symm, rfl⟩
  · next c tail hdrop =>
    rw [hdrop] at hhead
    split at hok
    · next comment hcomment =>
      have hbegun : _ <+: result := scanFrom_begun hok
      rw [List.reverse_append, List.reverse_reverse] at hbegun
      obtain ⟨more, rfl⟩ := hbegun
      exact ⟨_, List.append_assoc .., rfl⟩
    · split at hok
      · next delimiter hopener =>
        obtain ⟨inner, span, more, rfl⟩ := scanFrom_begun hok
        refine ⟨_, List.append_assoc .., ?_⟩
        have hne : delimiter ≠ .bracket := by
          rintro rfl
          split at hopener
          · cases hopener
          · have hopens : Delimiter.bracket.opener = c := by simpa using List.find?_some hopener
            exact hhead (congrArg some hopens.symm)
        show (delimiter == .bracket) = false
        simpa using hne
      · split at hok
        · next hclose => cases hclose
        · cases hok
      · split at hok
        · next n tree hleaf =>
          have hbegun : _ <+: result := scanFrom_begun hok
          obtain ⟨more, rfl⟩ := hbegun
          rw [List.reverse_cons, List.append_assoc]
          exact ⟨_, rfl, bracket_leaf hleaf ..⟩
        · cases hok

/-! ### Marks and signs -/

/-- The step over a character that stands in no gap, starts no comment and delimits no group. -/
theorem scanFrom_cons {c : Char} {tail : List Char} (hgap : gapLength (c :: tail) = 0)
    (hcomment : docComment? (c :: tail) = none) (hopener : Delimiter.ofOpener? c = none)
    (hcloser : Delimiter.ofCloser? c = none) (place : Position) (stack : List Frame)
    (trees : List Tree) : scanFrom (c :: tail) place stack trees =
      match leaf? (c :: tail) with
      | some (n, tree) =>
        let stop := place.after ((c :: tail).take n)
        scanFrom (tail.drop (n - 1)) stop stack (tree ⟨place, stop⟩ :: trees)
      | none => .error place := by
  rw [scanFrom.eq_def]
  dsimp only
  split
  · next hdrop =>
    rw [hgap] at hdrop
    cases hdrop
  · next hdrop =>
    rw [hgap] at hdrop ⊢
    cases hdrop
    simp only [hcomment, hopener, hcloser, ite_self]
    rfl

/-- A byte order mark is no token. -/
theorem leaf?_mark (rest : List Char) : leaf? (byteOrderMark :: rest) = none := by
  have hliteral : literalLength (byteOrderMark :: rest) = none := rfl
  have hmark : mark? (byteOrderMark :: rest) = none := rfl
  have hword : wordLength (byteOrderMark :: rest) = none := by
    have hstart : Text.isIdentifierStart byteOrderMark = false := by decide +kernel
    rw [wordLength, anyWordLength, identifierLength, hstart]
    · simp
    · intro _ h
      cases h
  simp only [leaf?, hliteral, hmark, hword]
  rfl

/-- The scanner stops at a byte order mark. -/
theorem scanFrom_mark (rest : List Char) (place : Position) (stack : List Frame)
    (trees : List Tree) : scanFrom (byteOrderMark :: rest) place stack trees = .error place := by
  rw [scanFrom_cons (by rw [gapLength]; rfl) rfl rfl rfl, leaf?_mark]

/-- The signs that an attribute of the whole text starts with. -/
theorem scanFrom_sign {c : Char} (hc : c = '#' ∨ c = '!') (tail : List Char) (place : Position)
    (stack : List Frame) (trees : List Tree) : ∃ stop, scanFrom (c :: tail) place stack trees =
      scanFrom tail stop stack (.mark c (startsMark tail) ⟨place, stop⟩ :: trees) := by
  rcases hc with rfl | rfl
  · exact ⟨_, scanFrom_cons (by rw [gapLength]; rfl) rfl rfl rfl ..⟩
  · exact ⟨_, scanFrom_cons (by rw [gapLength]; rfl) rfl rfl rfl ..⟩

end Lexeme

/-! ### Attributes without brackets -/

namespace Grammar

/-- Behind the signs of an attribute there must be its brackets. -/
theorem blocks_of_signs {more : List Tree} (h : Look.bracket more = false) (joined joined' : Bool)
    (span span' : Span) :
    ∃ place, blocks (.mark '#' joined span :: .mark '!' joined' span' :: more) = .error place := by
  have hinner (g : Rules) : ∃ place, (innerAttributes g).run
      { rest := .mark '#' joined span :: .mark '!' joined' span' :: more, stop := .start } =
        .error place := by
    rcases more with _ | ⟨_ | _ | _ | ⟨_ | _ | _, _, _⟩, _⟩
    case cons.group.bracket => cases h
    all_goals exact ⟨_, rfl⟩
  obtain ⟨place, hfails⟩ :=
    hinner (rulesFor (.mark '#' joined span :: .mark '!' joined' span' :: more))
  refine ⟨place, ?_⟩
  unfold blocks readAll
  dsimp only [Bind.bind]
  rw [hfails]
  rfl

end Grammar

namespace Source

open Lexeme (gapLength scanFrom)

theorem exists_runLine {text : List Char} (h : withoutRunLine text ≠ text) :
    ∃ rest, text = '#' :: '!' :: rest ∧ (rest.drop (gapLength rest)).head? ≠ some '[' := by
  unfold withoutRunLine at h
  split at h
  · next rest =>
    refine ⟨rest, rfl, fun hhead => h ?_⟩
    rw [if_pos hhead]
  · exact absurd rfl h

/-- A line that is to be taken off is no source. -/
theorem blocks_of_runLine {text : List Char} (h : withoutRunLine text ≠ text) {start : Position}
    {trees : List Tree} (hscan : scanFrom text start [] [] = .ok trees) :
    ∃ place, Grammar.blocks trees = .error place := by
  obtain ⟨rest, rfl, hhead⟩ := exists_runLine h
  obtain ⟨next, hhash⟩ := Lexeme.scanFrom_sign (.inl rfl) ('!' :: rest) start [] []
  obtain ⟨stop, hbang⟩ := Lexeme.scanFrom_sign (.inr rfl) rest next [] [.mark '#' _ ⟨start, next⟩]
  rw [hhash, hbang] at hscan
  obtain ⟨more, rfl, hbracket⟩ := Lexeme.bracket_scanFrom hhead hscan
  exact Grammar.blocks_of_signs hbracket ..

end Source

end CalleeFirst
