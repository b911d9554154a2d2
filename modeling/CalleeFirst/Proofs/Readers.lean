import CalleeFirst.Grammar.Source

/-! What readers make.

Readers only take trees from the front of what is left, so that a property of the trees ahead
which does not care what was taken before (`Kept`) holds as long as anything is read.
`Reader.Makes` says what a reader makes of such trees: a statement about the values of a
reader that is put together as the reader is. -/
namespace CalleeFirst.Grammar

open Lexeme (Delimiter Position Span Tree)
open Reader

/-! ### Runs -/

theorem Reader.of_run_bind {r : Reader α} {f : α → Reader β} {s u : Stream} {b : β}
    (h : (r >>= f).run s = .ok (b, u)) : ∃ a t, r.run s = .ok (a, t) ∧
      (f a).run t = .ok (b, u) := by
  dsimp only [Bind.bind] at h
  cases hr : r.run s with
  | error place =>
    rw [hr] at h
    cases h
  | ok result =>
    rw [hr] at h
    exact ⟨result.1, result.2, rfl, h⟩

theorem Reader.of_run_anyTree {s t : Stream} {tree : Tree} (h : anyTree.run s = .ok (tree, t)) :
    s.rest = tree :: t.rest ∧ t.last = some tree := by
  unfold anyTree at h
  dsimp only at h
  split at h
  · next hrest =>
    cases h
    exact ⟨hrest, rfl⟩
  · cases h

theorem Reader.of_run_treeIf {question : Look} {s t : Stream} {tree : Tree}
    (h : (treeIf question).run s = .ok (tree, t)) :
    question s.rest = true ∧ s.rest = tree :: t.rest ∧ t.last = some tree := by
  obtain ⟨answer, s', hlook, htree⟩ := of_run_bind h
  cases hlook
  split at htree
  · next hyes => exact ⟨hyes, of_run_anyTree htree⟩
  · obtain ⟨_, _, _, hfail⟩ := of_run_bind htree
    cases hfail

/-- A group is read by what reads the trees inside of it. -/
theorem Reader.of_run_inGroup {delimiter : Delimiter} {r : Reader α} {s t : Stream}
    {found : α × Span} (h : (inGroup delimiter r).run s = .ok (found, t)) : ∃ inner s' t',
      s.rest = .group delimiter inner found.2 :: t.rest ∧
        t.last = some (.group delimiter inner found.2) ∧
      s'.rest = inner ∧ r.run s' = .ok (found.1, t') := by
  unfold inGroup at h
  dsimp only at h
  split at h
  · next d inner span rest hrest =>
    split at h
    · next hd =>
      subst hd
      split at h
      · next value t' hinner =>
        cases h
        exact ⟨inner, _, t', hrest, rfl, rfl, hinner⟩
      · cases h
    · cases h
  · cases h

theorem of_readAll {r : Reader α} {trees : List Tree} {a : α} (h : readAll r trees = .ok a) :
    ∃ s, r.run { rest := trees, stop := .start } = .ok (a, s) := by
  unfold readAll at h
  cases hrun : r.run { rest := trees, stop := .start } with
  | error place =>
    rw [hrun] at h
    cases h
  | ok result =>
    rw [hrun] at h
    obtain ⟨value, ⟨_ | ⟨tree, rest⟩, stop, last, _ | place⟩⟩ := result
    · cases h
      exact ⟨_, rfl⟩
    all_goals cases h

/-! ### Values -/

/-- A property of the trees ahead that taking some of them keeps. -/
structure Kept where
  Holds : List Tree → Prop
  behind : ∀ {taken rest : List Tree}, Holds (taken ++ rest) → Holds rest

theorem Stream.LeadsTo.kept {s t : Stream} (h : s.LeadsTo t) {k : Kept} (hs : k.Holds s.rest) :
    k.Holds t.rest := by
  obtain ⟨taken, hrest, _⟩ := h
  rw [hrest] at hs
  exact k.behind hs

/-- What a reader makes of such trees satisfies `P`. -/
structure Reader.Makes (k : Kept) (r : Reader α) (P : α → Prop) : Prop where
  of_run : ∀ {s t a}, k.Holds s.rest → r.run s = .ok (a, t) → P a

namespace Reader.Makes
variable {k : Kept} {P : α → Prop} {Q : β → Prop}

theorem pure {a : α} (h : P a) : (Pure.pure a : Reader α).Makes k P where
  of_run _ hrun := by
    cases hrun
    exact h

theorem bind {r : Reader α} {f : α → Reader β} (hr : r.Makes k P)
    (hf : ∀ a, P a → (f a).Makes k Q) :
    (r >>= f).Makes k Q where
  of_run hs hrun := by
    obtain ⟨a, t, hfirst, hsecond⟩ := of_run_bind hrun
    exact (hf a (hr.of_run hs hfirst)).of_run ((r.leads hfirst).kept hs) hsecond

/-- Whatever was read before. -/
theorem skip {r : Reader α} {f : α → Reader β} (hf : ∀ a, (f a).Makes k Q) : (r >>= f).Makes k Q :=
  bind ⟨fun _ _ => trivial⟩ fun a (_ : True) => hf a

theorem ite {c : Prop} [Decidable c] {r r' : Reader α} (hr : r.Makes k P) (hr' : r'.Makes k P) :
    (if c then r else r').Makes k P := by
  split
  · exact hr
  · exact hr'

theorem failAt (place : Position) : (Reader.failAt place : Reader α).Makes k P where
  of_run _ hrun := by cases hrun

theorem failHere : (Reader.failHere : Reader α).Makes k P := skip fun place => failAt place

theorem failBefore (trees : List Tree) : (Grammar.failBefore trees : Reader α).Makes k P := by
  unfold Grammar.failBefore
  split
  · exact failAt _
  · exact skip fun s => failAt _

end Reader.Makes

/-! ### Repetition -/

/-- One reading after the other. -/
inductive Repeats (r : Reader α) : Stream → List α → Prop where
  | done {s : Stream} : Repeats r s []
  | more {s t : Stream} {a : α} {found : List α} (first : r.run s = .ok (a, t))
      (rest : Repeats r t found) :
      Repeats r s (a :: found)

theorem repeats_of_untilEnd {r : Reader α} {s t : Stream} {found : List α}
    (h : (Reader.untilEnd r).run s = .ok (found, t)) : Repeats r s found := by
  obtain ⟨_, _, hstream, hloop⟩ := of_run_bind h
  cases hstream
  clear h
  generalize s.rest.length + 1 = bound at hloop
  induction bound generalizing s found with
  | zero =>
    cases hloop
    exact .done
  | succ bound ih =>
    obtain ⟨round, s', hround, hloop⟩ := of_run_bind hloop
    obtain ⟨_, _, hlook, hround⟩ := of_run_bind hround
    cases hlook
    split at hround
    · cases hround
      cases hloop
      exact .done
    · obtain ⟨a, _, ha, hround⟩ := of_run_bind hround
      cases hround
      obtain ⟨others, _, hothers, hloop⟩ := of_run_bind hloop
      cases hloop
      exact .more ha (ih hothers)

theorem Repeats.forall_mem {k : Kept} {r : Reader α} {P : α → Prop} (hr : r.Makes k P) {s : Stream}
    {found : List α} (h : Repeats r s found) (hs : k.Holds s.rest) : ∀ a ∈ found, P a := by
  induction h with
  | done => exact fun _ hmem => absurd hmem List.not_mem_nil
  | more first _ ih =>
    exact List.forall_mem_cons.mpr ⟨hr.of_run hs first, ih ((r.leads first).kept hs)⟩

end CalleeFirst.Grammar
