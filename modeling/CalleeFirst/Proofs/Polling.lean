import CalleeFirst.Cancellation
import Mathlib.Data.Nat.Find

/-! Checkpoints in a row.

A computation whose result does not depend on the answers of the probe is a number of
checkpoints followed by that result (`polled`). Checkpoints in front of it add up
(`checkpoints_bind_polled`). It has its result if none of the answers it asks for is
"cancelled" (`outcome_polled_of_quiet`), and otherwise ends with the first of them that is
(`outcome_polled_of_cancelled`). -/
namespace CalleeFirst.Polling

/-- `count` checkpoints, and then the result. -/
def polled (probe : Probe) (count : Nat) (result : α) : Polling α := do
  checkpoints probe count
  return result

theorem polled_zero (probe : Probe) (result : α) : polled probe 0 result = pure result := by
  rw [polled, checkpoints, pure_bind]

theorem polled_succ (probe : Probe) (count : Nat) (result : α) :
    polled probe (count + 1) result = checkpoint probe >>= fun _ => polled probe count result := by
  rw [polled, checkpoints, bind_assoc]
  rfl

theorem checkpoints_bind_polled (probe : Probe) (m n : Nat) (result : α) :
    (checkpoints probe m >>= fun _ => polled probe n result) = polled probe (m + n) result := by
  induction m with
  | zero => rw [checkpoints, pure_bind, Nat.zero_add]
  | succ m ih => rw [checkpoints, bind_assoc, ih, Nat.add_right_comm, polled_succ]

theorem outcome_map (c : Polling α) (f : α → β) (polls : Nat) :
    (c >>= fun a => pure (f a)).outcome polls =
      ((c.outcome polls).1.map f, (c.outcome polls).2) := by
  simp only [outcome, ExceptT.run_bind, StateT.run_bind]
  rcases c.run.run polls with ⟨_ | _, _⟩ <;> rfl

theorem outcome_polled_map (probe : Probe) (count : Nat) (f : α → β) (result : α) (polls : Nat) :
    (polled probe count (f result)).outcome polls =
      (((polled probe count result).outcome polls).1.map
        f, ((polled probe count result).outcome polls).2) := by
  rw [← outcome_map, polled, polled, bind_assoc]
  rfl

theorem outcome_checkpoint_bind (probe : Probe) (c : Polling α) (polls : Nat) :
    (checkpoint probe >>= fun _ => c).outcome polls =
      if probe polls then (.error .cancelled, polls + 1) else c.outcome (polls + 1) := by
  have hcheck : (checkpoint probe).run.run polls =
      (if probe polls then throw Fault.cancelled else pure () : Polling Unit).run.run
        (polls + 1) := rfl
  simp only [outcome, ExceptT.run_bind, StateT.run_bind, hcheck]
  cases probe polls <;> rfl

/-- As long as no answer is "cancelled" the checkpoints return. -/
theorem outcome_polled_of_quiet {probe : Probe} {count polls : Nat} (result : α)
    (hquiet : ∀ k < count, probe (polls + k) = false) :
    (polled probe count result).outcome polls = (.ok result, polls + count) := by
  induction count generalizing polls with
  | zero => rfl
  | succ count ih =>
    have hfirst : probe polls = false := hquiet 0 (Nat.succ_pos count)
    have hrest : ∀ k < count, probe (polls + 1 + k) = false := by
      intro k hk
      rw [Nat.add_right_comm]
      exact hquiet (k + 1) (Nat.succ_lt_succ hk)
    rw [polled_succ, outcome_checkpoint_bind, hfirst, if_neg Bool.false_ne_true, ih hrest,
      Nat.add_right_comm, Nat.add_assoc]

/-- The first answer "cancelled" is the last one that is asked for. -/
theorem outcome_polled_of_cancelled {probe : Probe} {count polls k : Nat} (result : α)
    (hk : k < count) (hquiet : ∀ j < k, probe (polls + j) = false)
    (hcancelled : probe (polls + k) = true) :
    (polled probe count result).outcome polls = (.error .cancelled, polls + k + 1) := by
  induction count generalizing polls k with
  | zero => exact absurd hk (Nat.not_lt_zero k)
  | succ count ih =>
    rw [polled_succ, outcome_checkpoint_bind]
    cases k with
    | zero => exact if_pos hcancelled
    | succ k =>
      have hfirst : probe polls = false := hquiet 0 (Nat.succ_pos k)
      have hshift : ∀ j, polls + 1 + j = polls + (j + 1) := fun j => by omega
      have hrest : ∀ j < k, probe (polls + 1 + j) = false := by
        intro j hj
        rw [hshift]
        exact hquiet (j + 1) (Nat.succ_lt_succ hj)
      rw [hfirst, if_neg Bool.false_ne_true,
        ih (Nat.lt_of_succ_lt_succ hk) hrest (hshift k ▸ hcancelled), hshift]

theorem outcome_polled_cases (probe : Probe) (count : Nat) (result : α) (polls : Nat) :
    ((∀ k < count, probe (polls + k) = false) ∧
      (polled probe count result).outcome polls = (.ok result, polls + count)) ∨
    ∃ k < count, probe (polls + k) = true ∧
      (polled probe count result).outcome polls = (.error .cancelled, polls + k + 1) := by
  by_cases h : ∃ k, k < count ∧ probe (polls + k) = true
  · obtain ⟨hlt, hcancelled⟩ := Nat.find_spec h
    have hquiet : ∀ j < Nat.find h, probe (polls + j) = false := by
      intro j hj
      have hnot := Nat.find_min h hj
      rw [not_and, Bool.not_eq_true] at hnot
      exact hnot (Nat.lt_trans hj hlt)
    exact .inr ⟨Nat.find h, hlt, hcancelled,
      outcome_polled_of_cancelled result hlt hquiet hcancelled⟩
  · have hquiet : ∀ k < count, probe (polls + k) = false := by
      intro k hk
      rw [← Bool.not_eq_true]
      exact fun hcancelled => h ⟨k, hk, hcancelled⟩
    exact .inl ⟨hquiet, outcome_polled_of_quiet result hquiet⟩

theorem outcome_polled_never (count : Nat) (result : α) (polls : Nat) :
    (polled Probe.never count result).outcome polls = (.ok result, polls + count) :=
  outcome_polled_of_quiet result fun _ _ => rfl

/-- Two computations in a row: a fault of the first ends both. -/
theorem outcome_polled_add (probe : Probe) (m n polls : Nat) (first : α) (second : β) :
    (polled probe (m + n) second).outcome polls =
      match (polled probe m first).outcome polls with
      | (.error fault, polls) => (.error fault, polls)
      | (.ok _, polls) => (polled probe n second).outcome polls := by
  induction m generalizing polls with
  | zero => rw [Nat.zero_add, polled_zero]; rfl
  | succ m ih =>
    rw [Nat.add_right_comm, polled_succ, polled_succ, outcome_checkpoint_bind,
      outcome_checkpoint_bind]
    split
    · rfl
    · exact ih (polls + 1)

/-- Whatever the probe answers, there is one result to be had. -/
theorem eq_of_outcome_polled {probe : Probe} {count polls : Nat} {result value : α}
    (h : ((polled probe count result).outcome polls).1 = .ok value) : result = value := by
  rcases outcome_polled_cases probe count result polls with ⟨_, hrun⟩ | ⟨_, _, _, hrun⟩
  · rw [hrun] at h
    exact Except.ok.inj h
  · rw [hrun] at h
    cases h

/-- Nothing but the probe can stop it. -/
theorem eq_cancelled_of_outcome_polled {probe : Probe} {count polls : Nat} {result : α}
    {fault : Fault} (h : ((polled probe count result).outcome polls).1 = .error fault) :
    fault = .cancelled := by
  rcases outcome_polled_cases probe count result polls with ⟨_, hrun⟩ | ⟨_, _, _, hrun⟩
  · rw [hrun] at h
    cases h
  · rw [hrun] at h
    exact (Except.error.inj h).symm

end CalleeFirst.Polling
