import CalleeFirst.Host
import CalleeFirst.Proofs.Ordering
import CalleeFirst.Proofs.Remapping

/-! What a host is asked to apply.

A run prepares an outcome and then has it applied (`run_eq`). To see what is applied the host
is given a record (`recorded`), which changes nothing else. What a run is prepared to apply
follows from the four stages in front of it, the first of which to fail gives its fault
(`prepared_cases`).

`Behaves` says what the host sees of a run. `observeRuns_behave`: so behave all runs of any number
in a row, whatever the host remembers, answers and does in between. -/
namespace CalleeFirst

open Remap (Accepted Apart laidOut)

/-! ### Ranges that fit -/

/-- There is a range for each of `n` members, and they are apart. -/
structure Fitting (n : Nat) (ranges : List ByteRange) : Prop where
  count : ranges.length = n
  apart : Apart ranges

theorem fitting_iff {n : Nat} {ranges : List ByteRange} {order : List Nat}
    (horder : order.Perm (List.range n)) :
    Fitting n ranges ↔ Accepted ranges order := by
  constructor
  · intro h
    rw [← h.count] at horder
    exact ⟨horder, Remap.inLine_slotsOf_iff.mpr h.apart⟩
  · intro h
    have hcount := (h.1.symm.trans horder).length_eq
    rw [List.length_range, List.length_range] at hcount
    exact ⟨hcount, Remap.inLine_slotsOf_iff.mp h.2⟩

namespace Host

theorem fit_cases {n : Nat} {order : List Nat} (horder : order.Perm (List.range n))
    (ranges : Option (List ByteRange)) :
    ((∀ given ∈ ranges, Fitting n given) ∧ ∃ outcome, fit order ranges = .ok outcome) ∨
    ∃ given ∈ ranges, ¬ Fitting n given ∧ ∃ defect, Remap.ofPermutation given order =
      .error defect ∧
      fit order ranges = .error (.invalid defect) := by
  cases ranges with
  | none => exact .inl ⟨fun given hgiven => absurd hgiven (by simp), _, rfl⟩
  | some ranges =>
    rw [fit]
    cases hremap : Remap.ofPermutation ranges order with
    | ok remap =>
      have haccepted := (Remap.ofPermutation_eq_ok_iff.mp hremap).1
      refine .inl ⟨fun given hgiven => ?_, _, rfl⟩
      obtain rfl := Option.some.inj hgiven
      exact (fitting_iff horder).mpr haccepted
    | error defect =>
      refine .inr ⟨ranges, rfl, fun hfitting => ?_, defect, hremap, rfl⟩
      have hok := Remap.ofPermutation_eq_ok_iff.mpr ⟨(fitting_iff horder).mp hfitting, rfl⟩
      rw [hremap] at hok
      cases hok

theorem permutation_of_fit {order : List Nat} {ranges : Option (List ByteRange)} {outcome : Outcome}
    (h : fit order ranges = .ok outcome) : outcome.permutation = order := by
  cases ranges with
  | none =>
    cases h
    rfl
  | some ranges =>
    rw [fit] at h
    split at h
    · cases h
      rfl
    · cases h

variable {σ : Type}

/-! ### The outcome of a run -/

/-- What a run is about to apply, and the polls made for it. -/
def prepared (host : Host σ) (memory : σ) (polls : Nat) : Except Fault Outcome × Nat :=
  match host.declarations memory with
  | .error fault => (.error fault, polls)
  | .ok batch =>
    match (computeOrder host.probe host.settings batch).outcome polls with
    | (.error fault, polls) => (.error fault, polls)
    | (.ok permutation, polls) => (fit permutation (host.ranges memory), polls)

theorem run_eq (host : Host σ) (memory : σ) (polls : Nat) :
    host.run memory polls =
      match host.prepared memory polls with
      | (.error fault, polls) => (.error fault, memory, polls)
      | (.ok outcome, polls) =>
        ((host.apply memory outcome).1.map fun _ =>
          outcome, (host.apply memory outcome).2, polls) := by
  rw [run, prepared]
  cases host.declarations memory with
  | error fault => rfl
  | ok batch =>
    dsimp only
    rcases (computeOrder host.probe host.settings batch).outcome polls with ⟨_ | permutation, after⟩
    · rfl
    · dsimp only
      cases fit permutation (host.ranges memory) with
      | error fault => rfl
      | ok outcome =>
        dsimp only
        rcases host.apply memory outcome with ⟨_ | _, _⟩ <;> rfl

/-- The host with a record of what it was given to apply. -/
def recorded (host : Host σ) : Host (σ × List Outcome) where
  declarations memory := host.declarations memory.1
  settings := host.settings
  ranges memory := host.ranges memory.1
  probe := host.probe
  apply memory outcome :=
    ((host.apply memory.1 outcome).1, (host.apply memory.1 outcome).2, memory.2 ++ [outcome])

/-! ### What is seen of a run -/

/-- One run of a host: what the host remembers and the polls before and after it, what it was
given to apply, and the result. -/
structure Run (σ : Type) where
  memory : σ
  polls : Nat
  applied : List Outcome
  result : Except Fault Outcome
  after : σ
  pollsAfter : Nat

/-- No poll of a run finds it cancelled. -/
def Run.Quiet (run : Run σ) (probe : Probe) : Prop :=
  ∀ poll, run.polls ≤ poll → poll < run.pollsAfter → probe poll = false

/-- A run with its record. -/
def observe (host : Host σ) (memory : σ) (polls : Nat) : Run σ :=
  let (result, (after, applied), pollsAfter) := host.recorded.run (memory, []) polls
  { memory, polls, applied, result, after, pollsAfter }

/-- All that must go well before a run applies anything. -/
structure Ready (host : Host σ) (run : Run σ) (batch : List Declaration) : Prop where
  declared : host.declarations run.memory = .ok batch
  valid : Batch.Valid batch
  quiet : run.Quiet host.probe
  fitting : ∀ ranges ∈ host.ranges run.memory, Fitting batch.length ranges

/-- The fault of the first stage that fails. -/
inductive FirstFault (host : Host σ) (run : Run σ) : Fault → Prop where
  | undeclared {fault : Fault} (failed : host.declarations run.memory = .error fault) :
      FirstFault host run fault
  | invalid {batch : List Declaration} {defect : Defect}
      (declared : host.declarations run.memory = .ok batch)
      (failed : Batch.check batch = .error defect) : FirstFault host run (.invalid defect)
  | cancelled {batch : List Declaration} (declared : host.declarations run.memory = .ok batch)
      (valid : Batch.Valid batch) (failed : ¬ run.Quiet host.probe) : FirstFault host run .cancelled
  | unfit {batch : List Declaration} {ranges : List ByteRange} {defect : Defect}
      (declared : host.declarations run.memory = .ok batch) (valid : Batch.Valid batch)
      (quiet : run.Quiet host.probe) (given : host.ranges run.memory = some ranges)
      (unfit : ¬ Fitting batch.length ranges)
      (failed : Remap.ofPermutation ranges (ordering host.settings batch) = .error defect) :
      FirstFault host run (.invalid defect)

theorem FirstFault.not_ready {host : Host σ} {run : Run σ} {fault : Fault}
    (h : host.FirstFault run fault) (batch : List Declaration) : ¬ host.Ready run batch := by
  intro hready
  cases h with
  | undeclared failed =>
    rw [hready.declared] at failed
    cases failed
  | invalid declared failed =>
    rw [hready.declared] at declared
    cases declared
    rw [(Batch.check_eq_ok_iff batch).mpr hready.valid] at failed
    cases failed
  | cancelled _ _ failed => exact failed hready.quiet
  | unfit declared _ _ given unfit _ =>
    rw [hready.declared] at declared
    cases declared
    exact unfit (hready.fitting _ given)

/-- Either a stage fails, or the outcome is the order of the batch. -/
theorem prepared_cases (host : Host σ) {run : Run σ}
    (hafter : (host.prepared run.memory run.polls).2 = run.pollsAfter) :
    (∃ fault, (host.prepared run.memory run.polls).1 = .error fault ∧ host.FirstFault run fault) ∨
    ∃ outcome batch, (host.prepared run.memory run.polls).1 = .ok outcome ∧ host.Ready run batch ∧
      fit (ordering host.settings batch) (host.ranges run.memory) = .ok outcome := by
  rw [prepared] at hafter ⊢
  cases hdeclared : host.declarations run.memory with
  | error fault => exact .inl ⟨fault, rfl, .undeclared hdeclared⟩
  | ok batch =>
    rw [hdeclared] at hafter
    dsimp only at hafter ⊢
    cases hcheck : Batch.check batch with
    | error defect =>
      rw [computeOrder, orderGroups_of_error _ batch _ hcheck]
      exact .inl ⟨_, rfl, .invalid hdeclared hcheck⟩
    | ok =>
      have hv := (Batch.check_eq_ok_iff batch).mp hcheck
      rw [computeOrder_eq _ _ hv] at hafter ⊢
      rcases Polling.outcome_polled_cases host.probe (Batch.pollCount batch)
        (ordering host.settings batch)
        run.polls with ⟨hquiet, hrun⟩ | ⟨k, hk, hcancelled, hrun⟩
      · rw [hrun] at hafter ⊢
        have hquiet : run.Quiet host.probe := by
          intro poll hfrom hto
          have hpoll := hquiet (poll - run.polls) (by dsimp only at hafter; omega)
          rwa [Nat.add_sub_cancel' hfrom] at hpoll
        rcases fit_cases (ordering_perm host.settings hv) (host.ranges run.memory) with
          ⟨hfitting, outcome, hfit⟩ | ⟨ranges, hranges, hunfit, defect, hdefect, hfit⟩
        · exact .inr ⟨outcome, batch, hfit, ⟨hdeclared, hv, hquiet, hfitting⟩, hfit⟩
        · exact .inl ⟨_, hfit, .unfit hdeclared hv hquiet hranges hunfit hdefect⟩
      · rw [hrun] at hafter ⊢
        refine .inl ⟨_, rfl, .cancelled hdeclared hv fun hquiet => ?_⟩
        have hpoll := hquiet (run.polls + k) (Nat.le_add_right ..) (by dsimp only at hafter; omega)
        rw [hcancelled] at hpoll
        cases hpoll

/-- What a host sees of a run. -/
structure Behaves (host : Host σ) (run : Run σ) : Prop where
  /-- The record changes nothing. -/
  runs : host.run run.memory run.polls = (run.result, run.after, run.pollsAfter)
  once : run.applied.length ≤ 1
  applies : run.applied ≠ [] ↔ ∃ batch, host.Ready run batch
  given : ∀ outcome ∈ run.applied, ∀ batch, host.declarations run.memory = .ok batch →
    ((computeOrder Probe.never host.settings batch).outcome 0).1 = .ok outcome.permutation ∧
      fit outcome.permutation (host.ranges run.memory) = .ok outcome
  passes : ∀ outcome ∈ run.applied, run.result =
    (host.apply run.memory outcome).1.map fun _ => outcome
  fails : run.applied = [] → run.after = run.memory ∧ ∃ fault, run.result = .error fault ∧
    host.FirstFault run fault
  returns : ∀ outcome, run.result = .ok outcome →
    outcome ∈ run.applied ∧ host.apply run.memory outcome = (.ok (), run.after)

section
variable {host : Host σ} {run : Run σ}

theorem Behaves.of_fault {fault : Fault}
    (hprepared : host.prepared run.memory run.polls = (.error fault, run.pollsAfter))
    (happlied : run.applied = []) (hresult : run.result = .error fault)
    (hafter : run.after = run.memory) :
    host.Behaves run := by
  have hfault : host.FirstFault run fault := by
    rcases host.prepared_cases (congrArg Prod.snd hprepared) with ⟨fault', hfault', hfirst⟩ |
      ⟨outcome, _, hok, _⟩
    · rw [hprepared] at hfault'
      cases hfault'
      exact hfirst
    · rw [hprepared] at hok
      cases hok
  have hnone : ∀ outcome ∈ run.applied, False := by simp [happlied]
  exact {
    runs := by rw [run_eq, hprepared, hresult, hafter]
    once := by simp [happlied]
    applies := ⟨fun h => absurd happlied h,
      fun ⟨batch, hready⟩ => absurd hready (hfault.not_ready batch)⟩
    given := fun outcome houtcome => (hnone outcome houtcome).elim
    passes := fun outcome houtcome => (hnone outcome houtcome).elim
    fails := fun _ => ⟨hafter, fault, hresult, hfault⟩
    returns := fun outcome houtcome => by
      rw [hresult] at houtcome
      cases houtcome }

theorem Behaves.of_outcome {outcome : Outcome}
    (hprepared : host.prepared run.memory run.polls = (.ok outcome, run.pollsAfter))
    (happlied : run.applied = [outcome])
    (hresult : run.result = (host.apply run.memory outcome).1.map fun _ => outcome)
    (hafter : run.after = (host.apply run.memory outcome).2) : host.Behaves run := by
  obtain ⟨batch, hready, hfit⟩ : ∃ batch, host.Ready run batch ∧
      fit (ordering host.settings batch) (host.ranges run.memory) = .ok outcome := by
    rcases host.prepared_cases (congrArg Prod.snd hprepared) with ⟨_, hfault, _⟩ |
      ⟨_, batch, hok, hready, hfit⟩
    · rw [hprepared] at hfault
      cases hfault
    · rw [hprepared] at hok
      cases hok
      exact ⟨batch, hready, hfit⟩
  have hpermutation := permutation_of_fit hfit
  exact {
    runs := by rw [run_eq, hprepared, hresult, hafter]
    once := by simp [happlied]
    applies := ⟨fun _ => ⟨batch, hready⟩, fun _ => by simp [happlied]⟩
    given := by
      rw [happlied]
      intro o ho other hother
      obtain rfl := List.mem_singleton.mp ho
      rw [hready.declared] at hother
      cases hother
      rw [hpermutation]
      exact ⟨(outcome_computeOrder_iff ..).mpr ⟨hready.valid, rfl⟩, hfit⟩
    passes := by
      rw [happlied]
      intro o ho
      obtain rfl := List.mem_singleton.mp ho
      exact hresult
    fails := fun hnone => by
      rw [happlied] at hnone
      cases hnone
    returns := fun o ho => by
      rw [hresult] at ho
      rcases happly : host.apply run.memory outcome with ⟨_ | accepted, after⟩
      · rw [happly] at ho
        cases ho
      · rw [happly] at ho hafter
        cases ho
        exact ⟨by simp [happlied], by rw [happly, hafter]⟩ }

end

theorem observe_behaves (host : Host σ) (memory : σ) (polls : Nat) :
    host.Behaves (host.observe memory polls) := by
  have hrecorded : host.recorded.prepared (memory, []) polls = host.prepared memory polls := rfl
  rw [observe, run_eq, hrecorded]
  rcases hprepared : host.prepared memory polls with ⟨fault | outcome, pollsAfter⟩
  · exact .of_fault hprepared rfl rfl rfl
  · exact .of_outcome hprepared rfl rfl rfl

/-! ### Runs in a row -/

/-- Runs in a row on a host whose settings and probe may depend on what it remembers. -/
def observeRuns (host : σ → Host σ) : (count : Nat) → (memory : σ) → (polls : Nat) → List (Run σ)
  | 0, _, _ => []
  | count + 1, memory, polls =>
    let run := (host memory).observe memory polls
    run :: observeRuns host count run.after run.pollsAfter

/-- **Hosts see every run alike.** However many there were before it, a run applies one outcome if
all went well, and nothing otherwise. -/
theorem observeRuns_behave (host : σ → Host σ) (count : Nat) (memory : σ) (polls : Nat) :
    (observeRuns host count memory polls).length = count ∧
      ∀ run ∈ observeRuns host count memory polls, (host run.memory).Behaves run := by
  induction count generalizing memory polls with
  | zero => exact ⟨rfl, fun run hrun => absurd hrun List.not_mem_nil⟩
  | succ count ih =>
    obtain ⟨hcount, hrest⟩ := ih ((host memory).observe memory polls).after
      ((host memory).observe memory polls).pollsAfter
    refine ⟨congrArg Nat.succ hcount, List.forall_mem_cons.mpr ⟨?_, hrest⟩⟩
    exact observe_behaves (host memory) memory polls

/-- A host that counts what it has applied. Its ranges touch each other and are in no order. -/
def sample : Host Nat where
  declarations _ := .ok Batch.sample
  settings := {}
  ranges _ := some [⟨8, 9⟩, ⟨0, 3⟩, ⟨3, 3⟩, ⟨3, 5⟩, ⟨10, 12⟩]
  probe := Probe.never
  apply memory _ := (.ok (), memory + 1)

theorem observeRuns_behave_sample :
    ∃ run ∈ observeRuns (fun _ => sample) 2 0 0, sample.Ready run Batch.sample ∧ run.applied ≠ [] ∧
      sample.Behaves run := by
  have hbehaves := (observeRuns_behave (fun _ => sample) 2 0 0).2 (sample.observe 0 0)
    List.mem_cons_self
  have hready : sample.Ready (sample.observe 0 0) Batch.sample := by
    refine ⟨rfl, Batch.valid_sample, fun _ _ _ => rfl, fun ranges hranges => ?_⟩
    cases hranges
    exact ⟨rfl, by decide, by decide⟩
  exact ⟨_, List.mem_cons_self, hready, hbehaves.applies.mpr ⟨_, hready⟩, hbehaves⟩

end Host

end CalleeFirst
