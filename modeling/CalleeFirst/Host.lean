import CalleeFirst.Order
import CalleeFirst.Remap

/-! Running an ordering on behalf of a host.

A host has declarations and settings, perhaps the ranges of its members, and applies
an outcome. A run goes through four stages, and the first that fails ends it: read
the declarations, order them, fit the order to the ranges, apply. -/
namespace CalleeFirst

structure Outcome where
  permutation : List Nat
  remap : Option Remap
  deriving Repr, DecidableEq

/-- Whether any member changes its place. -/
def Outcome.isReordered (o : Outcome) : Bool :=
  o.permutation.zipIdx.any fun (member, place) => member != place

/-- `σ` is what the host remembers from one run to the next. -/
structure Host (σ : Type) where
  declarations : σ → Except Fault (List Declaration)
  settings : Settings
  ranges : σ → Option (List ByteRange)
  probe : Probe
  apply : σ → Outcome → Except Fault Unit × σ

namespace Host

variable {σ : Type}

/-- Fits an order to the ranges, if there are any. -/
def fit (permutation : List Nat) : Option (List ByteRange) → Except Fault Outcome
  | none => .ok ⟨permutation, none⟩
  | some ranges =>
    match Remap.ofPermutation ranges permutation with
    | .ok remap => .ok ⟨permutation, some remap⟩
    | .error defect => .error (.invalid defect)

/-- One run: the outcome, the host's memory and the polls afterwards. -/
def run (host : Host σ) (memory : σ) (polls : Nat) : Except Fault Outcome × σ × Nat :=
  match host.declarations memory with
  | .error fault => (.error fault, memory, polls)
  | .ok batch =>
    match (computeOrder host.probe host.settings batch).outcome polls with
    | (.error fault, polls) => (.error fault, memory, polls)
    | (.ok permutation, polls) =>
      match fit permutation (host.ranges memory) with
      | .error fault => (.error fault, memory, polls)
      | .ok outcome =>
        match host.apply memory outcome with
        | (.error fault, memory) => (.error fault, memory, polls)
        | (.ok (), memory) => (.ok outcome, memory, polls)

end Host

end CalleeFirst
