import CalleeFirst.Fault

/-! Giving up in the middle of an ordering.

A probe is the answers it will give, by the number of the poll; the polls made so far
are the state of a computation that may be cancelled. A computation that has no probe
is one whose probe never answers "cancelled".

Tokens are handles on a flag: cloning a token gives another handle on the same flag,
and the flag, once raised, stays up. -/
namespace CalleeFirst

/-- The answers of a probe: whether poll `n` finds the ordering cancelled. -/
abbrev Probe := Nat → Bool

namespace Probe

def never : Probe := fun _ => false

/-- Cancelled from poll `n` on. -/
def fromPoll (n : Nat) : Probe := fun poll => n ≤ poll

def constant (answer : Bool) : Probe := fun _ => answer

end Probe

/-- A computation that polls: the state counts the polls, also when it fails. -/
abbrev Polling := ExceptT Fault (StateM Nat)

namespace Polling

def checkpoint (probe : Probe) : Polling Unit := do
  let poll ← get
  set (poll + 1)
  if probe poll then throw Fault.cancelled

/-- `count` checkpoints in a row. -/
def checkpoints (probe : Probe) : Nat → Polling Unit
  | 0 => pure ()
  | count + 1 => do
    checkpoint probe
    checkpoints probe count

/-- The outcome and the number of polls made when it was reached. -/
def outcome (c : Polling α) (polls : Nat) : Except Fault α × Nat := c.run.run polls

end Polling

/-- A family of tokens: the flag of every token, and which flags are up. -/
structure TokenFamily where
  flags : List Nat := []
  raised : List Bool := []
  deriving Repr, DecidableEq

namespace TokenFamily

def isCancelled (f : TokenFamily) (token : Nat) : Bool :=
  match f.flags[token]? with
  | some flag => f.raised.getD flag false
  | none => false

/-- A token with a flag of its own. -/
def fresh (f : TokenFamily) : TokenFamily :=
  { flags := f.flags ++ [f.raised.length], raised := f.raised ++ [false] }

/-- One more handle on a token's flag. -/
def clone (f : TokenFamily) (token : Nat) : TokenFamily :=
  match f.flags[token]? with
  | some flag => { f with flags := f.flags ++ [flag] }
  | none => f

def cancel (f : TokenFamily) (token : Nat) : TokenFamily :=
  match f.flags[token]? with
  | some flag => { f with raised := f.raised.set flag true }
  | none => f

/-- The state of every token. -/
def states (f : TokenFamily) : List Bool := (List.range f.flags.length).map f.isCancelled

end TokenFamily

end CalleeFirst
