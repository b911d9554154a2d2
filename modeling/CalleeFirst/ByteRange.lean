/-! Half-open ranges of byte offsets. -/
namespace CalleeFirst

structure ByteRange where
  start : Nat
  stop : Nat
  deriving Repr, DecidableEq

namespace ByteRange

/-- Zero for a reversed range. -/
def length (r : ByteRange) : Nat := r.stop - r.start

def has (r : ByteRange) (offset : Nat) : Bool := r.start ≤ offset && offset < r.stop

def text (r : ByteRange) : String := s!"{r.start}..{r.stop}"

/-- The range moved forward. -/
def shifted (r : ByteRange) (bytes : Nat) : ByteRange :=
  ⟨r.start + bytes, r.stop + bytes⟩

end ByteRange

end CalleeFirst
