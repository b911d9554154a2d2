/-! Places in a text.

A position counts lines from one and characters of a line from zero. Only a line feed
ends a line. -/
namespace CalleeFirst.Lexeme

structure Position where
  line : Nat
  column : Nat
  deriving Repr, DecidableEq, Inhabited

namespace Position

def start : Position := ⟨1, 0⟩

/-- The position behind a character. -/
def next (p : Position) (c : Char) : Position :=
  if c = '\n' then ⟨p.line + 1, 0⟩ else ⟨p.line, p.column + 1⟩

/-- The position behind a text. -/
def after (p : Position) (text : List Char) : Position := text.foldl next p

@[simp] theorem after_nil (p : Position) : p.after [] = p := rfl

@[simp] theorem after_cons (p : Position) (c : Char) (text : List Char) :
    p.after (c :: text) = (p.next c).after text := rfl

theorem after_append (p : Position) (a b : List Char) :
    p.after (a ++ b) = (p.after a).after b := List.foldl_append

/-- How a position is shown: both numbers count from one. -/
def text (p : Position) : String := s!"{p.line}:{p.column + 1}"

end Position

/-- From `start` up to, and not including, `stop`. -/
structure Span where
  start : Position
  stop : Position
  deriving Repr, DecidableEq, Inhabited

end CalleeFirst.Lexeme
