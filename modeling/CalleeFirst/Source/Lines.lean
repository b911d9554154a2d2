import CalleeFirst.Lexeme.Position
import CalleeFirst.Text.Blank
import CalleeFirst.Text.Slice

/-! The lines of a text.

A line ends before its line feed, and carriage returns at its end do not count. The
index gives the byte offset of a position; a column behind the end of its line stands
for the end, and a line behind the last for the end of the text. -/
namespace CalleeFirst.Source

open Lexeme (Position)
open Text (byteLength)

structure Line where
  /-- The byte offset of the first character. -/
  start : Nat
  /-- Without the carriage returns at the end. -/
  text : List Char
  deriving Inhabited

/-- The text without carriage returns at its end. -/
def dropReturns (text : List Char) : List Char :=
  (text.reverse.dropWhile (· == '\r')).reverse

/-- The lines of a text that starts at a byte offset; `before` is the part of the first
line that was passed already, last character first. -/
def linesFrom (start : Nat) (before : List Char) : List Char → List Line
  | [] => [⟨start, dropReturns before.reverse⟩]
  | c :: rest =>
    if c = '\n' then
      ⟨start, dropReturns before.reverse⟩ :: linesFrom (start + byteLength before + 1) [] rest
    else linesFrom start (c :: before) rest

structure Lines where
  lines : Array Line
  size : Nat

namespace Lines

def ofText (text : List Char) : Lines := ⟨(linesFrom 0 [] text).toArray, byteLength text⟩

/-- A line by its number, counted from one. -/
def line? (index : Lines) (number : Nat) : Option Line := index.lines[number - 1]?

/-- The text of a line; empty behind the last. -/
def text (index : Lines) (number : Nat) : List Char := ((index.line? number).map Line.text).getD []

/-- The byte offset of a position. -/
def offset (index : Lines) (place : Position) : Nat :=
  match index.line? place.line with
  | some line => line.start + byteLength (line.text.take place.column)
  | none => index.size

/-- The byte offset of the first character of a line that is not blank, or of its end. -/
def firstVisible (index : Lines) (number : Nat) : Nat :=
  match index.line? number with
  | some line => line.start + byteLength (line.text.takeWhile Text.isBlank)
  | none => index.size

end Lines

end CalleeFirst.Source
