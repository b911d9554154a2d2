import CalleeFirst.Grammar.Source
import CalleeFirst.Lexeme.Scan

/-! Source texts as they come.

A text may start with a byte order mark and with a line that tells the system how to
run it. Neither is source; the line is cut off before its line feed, so that line
numbers stay what they are. -/
namespace CalleeFirst.Source

open Lexeme (Position Tree)

/-- The text without a byte order mark at its start. -/
def withoutMark : List Char → List Char
  | [] => []
  | c :: rest => if c = Lexeme.byteOrderMark then rest else c :: rest

/-- The text without a first line that starts like an attribute and is none. -/
def withoutRunLine (text : List Char) : List Char :=
  match text with
  | '#' :: '!' :: rest =>
    if (rest.drop (Lexeme.gapLength rest)).head? = some '[' then text
    else text.dropWhile (· != '\n')
  | _ => text

def trees (text : List Char) : Except Position (List Tree) :=
  Lexeme.scan (withoutRunLine (withoutMark text))

end CalleeFirst.Source
