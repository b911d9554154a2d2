import CalleeFirst.Text.Printable

/-! Quoted text.

A text between double quotes, in which everything that would not show as itself is
escaped: quotes and backslashes, line breaks and tabs by a letter, what is invisible
or extends its neighbour by its code point in hexadecimal. -/
namespace CalleeFirst.Text

def hexDigits (n : Nat) : List Char := Nat.toDigits 16 n

/-- One character inside double quotes. -/
def escape (c : Char) : List Char :=
  match c with
  | '\x00' => ['\\', '0']
  | '\t' => ['\\', 't']
  | '\r' => ['\\', 'r']
  | '\n' => ['\\', 'n']
  | '\\' => ['\\', '\\']
  | '"' => ['\\', '"']
  | _ =>
    if isExtender c || !isVisible c then
      ['\\', 'u', '\x7b'] ++ hexDigits c.toNat ++ ['\x7d']
    else [c]

def quoted (text : String) : String :=
  String.ofList ('"' :: text.toList.flatMap escape ++ ['"'])

/-- As `quoted`, for a text that is read again as a literal: a zero character before an
octal digit is written in full, so that the digit is not taken for a part of it. -/
def literalBody : List Char → List Char
  | [] => []
  | '\x00' :: next :: rest =>
    (if '0' ≤ next && next ≤ '7' then ['\\', 'x', '0', '0'] else ['\\', '0'])
      ++ literalBody (next :: rest)
  | c :: rest => escape c ++ literalBody rest

def literal (text : List Char) : String := String.ofList ('"' :: literalBody text ++ ['"'])

end CalleeFirst.Text
