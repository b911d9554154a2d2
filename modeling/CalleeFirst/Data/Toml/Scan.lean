import CalleeFirst.Data.Value

/-! Reading the values of a settings document.

A scan takes characters from the front of a text or fails; a failed alternative takes
nothing. Loops are bounded by the characters that are left, of which every round takes
at least one. -/
namespace CalleeFirst.Data.Toml

abbrev Scan := StateT (List Char) Option

namespace Scan

def next? : Scan (Option Char) := return (← get).head?

def one (allowed : Char → Bool) : Scan Char := do
  match ← get with
  | c :: rest => if allowed c then set rest; return c else failure
  | [] => failure

def char (c : Char) : Scan Unit := do
  let _ ← one (· == c)

/-- The characters of a text, all of them. -/
def exactly (text : String) : Scan Unit := text.toList.forM char

def skip (allowed : Char → Bool) : Scan Unit := modify (List.dropWhile allowed)

def finish : Scan Unit := do
  if !(← get).isEmpty then failure

/-- Whether a part was there. -/
def optionally (part : Scan α) : Scan Bool := (do let _ ← part; return true) <|> return false

/-- What follows, without taking it. -/
def ahead (part : Scan α) : Scan Unit := do
  let here ← get
  let _ ← part
  set here

def repeatedUpTo (part : Scan α) : Nat → Scan (List α)
  | 0 => return []
  | bound + 1 =>
    (do let first ← part; return first :: (← repeatedUpTo part bound)) <|> return []

/-- A part as often as it is there. -/
def repeated (part : Scan α) : Scan (List α) := do
  repeatedUpTo part (← get).length

/-- At least one part, with separators between parts. -/
def separated (part : Scan α) (separator : Scan Unit) : Scan (List α) := do
  let first ← part
  return first :: (← repeated (separator *> part))

end Scan

open Scan

/-! ### Between values -/

def isBlank (c : Char) : Bool := c == ' ' || c == '\t'

/-- What may stand in a comment, and in a text unless it has another meaning there. -/
def isPlain (c : Char) : Bool := c == '\t' || (' ' ≤ c && c ≤ '~') || '\x80' ≤ c

def blanks : Scan Unit := skip isBlank

def newline : Scan Unit := char '\n' <|> exactly "\r\n"

def comment : Scan Unit := char '#' *> skip isPlain

/-- The end of a line that holds nothing more. -/
def lineEnd : Scan Unit := do
  blanks
  let _ ← optionally comment
  newline <|> finish

/-- Blanks, comments and line breaks inside a list. -/
def gap : Scan Unit := do
  let _ ← repeated ((do let _ ← one isBlank) <|> newline <|> comment)

/-! ### Texts -/

def isHexDigit (c : Char) : Bool :=
  c.isDigit || ('a' ≤ c && c ≤ 'f') || ('A' ≤ c && c ≤ 'F')

def digitValue (c : Char) : Nat :=
  if c.isDigit then c.toNat - 48 else if c ≤ 'F' then c.toNat - 55 else c.toNat - 87

/-- The number that digits spell. -/
def numeral (base : Nat) (digits : List Char) : Nat :=
  digits.foldl (fun n c => base * n + digitValue c) 0

/-- A character given by so many hexadecimal digits. -/
def codePoint (count : Nat) : Scan (List Char) := do
  let code := numeral 16 (← (List.replicate count ()).mapM fun _ => one isHexDigit)
  if code < 0xD800 || (0xE000 ≤ code && code < 0x110000) then return [Char.ofNat code]
  else failure

/-- What follows a backslash. -/
def escaped : Scan (List Char) := do
  match ← one fun _ => true with
  | 'b' => return ['\x08']
  | 't' => return ['\t']
  | 'n' => return ['\n']
  | 'f' => return ['\x0c']
  | 'r' => return ['\r']
  | '"' => return ['"']
  | '\\' => return ['\\']
  | 'u' => codePoint 4
  | 'U' => codePoint 8
  | _ => failure

/-- A backslash at the end of a line joins it to the next that is not blank. -/
def joinedLines : Scan (List Char) := do
  blanks
  newline
  let _ ← repeated ((do let _ ← one isBlank) <|> newline)
  return []

def plainExcept (excluded : List Char) : Scan (List Char) := do
  return [← one fun c => isPlain c && !excluded.contains c]

/-- A text on one line. -/
def shortText (quote : Char) (part : Scan (List Char)) : Scan String := do
  char quote
  let parts ← repeated part
  char quote
  return String.ofList parts.flatten

/-- One or two quotes that do not end a long text. -/
def innerQuotes (quote : Char) (behind : Scan Unit) : Scan (List Char) :=
  (do char quote; char quote; ahead behind; return [quote, quote])
    <|> (do char quote; ahead behind; return [quote])

/-- A text between triple quotes. A line break right after the first ones is not part of
it, and up to two more quotes may stand right before the last ones. -/
def longText (quote : Char) (part : Scan (List Char)) : Scan String := do
  let fence := char quote *> char quote *> char quote
  fence
  let _ ← optionally newline
  let parts ← repeated
    (part <|> (do newline; return ['\n']) <|> innerQuotes quote do let _ ← one (· != quote))
  let last ← innerQuotes quote fence <|> return []
  fence
  return String.ofList (parts.flatten ++ last)

def basicPart : Scan (List Char) := plainExcept ['"', '\\'] <|> (char '\\' *> escaped)

def basicText : Scan String := shortText '"' basicPart

def literalText : Scan String := shortText '\'' (plainExcept ['\''])

def text : Scan String :=
  longText '"' (plainExcept ['"', '\\'] <|> (char '\\' *> (joinedLines <|> escaped)))
    <|> longText '\'' (plainExcept ['\''])
    <|> basicText <|> literalText

/-! ### Numbers -/

/-- Digits, single underscores between them. -/
def digits (isDigit : Char → Bool) : Scan (List Char) := do
  let first ← one isDigit
  return first :: (← repeated (one isDigit <|> (char '_' *> one isDigit)))

/-- Digits that do not begin with a zero, or a zero. -/
def wholeDigits : Scan (List Char) :=
  (do char '0'; return ['0']) <|> digits Char.isDigit

def sign : Scan Bool := (do char '-'; return true) <|> (do char '+'; return false) <|> return false

/-- The range of 64 bits with a sign. -/
def inRange (n : Int) : Bool := -9223372036854775808 ≤ n && n ≤ 9223372036854775807

def numberIn (base : Nat) (mark : String) (isDigit : Char → Bool) : Scan Value := do
  exactly mark
  let n := numeral base (← digits isDigit)
  if inRange n then return .integer n else failure

def decimal : Scan Value := do
  let negative ← sign
  let n := numeral 10 (← wholeDigits)
  let value : Int := if negative then -n else n
  if inRange value then return .integer value else failure

def integer : Scan Value :=
  numberIn 16 "0x" isHexDigit
    <|> numberIn 8 "0o" (fun c => '0' ≤ c && c ≤ '7')
    <|> numberIn 2 "0b" (fun c => c == '0' || c == '1')
    <|> decimal

/-- Whether `m` tens to the `scale` is beyond the numbers of 64 bits, rounding included. -/
def overflows (m : Nat) (scale : Int) : Bool :=
  let limit := Nat.pow 2 1024 - Nat.pow 2 970
  let magnitude : Int := (Nat.toDigits 10 m).length + scale
  if m == 0 || magnitude < 300 then false
  else if 320 < magnitude then true
  else if 0 ≤ scale then limit ≤ m * Nat.pow 10 scale.toNat
  else limit * Nat.pow 10 (-scale).toNat ≤ m

def exponent : Scan Int := do
  char 'e' <|> char 'E'
  let negative ← sign
  let n := numeral 10 (← digits Char.isDigit)
  return if negative then -n else n

def fraction : Scan (List Char) := char '.' *> digits Char.isDigit

/-- A number with a fraction or an exponent; a positive one must not overflow. -/
def scaled : Scan Unit := do
  let negative ← sign
  let whole ← wholeDigits
  let (part, scale) ← (do return ([], ← exponent)) <|> do
    let part ← fraction
    return (part, ← exponent <|> return 0)
  if !negative && overflows (numeral 10 (whole ++ part)) (scale - part.length) then failure

def real : Scan Value := do
  scaled <|> do
    let _ ← sign
    exactly "inf" <|> exactly "nan"
  return .real

/-! ### Dates -/

/-- A number of so many digits. -/
def digitsOf (count : Nat) : Scan Nat := do
  return numeral 10 (← (List.replicate count ()).mapM fun _ => one Char.isDigit)

def twoDigits (least most : Nat) : Scan Nat := do
  let n ← digitsOf 2
  if least ≤ n && n ≤ most then return n else failure

def isLeap (year : Nat) : Bool := year % 4 == 0 && (year % 100 != 0 || year % 400 == 0)

def monthLength (year month : Nat) : Nat :=
  if month == 2 then (if isLeap year then 29 else 28)
  else if [4, 6, 9, 11].contains month then 30 else 31

def day : Scan Unit := do
  let year ← digitsOf 4
  char '-'
  let month ← twoDigits 1 12
  char '-'
  let _ ← twoDigits 1 (monthLength year month)

def time : Scan Unit := do
  let _ ← twoDigits 0 23
  char ':'
  let _ ← twoDigits 0 59
  char ':'
  let _ ← twoDigits 0 60
  let _ ← optionally do
    char '.'
    let _ ← one Char.isDigit
    skip Char.isDigit

def offset : Scan Unit := do
  char 'Z' <|> char 'z' <|> do
    char '+' <|> char '-'
    let _ ← twoDigits 0 23
    char ':'
    let _ ← twoDigits 0 59

def date : Scan Value := do
  time <|> do
    day
    let _ ← optionally do
      let _ ← one fun c => c == 'T' || c == 't' || c == ' '
      time
      let _ ← optionally offset
  return .date

end CalleeFirst.Data.Toml
