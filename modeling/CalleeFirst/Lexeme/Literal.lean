import CalleeFirst.Lexeme.Word

/-! Literals.

Texts, bytes and C texts in quotes, with escapes or raw, single characters and bytes,
and numbers. An identifier directly behind a literal is its suffix and belongs to it.
Every function measures the literal at the start of a text; `none` means that there
is none, or a broken one. -/
namespace CalleeFirst.Lexeme

open Text (isIdentifierStart isIdentifierContinue)

def isHexDigit (c : Char) : Bool :=
  c.isDigit || ('a' ≤ c && c ≤ 'f') || ('A' ≤ c && c ≤ 'F')

/-- The value of a hexadecimal digit. -/
def hexValue (c : Char) : Nat :=
  if c.isDigit then c.toNat - '0'.toNat
  else if 'a' ≤ c then c.toNat - 'a'.toNat + 10
  else c.toNat - 'A'.toNat + 10

/-- Adds the suffix of a literal of `n` characters. -/
def withSuffix (n : Nat) (rest : List Char) : Nat := n + (identifierLength rest).getD 0

/-! ### Quoted literals -/

/-- What kinds of quoted literal have in common and where they differ. -/
inductive Flavor where
  | text
  | bytes
  /-- A text without the zero character. -/
  | cText
  deriving Repr, DecidableEq

namespace Flavor

/-- Which characters may stand in the literal as they are. -/
def admits (flavor : Flavor) (c : Char) : Bool :=
  match flavor with
  | text => true
  | bytes => c.toNat < 128
  | cText => c ≠ '\x00'

/-- Which pairs of hexadecimal digits may be escaped. -/
def admitsHex (flavor : Flavor) (first second : Char) : Bool :=
  isHexDigit first && isHexDigit second &&
    match flavor with
    | text => '0' ≤ first && first ≤ '7'
    | bytes => true
    | cText => !(first == '0' && second == '0')

/-- Characters that stand for another behind a backslash. -/
def admitsSimple (flavor : Flavor) (c : Char) : Bool :=
  "nrt\\'\"".contains c || (c == '0' && flavor != cText)

def admitsPoint (flavor : Flavor) (value : Nat) : Bool :=
  value.isValidChar && (flavor != cText || value != 0)

end Flavor

/-- The digits of a code point escape up to the closing brace: at most six, with
underscores anywhere behind the first. -/
def pointLength (flavor : Flavor) : (digits value : Nat) → List Char → Option Nat
  | _, _, [] => none
  | digits, value, c :: rest =>
    if isHexDigit c then
      if digits == 6 then none
      else (pointLength flavor (digits + 1) (value * 16 + hexValue c) rest).map (· + 1)
    else if digits == 0 then none
    else if c == '_' then (pointLength flavor digits value rest).map (· + 1)
    else if c == '\x7d' && flavor.admitsPoint value then some 1
    else none

/-- One escape, measured behind its backslash. -/
def escapeLength (flavor : Flavor) : List Char → Option Nat
  | 'x' :: first :: second :: _ => if flavor.admitsHex first second then some 3 else none
  | 'u' :: '\x7b' :: rest =>
    if flavor = .bytes then none else (pointLength flavor 0 0 rest).map (· + 2)
  | c :: _ => if flavor.admitsSimple c then some 1 else none
  | [] => none

/-- The line break and the blanks that a backslash at the end of a line removes. A
carriage return needs its line feed, and the text must go on. -/
def continuationLength : List Char → Option Nat
  | '\r' :: '\n' :: rest => (continuationLength rest).map (· + 2)
  | '\r' :: _ => none
  | c :: rest =>
    if c == ' ' || c == '\t' || c == '\n' then (continuationLength rest).map (· + 1) else some 0
  | [] => none

/-- A literal with escapes, measured behind its opening quote; the first `skip`
characters are known to be good. -/
def cookedLength (flavor : Flavor) : (skip : Nat) → List Char → Option Nat
  | _, [] => none
  | skip + 1, _ :: rest => (cookedLength flavor skip rest).map (· + 1)
  | 0, '"' :: rest => some (withSuffix 1 rest)
  | 0, '\r' :: rest =>
    if rest.head? = some '\n' then (cookedLength flavor 0 rest).map (· + 1) else none
  | 0, '\\' :: rest =>
    let escape :=
      if rest.head? = some '\n' || rest.head? = some '\r' then continuationLength rest
      else escapeLength flavor rest
    match escape with
    | some n => (cookedLength flavor n rest).map (· + 1)
    | none => none
  | 0, c :: rest => if flavor.admits c then (cookedLength flavor 0 rest).map (· + 1) else none

/-- The content of a raw literal with `hashes` hash signs, up to its end. -/
def rawContentLength (flavor : Flavor) (hashes : Nat) : List Char → Option Nat
  | [] => none
  | c :: rest =>
    if c == '"' && (List.replicate hashes '#').isPrefixOf rest then
      some (withSuffix (hashes + 1) (rest.drop hashes))
    else if c == '\r' && rest.head? != some '\n' then none
    else if flavor.admits c then (rawContentLength flavor hashes rest).map (· + 1)
    else none

/-- A raw literal, measured at its hash signs; there are at most 255. -/
def rawLength (flavor : Flavor) (text : List Char) : Option Nat :=
  let hashes := (text.takeWhile (· == '#')).length
  match text.drop hashes with
  | '"' :: rest =>
    if hashes ≤ 255 then (rawContentLength flavor hashes rest).map (· + hashes + 1) else none
  | _ => none

def quotedLength : List Char → Option Nat
  | '"' :: rest => (cookedLength .text 0 rest).map (· + 1)
  | 'r' :: rest => (rawLength .text rest).map (· + 1)
  | 'b' :: '"' :: rest => (cookedLength .bytes 0 rest).map (· + 2)
  | 'b' :: 'r' :: rest => (rawLength .bytes rest).map (· + 2)
  | 'c' :: '"' :: rest => (cookedLength .cText 0 rest).map (· + 2)
  | 'c' :: 'r' :: rest => (rawLength .cText rest).map (· + 2)
  | _ => none

/-- One character or escape and the quote behind it, measured behind the first quote. -/
def singleLength (flavor : Flavor) : List Char → Option Nat
  | [] => none
  | c :: rest => do
    let n ← if c == '\\' then (escapeLength flavor rest).map (· + 1)
      else if flavor.admits c then some 1 else none
    match (c :: rest).drop n with
    | '\'' :: behind => some (withSuffix (n + 1) behind)
    | _ => none

def characterLength : List Char → Option Nat
  | 'b' :: '\'' :: rest => (singleLength .bytes rest).map (· + 2)
  | '\'' :: rest => (singleLength .text rest).map (· + 1)
  | _ => none

/-! ### Numbers -/

/-- Adds the suffix of a number; a number must not run into a word. -/
def numberLength (n : Nat) (rest : List Char) : Option Nat :=
  let suffix := (identifierLength rest).getD 0
  match rest.drop suffix with
  | c :: _ => if isIdentifierContinue c then none else some (n + suffix)
  | [] => some (n + suffix)

/-- The exponent behind its letter: a sign before the first digit, and a digit at least. -/
def exponentLength : (signed valued : Bool) → List Char → Option Nat
  | _, valued, [] => if valued then some 0 else none
  | signed, valued, c :: rest =>
    if c == '+' || c == '-' then
      if valued then some 0
      else if signed then none
      else (exponentLength true valued rest).map (· + 1)
    else if c.isDigit then (exponentLength signed true rest).map (· + 1)
    else if c == '_' then (exponentLength signed valued rest).map (· + 1)
    else if valued then some 0 else none

/-- The digits, point and exponent of a number that has a point or an exponent,
measured behind its first digit. A point is not one if another point or a word
follows. An exponent without a digit is a suffix, if there was a point. -/
def realRestLength : (pointed : Bool) → List Char → Option Nat
  | pointed, [] => if pointed then some 0 else none
  | pointed, c :: rest =>
    if c.isDigit || c == '_' then (realRestLength pointed rest).map (· + 1)
    else if c == '.' && !pointed then
      match rest with
      | next :: _ =>
        if next == '.' || isIdentifierStart next then none
        else (realRestLength true rest).map (· + 1)
      | [] => some 1
    else if c == 'e' || c == 'E' then
      match exponentLength false false rest with
      | some n => some (n + 1)
      | none => if pointed then some 0 else none
    else if pointed then some 0 else none

def realLength : List Char → Option Nat
  | c :: rest =>
    if c.isDigit then do
      let n ← realRestLength false rest
      numberLength (n + 1) (rest.drop n)
    else none
  | [] => none

/-- Digits and underscores of a whole number; `none` if a decimal digit is too large
for the base, if there is no digit, or if a decimal number starts with an underscore. -/
def digitsLength (base : Nat) : (empty : Bool) → List Char → Option Nat
  | empty, [] => if empty then none else some 0
  | empty, c :: rest =>
    if c.isDigit then
      if hexValue c < base then (digitsLength base false rest).map (· + 1) else none
    else if isHexDigit c && hexValue c < base then (digitsLength base false rest).map (· + 1)
    else if c == '_' then
      if empty && base == 10 then none else (digitsLength base empty rest).map (· + 1)
    else if empty then none else some 0

def wholeLength (text : List Char) : Option Nat :=
  let (base, skip) := match text with
    | '0' :: 'x' :: _ => (16, 2)
    | '0' :: 'o' :: _ => (8, 2)
    | '0' :: 'b' :: _ => (2, 2)
    | _ => (10, 0)
  do
    let n ← digitsLength base true (text.drop skip)
    numberLength (skip + n) (text.drop (skip + n))

def literalLength (text : List Char) : Option Nat :=
  quotedLength text <|> characterLength text <|> realLength text <|> wholeLength text

end CalleeFirst.Lexeme
