import CalleeFirst.Lexeme.Literal
import CalleeFirst.Lexeme.Tree

/-! Looking at what comes next.

A look answers a question about the trees ahead without taking any of them. An operator
of several marks is there if its marks are and all but the last are joined to the next,
whatever follows: the operator for a path separator also answers to its first mark. -/
namespace CalleeFirst.Grammar

open Lexeme (Delimiter Tree)

/-- A question about the trees ahead. -/
abbrev Look := List Tree → Bool

/-! ### Words -/

/-- Words that are no identifiers. -/
def reserved : List String :=
  ["_", "abstract", "as", "async", "await", "become", "box", "break", "const", "continue",
   "crate", "do", "dyn", "else", "enum", "extern", "false", "final", "fn", "for", "if", "impl",
   "in", "let", "loop", "macro", "match", "mod", "move", "mut", "override", "priv", "pub", "ref",
   "return", "Self", "self", "static", "struct", "super", "trait", "true", "try", "type",
   "typeof", "unsafe", "unsized", "use", "virtual", "where", "while", "yield"]

namespace Look

def none : Look := fun _ => false

def or (a b : Look) : Look := fun trees => a trees || b trees

def and (a b : Look) : Look := fun trees => a trees && b trees

def not (a : Look) : Look := fun trees => !a trees

instance : OrElse Look := ⟨fun a b trees => a trees || b () trees⟩

def any (looks : List Look) : Look := fun trees => looks.any (· trees)

/-- The end of the text or of the group. -/
def end_ : Look := List.isEmpty

def anyWord : Look
  | .word _ _ :: _ => true
  | _ => false

def word (text : String) : Look
  | .word w _ :: _ => w == text
  | _ => false

def words (texts : List String) : Look
  | .word w _ :: _ => texts.contains w
  | _ => false

def identifier : Look
  | .word w _ :: _ => !reserved.contains w
  | _ => false

/-! ### Marks, groups and literals -/

/-- The apostrophe is no mark of its own: it starts a lifetime. -/
def marks : List Char → Look
  | [c], .mark d _ _ :: _ => c == d && d != '\''
  | c :: next :: more, .mark d joined _ :: rest =>
    c == d && d != '\'' && joined && marks (next :: more) rest
  | _, _ => false

def op (text : String) : Look := marks text.toList

def ops (texts : List String) : Look := any (texts.map op)

def lifetime : Look
  | .mark '\'' true _ :: .word _ _ :: _ => true
  | _ => false

def group (delimiter : Delimiter) : Look
  | .group d _ _ :: _ => d == delimiter
  | _ => false

def paren : Look := group .paren

def bracket : Look := group .bracket

def brace : Look := group .brace

/-- Whether a literal is a number. -/
def isNumber (text : String) : Bool := text.toList.head?.any Char.isDigit

/-- A literal, one of the two truth values, or a number with a minus sign. -/
def literal : Look
  | .literal _ _ :: _ => true
  | .word w _ :: _ => w == "true" || w == "false"
  | .mark '-' _ _ :: .literal text _ :: _ => isNumber text
  | _ => false

/-- A literal text, as opposed to bytes, characters and numbers. -/
def text : Look
  | .literal t _ :: _ => t.toList.head? == some '"' || t.toList.head? == some 'r'
  | _ => false

/-! ### Further ahead -/

/-- The trees behind the next one, where a lifetime counts as one. -/
def behind : List Tree → Option (List Tree)
  | [] => .none
  | .mark '\'' true _ :: .word _ _ :: rest => some rest
  | _ :: rest => some rest

/-- Looks one tree further ahead. -/
def second (look : Look) : Look := fun trees => (behind trees).any look

/-- Looks two trees further ahead. -/
def third (look : Look) : Look := second (second look)

end Look

/-! ### Numbers in literals -/

/-- The value of a whole number literal and its suffix; `none` for a literal with a point
or an exponent. -/
def wholeNumber? (text : String) : Option (Nat × List Char) :=
  let (base, digits) := match text.toList with
    | '0' :: 'x' :: rest => (16, rest)
    | '0' :: 'o' :: rest => (8, rest)
    | '0' :: 'b' :: rest => (2, rest)
    | all => (10, all)
  let isDigit (c : Char) := Lexeme.isHexDigit c && Lexeme.hexValue c < base
  let value := (digits.takeWhile fun c => isDigit c || c == '_').foldl
    (fun v c => if c == '_' then v else v * base + Lexeme.hexValue c) 0
  let suffix := digits.dropWhile fun c => isDigit c || c == '_'
  if base == 10 then
    match suffix with
    | '.' :: _ => none
    | e :: rest =>
      if (e == 'e' || e == 'E') && (Lexeme.exponentLength false false rest).isSome then none
      else some (value, suffix)
    | [] => some (value, [])
  else some (value, suffix)

namespace Look

/-- A number with a point or an exponent, with or without a minus sign. -/
def real : Look
  | .literal text _ :: _ => isNumber text && (wholeNumber? text).isNone
  | .mark '-' _ _ :: .literal text _ :: _ => isNumber text && (wholeNumber? text).isNone
  | _ => false

/-- A whole number, with or without a minus sign. -/
def whole : Look
  | .literal text _ :: _ => isNumber text && (wholeNumber? text).isSome
  | .mark '-' _ _ :: .literal text _ :: _ => isNumber text && (wholeNumber? text).isSome
  | _ => false

end Look

end CalleeFirst.Grammar
