import CalleeFirst.Lexeme.Position

/-! Token trees.

A source text is a list of words, marks, literals and groups; a group is what stands
between a pair of matching delimiters. A mark is one character of punctuation, and an
operator of several characters is a run of marks that are joined to each other.

`render` writes tokens in one line: one blank between two tokens, none behind a joined
mark, and inside delimiters only braces are padded. -/
namespace CalleeFirst.Lexeme

inductive Delimiter where
  | paren
  | bracket
  | brace
  deriving Repr, DecidableEq, Inhabited

namespace Delimiter

def opener : Delimiter → Char
  | paren => '('
  | bracket => '['
  | brace => '\x7b'

def closer : Delimiter → Char
  | paren => ')'
  | bracket => ']'
  | brace => '\x7d'

def all : List Delimiter := [paren, bracket, brace]

def ofOpener? (c : Char) : Option Delimiter := all.find? (·.opener == c)

def ofCloser? (c : Char) : Option Delimiter := all.find? (·.closer == c)

end Delimiter

inductive Tree where
  | word (text : String) (span : Span)
  /-- `joined` says that the next character is a mark too, or the word of a lifetime. -/
  | mark (char : Char) (joined : Bool) (span : Span)
  | literal (text : String) (span : Span)
  | group (delimiter : Delimiter) (inner : List Tree) (span : Span)
  deriving Inhabited

namespace Tree

def span : Tree → Span
  | word _ span => span
  | mark _ _ span => span
  | literal _ span => span
  | group _ _ span => span

def start (t : Tree) : Position := t.span.start

def stop (t : Tree) : Position := t.span.stop

/-- Where the closing delimiter of a group stands. -/
def closing (t : Tree) : Position := ⟨t.stop.line, t.stop.column - 1⟩

def isBrace : Tree → Bool
  | group .brace _ _ => true
  | _ => false

/-- Whether no blank follows when the tree is rendered. -/
def isJoined : Tree → Bool
  | mark _ joined _ => joined
  | _ => false

end Tree

mutual

def renderTree : Tree → String
  | .word text _ => text
  | .mark char _ _ => char.toString
  | .literal text _ => text
  | .group .paren inner _ => "(" ++ render inner ++ ")"
  | .group .bracket inner _ => "[" ++ render inner ++ "]"
  | .group .brace [] _ => "\x7b \x7d"
  | .group .brace (first :: rest) _ => "\x7b " ++ render (first :: rest) ++ " \x7d"

def render : List Tree → String
  | [] => ""
  | [last] => renderTree last
  | first :: second :: rest =>
    renderTree first ++ (if first.isJoined then "" else " ") ++ render (second :: rest)

end

mutual

def weightTree : Tree → Nat
  | .group _ inner _ => weight inner + 1
  | _ => 1

/-- The number of trees, those inside groups included. -/
def weight : List Tree → Nat
  | [] => 0
  | tree :: rest => weightTree tree + weight rest

end

end CalleeFirst.Lexeme
