import CalleeFirst.Lexeme.Literal
import CalleeFirst.Lexeme.Separator
import CalleeFirst.Lexeme.Tree
import CalleeFirst.Text.Quoted

/-! From text to token trees.

The scanner walks the text once, with a stack of the groups that are open. At each
place it skips the gap, takes a documentation comment, a delimiter, or one leaf, and
goes on behind it. A documentation comment becomes the attribute that it abbreviates,
and all tokens of that attribute take the place of the comment.

The text is refused at the place of the first thing that is no token, at a closing
delimiter that matches nothing, and at the opening delimiter of the innermost group
that is still open at the end. -/
namespace CalleeFirst.Lexeme

/-! ### Leaves -/

def markCharacters : List Char := "~!@#$%^&*-=+|;:,<.>/?'".toList

/-- Whether a mark starts the text; a slash that opens a comment is none. -/
def startsMark : List Char → Bool
  | '/' :: '/' :: _ => false
  | '/' :: '*' :: _ => false
  | c :: _ => markCharacters.contains c
  | [] => false

/-- The mark at the start of the text, and whether it is joined to what follows. An
apostrophe is a mark only as the start of a lifetime. -/
def mark? : List Char → Option (Char × Bool)
  | '\'' :: rest => do
    let n ← anyWordLength rest
    match rest.drop n with
    | '\'' :: _ => none
    | '#' :: _ => if ['r', '#'].isPrefixOf rest then some ('\'', true) else none
    | _ => some ('\'', true)
  | c :: rest => if startsMark (c :: rest) then some (c, startsMark rest) else none
  | [] => none

/-- The literal that stands for a literal that could not be read. -/
def errorLiteral : List Char := "(/*ERROR*/)".toList

/-- The tree of the leaf at the start of the text, given its span, and its length. -/
def leaf? (text : List Char) : Option (Nat × (Span → Tree)) :=
  match literalLength text with
  | some n => some (n, .literal (String.ofList (text.take n)))
  | none =>
    match mark? text with
    | some (char, joined) => some (1, .mark char joined)
    | none =>
      match wordLength text with
      | some n => some (n, .word (String.ofList (text.take n)))
      | none =>
        if errorLiteral.isPrefixOf text then
          some (errorLiteral.length, .literal (String.ofList errorLiteral))
        else none

/-! ### Documentation comments -/

/-- A documentation comment: what it says, whether it is about what encloses it, and
how much of the text it takes. -/
structure DocComment where
  content : List Char
  inner : Bool
  length : Nat

/-- The content of a line comment whose marker has `marker` characters. A carriage
return at the end of the line is not content but belongs to the comment. -/
def DocComment.line (marker : Nat) (inner : Bool) (text : List Char) : DocComment :=
  let n := lineLength (text.drop marker)
  let returns := match text.drop (marker + n) with
    | '\r' :: _ => 1
    | _ => 0
  ⟨(text.drop marker).take n, inner, marker + n + returns⟩

def DocComment.block? (inner : Bool) (text : List Char) : Option DocComment := do
  let n ← blockLength text
  return ⟨(text.drop 3).take (n - 5), inner, n⟩

/-- Whether every carriage return is followed by a line feed. -/
def returnsEndLines : List Char → Bool
  | [] => true
  | '\r' :: rest => rest.head? == some '\n' && returnsEndLines rest
  | _ :: rest => returnsEndLines rest

def docComment? (text : List Char) : Option DocComment := do
  let comment ← match text with
    | '/' :: '/' :: '!' :: _ => some (DocComment.line 3 true text)
    | '/' :: '*' :: '!' :: _ => DocComment.block? true text
    | '/' :: '/' :: '/' :: rest =>
      if rest.head? = some '/' then none else some (DocComment.line 3 false text)
    | '/' :: '*' :: '*' :: rest =>
      if rest.head? = some '*' then none else DocComment.block? false text
    | _ => none
  if returnsEndLines comment.content then some comment else none

/-- The attribute that the comment abbreviates. -/
def DocComment.trees (comment : DocComment) (span : Span) : List Tree :=
  let body := [.word "doc" span, .mark '=' false span,
    .literal (Text.literal comment.content) span]
  let style := if comment.inner then [.mark '!' false span] else []
  .mark '#' false span :: style ++ [.group .bracket body span]

/-! ### The scanner -/

/-- A group that is open: its delimiter, where it opened, and the trees before it,
last one first. -/
structure Frame where
  delimiter : Delimiter
  start : Position
  before : List Tree

/-- Closes the innermost group with a closing delimiter that ends at `stop`. -/
def closeGroup (closer : Delimiter) (stop : Position) (trees : List Tree) :
    List Frame → Option (List Frame × List Tree)
  | frame :: stack =>
    if frame.delimiter = closer then
      some (stack, .group closer trees.reverse ⟨frame.start, stop⟩ :: frame.before)
    else none
  | [] => none

theorem length_drop_lt {text tail : List Char} {c : Char} {gap : Nat} (n : Nat)
    (h : text.drop gap = c :: tail) : (tail.drop n).length < text.length := by
  have := congrArg List.length h
  simp only [List.length_drop, List.length_cons] at this ⊢
  omega

/-- `trees` are those of the innermost open group, last one first. -/
def scanFrom (text : List Char) (place : Position) (stack : List Frame) (trees : List Tree) :
    Except Position (List Tree) :=
  let gap := gapLength text
  let start := place.after (text.take gap)
  match _h : text.drop gap with
  | [] =>
    match stack with
    | frame :: _ => .error frame.start
    | [] => .ok trees.reverse
  | c :: tail =>
    match docComment? (c :: tail) with
    | some comment =>
      let stop := start.after ((c :: tail).take comment.length)
      scanFrom (tail.drop (comment.length - 1)) stop stack
        ((comment.trees ⟨start, stop⟩).reverse ++ trees)
    | none =>
      let opener := if errorLiteral.isPrefixOf (c :: tail) then none else Delimiter.ofOpener? c
      match opener, Delimiter.ofCloser? c with
      | some delimiter, _ =>
        scanFrom (tail.drop 0) (start.next c) (⟨delimiter, start, trees⟩ :: stack) []
      | none, some closer =>
        match closeGroup closer (start.next c) trees stack with
        | some (stack, trees) => scanFrom (tail.drop 0) (start.next c) stack trees
        | none => .error start
      | none, none =>
        match leaf? (c :: tail) with
        | some (n, tree) =>
          let stop := start.after ((c :: tail).take n)
          scanFrom (tail.drop (n - 1)) stop stack (tree ⟨start, stop⟩ :: trees)
        | none => .error start
  termination_by text.length
  decreasing_by all_goals exact length_drop_lt _ _h

def byteOrderMark : Char := '\ufeff'

/-- The token trees of a text, or the place where it is refused. A byte order mark at
the start is passed over and keeps its column. -/
def scan (text : List Char) : Except Position (List Tree) :=
  match text with
  | c :: rest =>
    if c = byteOrderMark then scanFrom rest (Position.start.next c) [] []
    else scanFrom text Position.start [] []
  | [] => .ok []

end CalleeFirst.Lexeme
