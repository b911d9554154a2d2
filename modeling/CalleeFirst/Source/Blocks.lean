import CalleeFirst.Declaration
import CalleeFirst.Source.Calls
import CalleeFirst.Source.Lines
import CalleeFirst.Source.Text
import CalleeFirst.Visibility

/-! The blocks of a source text, ready to be ordered.

A member carries the comments directly above it: the lines of comments that touch its
first line, if it opens that line. It never reaches back over the opening brace or the
member before it.

A function without receiver that returns the type itself, or an option, a result or a
box of it, is a constructor. -/
namespace CalleeFirst.Source

open Lexeme (Position)
open Syntax (MemberKind Node Signature VisibilityMark)

structure Member where
  declaration : Declaration
  visibility : VisibilityClass
  /-- Comments above the member included. -/
  range : ByteRange
  /-- The line of the first token. -/
  line : Nat

structure Block where
  selfType : String
  trait : Option String
  line : Nat
  members : List Member

namespace Block

def label (b : Block) : String :=
  match b.trait with
  | some name => s!"impl {name} for {b.selfType}"
  | none => s!"impl {b.selfType}"

def declarations (b : Block) : List Declaration := b.members.map Member.declaration

def ranges (b : Block) : List ByteRange := b.members.map Member.range

/-- From the first start of a member to the last end. -/
def span (b : Block) : ByteRange :=
  ⟨(b.ranges.map ByteRange.start).min?.getD 0, (b.ranges.map ByteRange.stop).max?.getD 0⟩

/-- How a member is called in reports. -/
def displayName (b : Block) (index : Nat) : String :=
  match b.members[index]? with
  | some m => if m.declaration.name.isEmpty then s!"<item {index}>" else m.declaration.name
  | none => s!"<item {index}>"

end Block

/-! ### Visibility -/

/-- In the implementation of a trait a member is as visible as the trait. -/
def visibilityClass (inTrait : Bool) : VisibilityMark → VisibilityClass
  | .everywhere => .pub
  | .within crate => if crate then .crate else .restricted
  | .absent => if inTrait then .pub else .priv

/-! ### Constructors -/

/-- The last segment of a type that is a path. -/
def lastSegment? : Node → Option (String × List Node)
  | .phrase (.path .type _) parts =>
    match parts.getLast? with
    | some (.phrase (.segment name) inner) => some (name, inner)
    | _ => none
  | _ => none

/-- The name of a type that is a path. -/
def typeName? (type : Node) : Option String := (lastSegment? type).map Prod.fst

/-- The first generic argument of a segment, if it is a type. -/
def firstArgument? (segment : List Node) : Option Node :=
  match segment with
  | [_, .phrase .arguments parts] =>
    match parts.find? Node.isArgument with
    | some (.phrase (.argument .type) (type :: _)) => some type
    | _ => none
  | _ => none

/-- Whether a type is `Self` or has the name of the type that is implemented. -/
def isOwnType (own : Option String) (type : Node) : Bool :=
  match typeName? type with
  | some name => name == "Self" || own == some name
  | none => false

/-- Types that a constructor may wrap its result in. -/
def wrappers : List String := ["Option", "Result", "Box"]

def returnsOwnType (own : Option String) (type : Node) : Bool :=
  isOwnType own type ||
    match lastSegment? type with
    | some (name, segment) =>
      wrappers.contains name && (firstArgument? segment).any (isOwnType own)
    | none => false

def functionKind (own : Option String) (s : Signature) : DeclarationKind :=
  if !s.hasReceiver && s.output.any (returnsOwnType own) then .constructor else .method

/-! ### Members -/

/-- Whether a line is a comment that can belong to what follows it. -/
def isCommentLine (text : List Char) : Bool :=
  let visible := Text.trimStart text
  ['/', '/'].isPrefixOf visible && !(['/', '/', '!'].isPrefixOf visible)

/-- The first line of the run of comments directly above a line, or the line itself. Lines
that start before `floor` belong to earlier text. -/
def firstCommentLine (index : Lines) (floor : Nat) : (line : Nat) → Nat
  | 0 => 0
  | 1 => 1
  | line + 2 =>
    if isCommentLine (index.text (line + 1)) && floor ≤ index.firstVisible (line + 1) then
      firstCommentLine index floor (line + 1)
    else line + 2

/-- Where a member starts whose first token is at `start`. -/
def memberStart (index : Lines) (floor : Nat) (start : Position) : Nat :=
  let token := index.offset start
  let first :=
    if index.firstVisible start.line = token then firstCommentLine index floor start.line
    else start.line
  if first < start.line then max (index.firstVisible first) floor else max token floor

/-- What a member declares, and how visible it is. -/
def declare (order : VisibilityOrder) (own : Option String) (inTrait : Bool) (place : Nat)
    (m : Syntax.Member) : Declaration × VisibilityClass :=
  let other (name : String) : Declaration :=
    { id := place, kind := .other, name, visibilityRank := Declaration.anchoredRank
      parameters := [], sourceIndex := place, calls := ∅ }
  let visibility := visibilityClass inTrait m.visibility
  match m.kind with
  | .function s body =>
    ({ id := place, kind := functionKind own s, name := s.name
       visibilityRank := order.rank visibility
       parameters := s.parameters.map Node.text, sourceIndex := place, calls := callsOf body },
     visibility)
  | .constant name => (other name, visibility)
  | .alias name => (other name, visibility)
  | .invocation path => (other (Lexeme.render (Node.treesAll path) ++ "!"), .priv)
  | .unknown => (other "", .priv)

/-- The members of a block, of which the first may start at `floor` and stands at `place`. -/
def membersFrom (index : Lines) (declareAt : Nat → Syntax.Member → Declaration × VisibilityClass) :
    (floor place : Nat) → List Syntax.Member → List Member
  | _, _, [] => []
  | floor, place, m :: rest =>
    let (declaration, visibility) := declareAt place m
    let stop := index.offset m.span.stop
    { declaration, visibility, range := ⟨memberStart index floor m.span.start, stop⟩
      line := m.span.start.line }
      :: membersFrom index declareAt stop (place + 1) rest

def blockOf (order : VisibilityOrder) (index : Lines) (b : Syntax.Block) : Block :=
  let declareAt := declare order (typeName? b.selfType) b.trait.isSome
  { selfType := b.selfType.text
    trait := b.trait.map Node.text
    line := b.start.line
    members := membersFrom index declareAt (index.offset b.inside) 0 b.members }

/-- The blocks of a source text. Ranges count a byte order mark at its start, lines and
columns do not. -/
def blocks (order : VisibilityOrder) (source : List Char) : Except Position (List Block) := do
  let body := withoutMark source
  let mark := Text.byteLength source - Text.byteLength body
  let index := Lines.ofText body
  let found ← Grammar.blocks (← trees body)
  let shift (m : Member) : Member := { m with range := m.range.shifted mark }
  return found.map fun b =>
    let block := blockOf order index b
    { block with members := block.members.map shift }

end CalleeFirst.Source
