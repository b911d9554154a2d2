import CalleeFirst.Grammar.Look
import CalleeFirst.Syntax.Node

/-! Reading syntax.

A reader takes trees from the front of a stream, and carries the proof that it does
nothing else to it (`Stream.LeadsTo`). It fails at a position, which is all that a
failure says. A group is read by a stream of its own, whose end is the closing
delimiter; trees that a rule leaves over inside a group are not a failure at once, but
the first of them is remembered as a stray and ends the whole reading in failure if
nothing else does.

`Rule`s return the nodes that they read, in order, so that a rule of the grammar is
mostly a sequence of smaller ones. What a rule takes from the stream it writes down
normalised: an operator's last mark is never joined to what follows. -/
namespace CalleeFirst.Grammar

open Lexeme (Delimiter Position Span Tree)
open Syntax (Form Node)

structure Stream where
  rest : List Tree
  /-- Where the text or the group ends. -/
  stop : Position
  /-- The tree that was taken last. -/
  last : Option Tree := none
  /-- The first tree that was left over in a group. -/
  stray : Option Position := none

namespace Stream

/-- The position of the next tree. -/
def here (s : Stream) : Position :=
  match s.rest with
  | tree :: _ => tree.start
  | [] => s.stop

/-- `t` is what is left of `s` when some trees are taken from its front. -/
def LeadsTo (s t : Stream) : Prop :=
  ∃ taken, s.rest = taken ++ t.rest ∧ t.last = taken.getLast?.or s.last

theorem LeadsTo.refl (s : Stream) : s.LeadsTo s := ⟨[], rfl, rfl⟩

theorem LeadsTo.trans {s t u : Stream} (h : s.LeadsTo t) (h' : t.LeadsTo u) : s.LeadsTo u := by
  obtain ⟨taken, hrest, hlast⟩ := h
  obtain ⟨more, hmore, hlast'⟩ := h'
  refine ⟨taken ++ more, ?_, ?_⟩
  · rw [hrest, hmore, List.append_assoc]
  · rw [hlast', hlast, List.getLast?_append, Option.or_assoc]

/-- One tree is taken. -/
theorem LeadsTo.of_cons {s t : Stream} {tree : Tree} (hrest : s.rest = tree :: t.rest)
    (hlast : t.last = some tree) : s.LeadsTo t := ⟨[tree], hrest, by rw [hlast]; rfl⟩

end Stream

structure Reader (α : Type) where
  run : Stream → Except Position (α × Stream)
  leads : ∀ {s a t}, run s = .ok (a, t) → s.LeadsTo t

/-- A reader of a sequence of nodes. -/
abbrev Rule := Reader (List Node)

namespace Reader

instance : Monad Reader where
  pure a :=
    { run s := .ok (a, s)
      leads := by
        intro s _ _ h
        cases h
        exact .refl s }
  bind r f :=
    { run s :=
        match r.run s with
        | .ok (a, t) => (f a).run t
        | .error place => .error place
      leads := by
        intro s b u h
        cases hr : r.run s with
        | error place => rw [hr] at h; cases h
        | ok result =>
          rw [hr] at h
          exact (r.leads hr).trans ((f result.1).leads h) }

/-- The stream as it is. -/
def stream : Reader Stream where
  run s := .ok (s, s)
  leads := by
    intro s _ _ h
    cases h
    exact .refl s

def look (question : Look) : Reader Bool := return question (← stream).rest

/-- The position of the next tree. -/
def here : Reader Position := return (← stream).here

def failAt (place : Position) : Reader α where
  run _ := .error place
  leads h := by cases h

def failHere : Reader α := do failAt (← here)

/-- Where the tree that was taken last ends. -/
def behindLast : Reader Position := do
  let s ← stream
  return match s.last with
    | some tree => tree.stop
    | none => s.stop

/-- A reader that is made only when it reads. -/
def deferred (reader : Unit → Reader α) : Reader α where
  run s := (reader ()).run s
  leads h := (reader ()).leads h

/-! ### Single trees -/

/-- Takes the next tree, as it is written. -/
def anyTree : Reader Tree where
  run s :=
    match s.rest with
    | tree :: rest => .ok (tree, { s with rest, last := some tree })
    | [] => .error s.stop
  leads := by
    intro s tree t h
    split at h
    case h_1 hrest =>
      cases h
      exact .of_cons hrest rfl
    case h_2 => cases h

/-- Takes the next tree if the look agrees. -/
def treeIf (question : Look) : Reader Tree := do
  if ← look question then anyTree else failHere

def wordIf (question : Look) : Reader (String × Node) := do
  match ← treeIf question with
  | .word text span => return (text, .token (.word text span))
  | tree => return ("", .token tree)

/-- Any word, keyword or not. -/
def takeWord : Reader (String × Node) := wordIf .anyWord

def takeIdentifier : Reader (String × Node) := wordIf .identifier

/-- The marks of an operator: each but the last is joined to the next. -/
def takeMarks : List Char → Rule
  | [] => return []
  | c :: rest => do
    let tree ← anyTree
    return .token (.mark c (!rest.isEmpty) tree.span) :: (← takeMarks rest)

end Reader

/-! ### Rules for single tokens -/

namespace Rule

open Reader

def empty : Rule := return []

def op (text : String) : Rule := do
  if ← look (.op text) then takeMarks text.toList else failHere

def word (text : String) : Rule := do return [(← wordIf (.word text)).2]

def anyWord : Rule := do return [(← takeWord).2]

def identifier : Rule := do return [(← takeIdentifier).2]

def lifetime : Rule := do
  if ← look .lifetime then
    let quote ← anyTree
    let name ← anyTree
    return [.token quote, .token name]
  else failHere

/-- A literal; a minus sign before a number is a token of its own. -/
def literal : Rule := do
  if ← look .literal then
    match ← anyTree with
    | .mark c _ span => return [.token (.mark c false span), .token (← anyTree)]
    | tree => return [.token tree]
  else failHere

/-- A literal text. -/
def text : Rule := do return [.token (← treeIf .text)]

/-- A group with whatever is in it. -/
def anyGroup : Rule := do
  return [.token (← treeIf (Look.any [.paren, .bracket, .brace]))]

/-! ### Putting rules together -/

/-- One rule after the other. -/
def seq : List Rule → Rule
  | [] => return []
  | rule :: rest => do
    let first ← rule
    return first ++ (← seq rest)

/-- The rule if the look agrees, and nothing otherwise. -/
def onlyIf (question : Look) (rule : Rule) : Rule := do
  if ← look question then rule else empty

def optionalOp (text : String) : Rule := onlyIf (.op text) (op text)

def optionalWord (text : String) : Rule := onlyIf (.word text) (word text)

def optionalLifetime : Rule := onlyIf .lifetime lifetime

/-- The rule of the first look that agrees. -/
def choose : List (Look × Rule) → Rule
  | [] => failHere
  | (question, rule) :: rest => do
    if ← look question then rule else choose rest

def node (form : Form) (rule : Rule) : Reader Node := return .phrase form (← rule)

def one (reader : Reader Node) : Rule := return [← reader]

end Rule

namespace Reader

/-- Reads the inside of a group. What is left over there becomes a stray. -/
def inGroup (delimiter : Delimiter) (reader : Reader α) : Reader (α × Span) where
  run s :=
    match s.rest with
    | .group d inner span :: rest =>
      if d = delimiter then
        let tree := Tree.group d inner span
        match reader.run { rest := inner, stop := tree.closing, stray := s.stray } with
        | .ok (value, t) =>
          let leftover := t.rest.head?.map Tree.start
          .ok ((value, span), { s with rest, last := some tree, stray := t.stray <|> leftover })
        | .error place => .error place
      else .error s.here
    | _ => .error s.here
  leads := by
    intro s value t h
    split at h
    case h_1 hrest =>
      split at h
      · dsimp only at h
        split at h
        · cases h
          exact .of_cons hrest rfl
        · cases h
      · cases h
    case h_2 => cases h

/-- What a reader returns, without taking anything. -/
def peek (reader : Reader α) : Reader α where
  run s :=
    match reader.run s with
    | .ok (value, _) => .ok (value, s)
    | .error place => .error place
  leads := by
    intro s value t h
    split at h
    · cases h
      exact .refl s
    · cases h

/-- Reads if that succeeds, and takes nothing otherwise. -/
def attempt (reader : Reader α) : Reader (Option α) where
  run s :=
    match reader.run s with
    | .ok (value, t) => .ok (some value, t)
    | .error _ => .ok (none, s)
  leads := by
    intro s value t h
    split at h
    case h_1 hr =>
      cases h
      exact reader.leads hr
    case h_2 =>
      cases h
      exact .refl s

/-- What a reader would return, without taking anything; `none` if it would fail. -/
def ahead (reader : Reader α) : Reader (Option α) := peek (attempt reader)

/-- The trees that a reader takes, exactly as they are written. -/
def written (reader : Reader α) : Reader (α × List Node) := do
  let before := (← stream).rest
  let value ← reader
  let after := (← stream).rest
  return (value, (before.take (before.length - after.length)).map .token)

/-- Repeats as long as the body says so, and never more than `bound` times. -/
def repeatUpTo (body : Reader (List α × Bool)) : (bound : Nat) → Reader (List α)
  | 0 => return []
  | bound + 1 => do
    let (found, more) ← body
    if more then return found ++ (← repeatUpTo body bound) else return found

/-- Repeats as long as the body says so. A body takes a tree whenever it wants to go on,
so that there are at most as many rounds as trees. -/
def repeated (body : Reader (List α × Bool)) : Reader (List α) := do
  repeatUpTo body ((← stream).rest.length + 1)

/-- Reads one after the other until the group ends. -/
def untilEnd (reader : Reader α) : Reader (List α) := repeated do
  if ← look .end_ then return ([], false) else return ([← reader], true)

end Reader

namespace Rule

open Reader

def group (delimiter : Delimiter) (rule : Rule) : Rule := do
  let (inner, span) ← inGroup delimiter rule
  return [.group delimiter span inner]

def parens (rule : Rule) : Rule := group .paren rule

def brackets (rule : Rule) : Rule := group .bracket rule

def braces (rule : Rule) : Rule := group .brace rule

/-- The rule again and again as long as the look agrees. -/
def whileLook (question : Look) (rule : Rule) : Rule := repeated do
  if ← look question then return (← rule, true) else return ([], false)

/-- The rule again and again until the group ends. -/
def untilEnd (rule : Rule) : Rule := whileLook (.not .end_) rule

/-- Items with a separator between them and perhaps behind the last, up to what
`done` recognises. -/
def upTo (done : Look) (item : Rule) (separator : String) : Rule := repeated do
  if ← look done then return ([], false)
  let found ← item
  if ← look done then return (found, false)
  return (found ++ (← op separator), true)

/-- Items with commas between them and perhaps behind the last, up to the end of the
group. -/
def commas (item : Rule) : Rule := upTo .end_ item ","

/-- Items as long as separators follow; none at all, and none behind a separator, where
`done` recognises what comes next. -/
def chain (done : Look) (item : Rule) (separator : String) : Rule := repeated do
  if ← look done then return ([], false)
  let found ← item
  if ← look (.op separator) then return (found ++ (← op separator), true)
  else return (found, false)

/-- What a rule takes, exactly as it is written. -/
def asWritten (rule : Reader α) : Rule := return (← written rule).2

end Rule

end CalleeFirst.Grammar
