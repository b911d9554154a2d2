/-! Paths, as a user writes them.

A path keeps its text, but is compared by its components: repeated and trailing slashes
do not count, and neither does a dot unless it stands first. -/
namespace CalleeFirst.Files

inductive Component where
  | root
  /-- A dot at the start of the path. -/
  | here
  | parent
  | name (text : String)
  deriving Repr, DecidableEq

namespace Component

def kindRank : Component → Nat
  | root => 0
  | here => 1
  | parent => 2
  | name _ => 3

def text : Component → String
  | name text => text
  | _ => ""

/-- By kind, and names by their code points. -/
def compare (a b : Component) : Ordering :=
  (Ord.compare a.kindRank b.kindRank).then (Ord.compare a.text b.text)

end Component

/-- What stands between the slashes of a text. -/
def splitAtSlashes : List Char → List (List Char)
  | [] => [[]]
  | '/' :: rest => [] :: splitAtSlashes rest
  | c :: rest =>
    match splitAtSlashes rest with
    | first :: others => (c :: first) :: others
    | [] => [[c]]

structure Path where
  text : String
  deriving Repr, DecidableEq

namespace Path

def parts (p : Path) : List String := (splitAtSlashes p.text.toList).map String.ofList

def isAbsolute (p : Path) : Bool := p.text.toList.head? == some '/'

/-- A part that does not stand first. -/
def laterComponent? (part : String) : Option Component :=
  if part = "" || part = "." then none
  else if part = ".." then some .parent
  else some (.name part)

def components (p : Path) : List Component :=
  match p.parts with
  | [] => []
  | first :: rest =>
    let start :=
      if p.isAbsolute then [.root]
      else if first = "." then [.here]
      else (laterComponent? first).toList
    start ++ rest.filterMap laterComponent?

def compare (p q : Path) : Ordering := compareComponents p.components q.components
where
  compareComponents : List Component → List Component → Ordering
    | [], [] => .eq
    | [], _ :: _ => .lt
    | _ :: _, [] => .gt
    | a :: as, b :: bs => (a.compare b).then (compareComponents as bs)

/-- Whether two paths have the same components. -/
def same (p q : Path) : Bool := p.components == q.components

/-- The path of an entry of a directory. -/
def child (p : Path) (name : String) : Path :=
  if p.text = "" || p.text.toList.getLast? == some '/' then ⟨p.text ++ name⟩
  else ⟨p.text ++ "/" ++ name⟩

end Path

end CalleeFirst.Files
