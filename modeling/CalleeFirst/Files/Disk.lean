import CalleeFirst.Files.Path

/-! Files and directories.

A disk is a tree of entries together with the directory that relative paths start from.
A path is followed part by part: every part but the last must lead to a directory, and
an empty part or a dot stays where it is, which only a directory allows. -/
namespace CalleeFirst.Files

inductive Entry where
  | file (content : ByteArray)
  | directory (entries : List (String × Entry))

/-- Why a path does not lead to a text. -/
inductive AccessFault where
  | missing
  /-- A file on the way, where a directory is needed. -/
  | notDirectory
  | isDirectory
  | notText
  deriving Repr, DecidableEq

def AccessFault.message : AccessFault → String
  | missing => "No such file or directory (os error 2)"
  | notDirectory => "Not a directory (os error 20)"
  | isDirectory => "Is a directory (os error 21)"
  | notText => "stream did not contain valid UTF-8"

namespace Entry

def isDirectory : Entry → Bool
  | directory _ => true
  | file _ => false

def children : Entry → List (String × Entry)
  | directory entries => entries
  | file _ => []

def child? (e : Entry) (name : String) : Option Entry := e.children.lookup name

/-- The entry at the end of a list of names. -/
def at? : Entry → List String → Option Entry
  | e, [] => some e
  | e, name :: rest => (e.child? name).bind (at? · rest)

/-- The entry with a child replaced or added. -/
def putChild (e : Entry) (name : String) (new : Entry) : Entry :=
  if (e.child? name).isSome then
    directory (e.children.map fun old => if old.1 == name then (name, new) else old)
  else directory (e.children ++ [(name, new)])

/-- Puts an entry at the end of a list of names; directories on the way are made. -/
def put : Entry → List String → Entry → Entry
  | _, [], new => new
  | e, name :: rest, new =>
    e.putChild name (((e.child? name).getD (directory [])).put rest new)

def remove : Entry → List String → Entry
  | e, [] => e
  | e, [name] => directory (e.children.filter fun old => old.1 != name)
  | e, name :: rest =>
    match e.child? name with
    | some inner => e.putChild name (inner.remove rest)
    | none => e

end Entry

structure Disk where
  root : Entry
  /-- Where relative paths start, as names from the root. -/
  here : List String

namespace Disk

/-- Where a path starts, and the parts that are followed from there. -/
def route (d : Disk) (p : Path) : List String × List String :=
  if p.isAbsolute then ([], p.parts.drop 1) else (d.here, p.parts)

/-- One part further, whatever is there. -/
def onward (place : List String) (part : String) : List String :=
  if part = "" || part = "." then place
  else if part = ".." then place.dropLast
  else place ++ [part]

/-- Where a path leads, as names from the root. -/
def location (d : Disk) (p : Path) : List String :=
  let (start, parts) := d.route p
  parts.foldl onward start

def follow (d : Disk) (place : List String) : List String → Except AccessFault Entry
  | [] => (d.root.at? place).elim (.error .missing) .ok
  | part :: rest =>
    match d.root.at? place with
    | none => .error .missing
    | some (.file _) => .error .notDirectory
    | some (.directory _) => d.follow (onward place part) rest

/-- The entry that a path leads to. -/
def entry (d : Disk) (p : Path) : Except AccessFault Entry :=
  if p.text = "" then .error .missing
  else
    let (start, parts) := d.route p
    d.follow start parts

def holds (d : Disk) (p : Path) : Bool := (d.entry p).isOk

/-- The text of a file. -/
def read (d : Disk) (p : Path) : Except AccessFault String :=
  match d.entry p with
  | .error fault => .error fault
  | .ok (.directory _) => .error .isDirectory
  | .ok (.file content) => (String.fromUTF8? content).elim (.error .notText) .ok

/-- The disk with an entry put where a path leads. -/
def put (d : Disk) (p : Path) (new : Entry) : Disk :=
  { d with root := d.root.put (d.location p) new }

def write (d : Disk) (p : Path) (text : String) : Disk := d.put p (.file text.toUTF8)

def remove (d : Disk) (p : Path) : Disk := { d with root := d.root.remove (d.location p) }

end Disk

end CalleeFirst.Files
