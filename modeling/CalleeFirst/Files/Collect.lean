import CalleeFirst.Files.Disk

/-! The source files that paths stand for.

A path to a file stands for that file, whatever its name. A path to a directory stands
for the source files below it, except in build output and hidden directories. Files come
in the order of their paths, each once. -/
namespace CalleeFirst.Files

/-- Whether a name has the extension of a source file, and something before it. -/
def isSourceName (name : String) : Bool :=
  ".rs".toList.isSuffixOf name.toList && 3 < name.length

/-- Directories that are not entered. -/
def isSkipped (name : String) : Bool := name == "target" || name.toList.head? == some '.'

mutual

/-- The source files below an entry whose path is given. -/
def sourcesBelow (p : Path) : Entry → List Path
  | .file _ => []
  | .directory entries => sourcesAmong p entries

def sourcesAmong (p : Path) : List (String × Entry) → List Path
  | [] => []
  | entry :: rest => sourcesOf p entry ++ sourcesAmong p rest

/-- The source files that an entry of a directory brings. -/
def sourcesOf (p : Path) : String × Entry → List Path
  | (name, .file _) => if isSourceName name then [p.child name] else []
  | (name, .directory entries) =>
    if isSkipped name then [] else sourcesAmong (p.child name) entries

end

/-- What one path stands for; nothing if there is neither a file nor a directory. -/
def sourcesAt (d : Disk) (p : Path) : Except Path (List Path) :=
  match d.entry p with
  | .ok (.file _) => .ok [p]
  | .ok e => .ok (sourcesBelow p e)
  | .error _ => .error p

/-- Drops every path that is the same as the one before it. -/
def dropRepeats : List Path → List Path
  | p :: q :: rest => if p.same q then dropRepeats (p :: rest) else p :: dropRepeats (q :: rest)
  | paths => paths

/-- The files that paths stand for, or the first path that stands for none. -/
def collect (d : Disk) (paths : List Path) : Except Path (List Path) := do
  let found ← paths.mapM (sourcesAt d)
  return dropRepeats (found.flatten.mergeSort fun p q => p.compare q != .gt)

end CalleeFirst.Files
