import CalleeFirst.Files.Disk
import CalleeFirst.Log.Ordering
import CalleeFirst.Source.Reorder

/-! Ordering files.

A file is examined first, which changes nothing, and then perhaps written. A batch of
files is worked through to its end even if some of them fail; it has reports only if none
does. -/
namespace CalleeFirst.Command

open Files (AccessFault Disk)
open Log (Event)
open Source (BlockReport SourceFault)

/-- Why a file is not ordered. -/
inductive FileFault where
  | unreadable (path : Files.Path) (fault : AccessFault)
  | source (fault : SourceFault)
  deriving Repr, DecidableEq

def FileFault.message : FileFault → String
  | unreadable path fault => s!"Failed to read file {path.text}: {fault.message}"
  | source fault => fault.message

/-- What a file comes to when it is ordered. -/
structure Examination where
  path : Files.Path
  changed : Bool
  blocks : List BlockReport
  text : String

/-- What is reported of a file; the text only if the file was not to be written. -/
structure FileReport where
  path : Files.Path
  changed : Bool
  blocks : List BlockReport
  text : Option String

def Examination.report (write : Bool) (e : Examination) : FileReport :=
  { path := e.path, changed := e.changed, blocks := e.blocks
    text := if write then none else some e.text }

/-- Orders a file without writing it. -/
def examine (d : Disk) (options : Options) (path : Files.Path) : Except FileFault Examination :=
  match d.read path with
  | .error fault => .error (.unreadable path fault)
  | .ok text =>
    match (Source.reorder options .never text.toList).1 with
    | .error fault => .error (.source fault)
    | .ok r => .ok
      { path, changed := r.changed, blocks := r.blocks, text := String.ofList r.text }

/-- Writes what an examination found, if anything changed. -/
def store (d : Disk) (e : Examination) : Disk :=
  if e.changed then d.write e.path e.text else d

/-- Orders a file, and writes it if asked to. -/
def sortFile (options : Options) (write : Bool) (d : Disk) (path : Files.Path) :
    Except FileFault FileReport × Disk :=
  match examine d options path with
  | .error fault => (.error fault, d)
  | .ok e => (.ok (e.report write), if write then store d e else d)

/-- What is said while a file is ordered. -/
def fileEvents (options : Options) (write : Bool) (d : Disk) (path : Files.Path) : List Event :=
  match d.read path with
  | .error _ => []
  | .ok text =>
    Log.sourceEvents Log.orderEvents options text.toList ++
      match examine d options path with
      | .ok e =>
        if write && e.changed then [⟨.info, .file, s!"Rewrote {path.text}"⟩] else []
      | .error _ => []

/-! ### Batches -/

/-- Orders files one after the other. -/
def sortEach (options : Options) (write : Bool) :
    Disk → List Files.Path → List (Except FileFault FileReport) × Disk
  | d, [] => ([], d)
  | d, path :: rest =>
    let (result, d) := sortFile options write d path
    let (results, d) := sortEach options write d rest
    (result :: results, d)

def batchEvents (options : Options) (write : Bool) : Disk → List Files.Path → List Event
  | _, [] => []
  | d, path :: rest =>
    fileEvents options write d path ++
      batchEvents options write (sortFile options write d path).2 rest

def reportsOf (results : List (Except FileFault FileReport)) : List FileReport :=
  results.filterMap fun
    | .ok report => some report
    | .error _ => none

def faultsOf (results : List (Except FileFault FileReport)) : List FileFault :=
  results.filterMap fun
    | .ok _ => none
    | .error fault => some fault

/-- How a batch went. -/
structure BatchResult where
  disk : Disk
  reports : List FileReport
  faults : List FileFault

/-- Orders a batch of files. -/
def sortAll (options : Options) (write : Bool) (d : Disk) (paths : List Files.Path) : BatchResult :=
  let (results, disk) := sortEach options write d paths
  { disk, reports := reportsOf results, faults := faultsOf results }

def faultEvent (fault : FileFault) : Event := ⟨.warn, .batch, fault.message⟩

def unprocessed (count : Nat) : String := s!"{count} file(s) could not be processed"

/-- The reports of a batch in which no file failed. -/
def BatchResult.conclusion (b : BatchResult) : Except String (List FileReport) :=
  if b.faults.isEmpty then .ok b.reports else .error (unprocessed b.faults.length)

end CalleeFirst.Command
