import CalleeFirst.Command.Batch
import CalleeFirst.Command.Help
import CalleeFirst.Data.Json
import CalleeFirst.Files.Collect
import CalleeFirst.Log.Filter

/-! A run of the program.

`run` takes the words of the command line and the surroundings, and says everything that
the run does: its exit code, what it prints, what it remarks, and the disk afterwards.
Only the time that a run takes is left open in what it prints. -/
namespace CalleeFirst.Command

open Files (Disk)
open Log (Event Filter)

/-- What a run sees of the world. -/
structure Surroundings where
  disk : Disk
  /-- The directory of the user's settings. -/
  settingsHome : Option Files.Path
  /-- The filter that the user wishes for the log. -/
  logFilter : String

inductive Piece where
  | text (text : String)
  /-- The time that the run took. -/
  | elapsed
  deriving Repr, DecidableEq

def Piece.render (time : String) : Piece → String
  | .text printed => printed
  | .elapsed => time

/-- What is said beside the output. -/
inductive Remark where
  | logged (event : Event)
  | failed (line : String)
  /-- Help, and hints to it. -/
  | advice (text : String)
  deriving Repr, DecidableEq

structure Response where
  code : Nat
  output : List Piece
  remarks : List Remark
  disk : Disk

namespace Response

def rendered (r : Response) (elapsed : String) : String :=
  String.join (r.output.map (Piece.render elapsed))

/-- The lines that report failures. -/
def failures (r : Response) : List String :=
  r.remarks.filterMap fun
    | .failed line => some line
    | _ => none

/-- The lines of the log. -/
def log (r : Response) : List String :=
  r.remarks.filterMap fun
    | .logged event => some event.line
    | _ => none

end Response

/-- How a command ends. -/
structure Ending where
  code : Nat := 0
  output : List Piece := []
  remarks : List Remark := []
  disk : Disk

def Ending.failing (disk : Disk) (remarks : List Remark) (message : String) : Ending :=
  { code := 1, remarks := remarks ++ [.failed s!"Error: {message}"], disk }

def pathNotFound (path : Files.Path) : String := s!"Path not found: {path.text}"

/-! ### The commands -/

/-- What is remarked about a batch: its events, and then every fault. -/
def batchRemarks (events : List Event) (faults : List FileFault) : List Remark :=
  events.map .logged ++
    faults.flatMap fun fault =>
      [.logged (faultEvent fault), .failed s!"error: {fault.message}"]

/-- Orders the files that paths stand for, and ends as `finish` says unless one fails. -/
def overFiles (options : Options) (write : Bool) (disk : Disk) (paths : List Files.Path)
    (finish : List FileReport → Nat × List Piece) : Ending :=
  let result := sortAll options write disk paths
  let remarks := batchRemarks (batchEvents options write disk paths) result.faults
  match result.conclusion with
  | .ok reports =>
    let (code, output) := finish reports
    { code, output, remarks, disk := result.disk }
  | .error message => .failing result.disk remarks message

def sortSummary (reports : List FileReport) : Nat × List Piece :=
  let changed := reports.filter FileReport.changed
  (0, changed.map (fun report => .text s!"sorted {report.path.text}\n") ++
    [.text s!"{reports.length} file(s) checked, {changed.length} rewritten (", .elapsed,
      .text ")\n"])

def blockMention (b : Source.BlockReport) : String := s!"{b.label} (line {b.line})"

def checkLine (report : FileReport) : String :=
  let blocks := ", ".intercalate ((report.blocks.filter (·.moved)).map blockMention)
  s!"{report.path.text}: {blocks}\n"

def checkSummary (reports : List FileReport) : Nat × List Piece :=
  match reports.filter FileReport.changed with
  | [] => (0, [.text s!"{reports.length} file(s) already sorted\n"])
  | changed => (1, changed.map (.text ∘ checkLine))

/-- Prints one file in order, without writing it. -/
def sortToOutput (options : Options) (disk : Disk) : List Files.Path → Ending
  | [path] =>
    let remarks := (fileEvents options false disk path).map .logged
    match (sortFile options false disk path).1 with
    | .error fault => .failing disk remarks fault.message
    | .ok report => { output := [.text (report.text.getD "")], remarks, disk }
  | paths => .failing disk [] s!"--stdout needs exactly one file, got {paths.length}"

def memberJson (m : Source.MemberSummary) : Data.Json :=
  .object [("name", .string m.name), ("kind", .string m.kind.name),
    ("visibility", .string m.visibility.name), ("line", .number m.line)]

def groupJson (g : Source.GroupExplanation) : Data.Json :=
  .object [("cyclic", .bool g.cyclic), ("members", .array (g.members.map memberJson))]

def blockJson (b : Source.BlockExplanation) : Data.Json :=
  .object [("label", .string b.label), ("line", .number b.line),
    ("groups", .array (b.groups.map groupJson))]

def explainFile (options : Options) (disk : Disk) (path : Files.Path) : Ending :=
  match disk.read path with
  | .error _ => .failing disk [] s!"Failed to read {path.text}"
  | .ok text =>
    let remarks := (Log.sourceEvents Log.explainEvents options text.toList).map .logged
    match Source.explain options text.toList with
    | .error fault => .failing disk remarks fault.message
    | .ok blocks =>
      { output := [.text ((Data.Json.array (blocks.map blockJson)).pretty ++ "\n")], remarks, disk }

/-- Runs a command whose options are known. -/
def perform (invocation : Invocation) (options : Options) (disk : Disk) : Ending :=
  match invocation.command, invocation.given.arguments with
  | .explain, path :: _ => explainFile options disk path
  | .explain, [] => { disk }
  | .sort, paths =>
    match Files.collect disk paths with
    | .error path => .failing disk [] (pathNotFound path)
    | .ok files =>
      if invocation.given.toOutput then sortToOutput options disk files
      else overFiles options true disk files sortSummary
  | .check, paths =>
    match Files.collect disk paths with
    | .error path => .failing disk [] (pathNotFound path)
    | .ok files => overFiles options false disk files checkSummary

/-! ### The program -/

def Surroundings.filter (s : Surroundings) (verbose : Bool) : Filter :=
  .ofText (if verbose then .debug else .warn) s.logFilter

/-- The remarks that a filter lets pass. -/
def shown (filter : Filter) (remarks : List Remark) : List Remark :=
  remarks.filter fun
    | .logged event => filter.admits event
    | _ => true

def invoke (s : Surroundings) (invocation : Invocation) : Response :=
  let given := invocation.given
  let (found, events) := resolveConfiguration s.disk s.settingsHome given.configuration
    ⟨given.ignoreVisibility, given.collation⟩
  let ending : Ending := match found with
    | .error fault => .failing s.disk [] fault.message
    | .ok options => perform invocation options s.disk
  { code := ending.code, output := ending.output, disk := ending.disk
    remarks := shown (s.filter given.verbose) (events.map .logged ++ ending.remarks) }

/-- What is answered when the command line asks for nothing to be done. -/
def respond (disk : Disk) : Stop → Response
  | .help scope => { code := 0, output := [.text (helpText scope)], remarks := [], disk }
  | .version => { code := 0, output := [.text versionText], remarks := [], disk }
  | .fault fault =>
    let remarks := match fault.message? with
      | none => [.advice (helpText none)]
      | some message =>
        [.failed s!"error: {message}", .advice "\nFor more information, try '--help'.\n"]
    { code := 2, output := [], remarks, disk }

/-- A run of the program. -/
def run (s : Surroundings) (words : List String) : Response :=
  match readArguments words with
  | .error stop => respond s.disk stop
  | .ok invocation => invoke s invocation

end CalleeFirst.Command
