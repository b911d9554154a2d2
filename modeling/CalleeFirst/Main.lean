import CalleeFirst.Command.Run

/-! The program.

Everything that a run may look at is read first, then the run is computed, and then what
it changed is written and what it says is printed. -/
namespace CalleeFirst

open Command (Invocation Remark Response Surroundings)
open Files (Disk Entry)

/-- Reads an entry as far as a search for source files goes into it. -/
partial def loadEntry (base : Files.Path) : IO Entry := do
  let place := (← IO.currentDir) / base.text
  if !(← place.isDir) then return .file (← IO.FS.readBinFile place)
  let mut entries := []
  for found in ← place.readDir do
    let name := found.fileName
    let inner := base.child name
    match (← ((← IO.currentDir) / inner.text).symlinkMetadata).type with
    | .dir => if !Files.isSkipped name then entries := (name, ← loadEntry inner) :: entries
    | .file => if Files.isSourceName name then entries := (name, ← loadEntry inner) :: entries
    | _ => pure ()
  return .directory entries

/-- The disk with everything that a path leads to, if it leads anywhere. -/
def withEntry (disk : Disk) (path : Files.Path) : IO Disk := do
  if path.text = "" || !(← ((← IO.currentDir) / path.text).pathExists) then return disk
  try return disk.put path (← loadEntry path) catch _ => return disk

/-- The disk with a settings file; a directory in its place is not entered. -/
def withFile (disk : Disk) (path : Files.Path) : IO Disk := do
  if ← ((← IO.currentDir) / path.text).isDir then return disk.put path (.directory [])
  withEntry disk path

/-- The directory of the user's settings. -/
def findSettingsHome : IO (Option Files.Path) := do
  match ← IO.getEnv "XDG_CONFIG_HOME" with
  | some home => if (Files.Path.mk home).isAbsolute then return some ⟨home⟩
  | none => pure ()
  return (← IO.getEnv "HOME").map fun home => (Files.Path.mk home).child ".config"

def loadSurroundings (words : List String) : IO Surroundings := do
  let here := ((Files.Path.mk (← IO.currentDir).toString).parts).filter (· != "")
  let settingsHome ← findSettingsHome
  let logFilter := (← IO.getEnv "RUST_LOG").getD ""
  let empty : Disk := ⟨(Entry.directory []).put here (.directory []), here⟩
  let disk ← match Command.readArguments words with
    | .error _ => pure empty
    | .ok ⟨_, given⟩ => do
      let disk ← given.arguments.foldlM withEntry empty
      let places := given.configuration.elim (Command.configurationPlaces settingsHome) ([·])
      places.foldlM withFile disk
  return { disk, settingsHome, logFilter }

/-- Writes the files whose text is another one after the run. -/
def storeChanges (before after : Disk) (words : List String) : IO Unit := do
  let .ok invocation := Command.readArguments words | return
  let .ok files := Files.collect before invocation.given.arguments | return
  for path in files do
    match before.read path, after.read path with
    | .ok old, .ok new =>
      if old ≠ new then IO.FS.writeFile ((← IO.currentDir) / path.text) new
    | _, _ => pure ()

/-- Milliseconds with two decimals. -/
def milliseconds (nanoseconds : Nat) : String :=
  let hundredths := (nanoseconds + 5000) / 10000
  let decimals := hundredths % 100
  s!"{hundredths / 100}." ++ (if decimals < 10 then "0" else "") ++ s!"{decimals}ms"

def printRemark : Remark → IO Unit
  | .logged event => IO.eprintln event.line
  | .failed line => IO.eprintln line
  | .advice text => IO.eprint text

end CalleeFirst

open CalleeFirst in
def main (words : List String) : IO UInt32 := do
  let start ← IO.monoNanosNow
  let surroundings ← loadSurroundings words
  let response := Command.run surroundings words
  storeChanges surroundings.disk response.disk words
  response.remarks.forM printRemark
  let elapsed := milliseconds ((← IO.monoNanosNow) - start)
  IO.print (response.rendered elapsed)
  return response.code.toUInt32
