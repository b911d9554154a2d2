import CalleeFirst.Data.Decode
import CalleeFirst.Data.Toml.Document
import CalleeFirst.Files.Disk
import CalleeFirst.Log.Event

/-! Where the options of a run come from.

A file that the user names, else one in the working directory, else one among the user's
settings, else the defaults. What the command line says goes on top. -/
namespace CalleeFirst.Command

open Files (Disk)
open Log (Event)

def configurationName : String := "depsort.toml"

inductive ConfigurationFault where
  | notFound (path : Files.Path)
  | unreadable (path : Files.Path)
  | invalid (path : Files.Path)
  deriving Repr, DecidableEq

def ConfigurationFault.message : ConfigurationFault → String
  | notFound path => s!"Config file not found: {path.text}"
  | unreadable path => s!"Failed to read config {path.text}"
  | invalid path => s!"Invalid config {path.text}"

/-- What the command line says about the ordering. -/
structure Overrides where
  ignoreVisibility : Bool := false
  collation : Option Collation := none
  deriving Repr, DecidableEq

def Overrides.apply (o : Overrides) (options : Options) : Options :=
  { options with ordering := { options.ordering with
      groupByVisibility := options.ordering.groupByVisibility && !o.ignoreVisibility
      collation := o.collation.getD options.ordering.collation } }

/-- The options that a file holds. -/
def loadConfiguration (d : Disk) (path : Files.Path) : Except ConfigurationFault Options :=
  match d.read path with
  | .error _ => .error (.unreadable path)
  | .ok text =>
    ((Data.Toml.parse text).bind (Data.options .settingsFile)).elim (.error (.invalid path)) .ok

/-- Where a file is looked for that the user did not name. -/
def configurationPlaces (settingsHome : Option Files.Path) : List Files.Path :=
  ⟨configurationName⟩ ::
    (settingsHome.map fun home => (home.child "depsort").child configurationName).toList

/-- The options before the command line is considered, and what is said about them. -/
def findConfiguration (d : Disk) (settingsHome : Option Files.Path) :
    Option Files.Path → Except ConfigurationFault Options × List Event
  | some path => (if d.holds path then loadConfiguration d path else .error (.notFound path), [])
  | none =>
    match (configurationPlaces settingsHome).find? d.holds with
    | some path =>
      (loadConfiguration d path, [⟨.debug, .settings, s!"Using config {path.text}"⟩])
    | none => (.ok {}, [])

/-- The options of a run, and what is said about them. -/
def resolveConfiguration (d : Disk) (settingsHome : Option Files.Path) (named : Option Files.Path)
    (overrides : Overrides) : Except ConfigurationFault Options × List Event :=
  let (found, events) := findConfiguration d settingsHome named
  (found.map overrides.apply, events)

end CalleeFirst.Command
