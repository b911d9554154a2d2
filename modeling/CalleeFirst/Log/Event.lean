/-! What a run says about itself.

An event has a level, an area of the program, and a message. -/
namespace CalleeFirst.Log

/-- From the gravest to the most detailed. -/
inductive Level where
  | error
  | warn
  | info
  | debug
  | trace
  deriving Repr, DecidableEq

namespace Level

def verbosity : Level → Nat
  | error => 1
  | warn => 2
  | info => 3
  | debug => 4
  | trace => 5

def name : Level → String
  | error => "ERROR"
  | warn => "WARN"
  | info => "INFO"
  | debug => "DEBUG"
  | trace => "TRACE"

end Level

/-- Where an event comes from. -/
inductive Area where
  | callGraph
  | ordering
  | block
  | file
  | settings
  | batch
  deriving Repr, DecidableEq

/-- The name by which a user selects an area. -/
def Area.name : Area → String
  | callGraph => "depsort_core::graph::call_graph"
  | ordering => "depsort_core::order::engine"
  | block => "depsort_rust::host"
  | file => "depsort_rust::apply"
  | settings => "depsort::config"
  | batch => "depsort::sort"

structure Event where
  level : Level
  area : Area
  message : String
  deriving Repr, DecidableEq

def Event.line (e : Event) : String := e.level.name ++ " " ++ e.message

end CalleeFirst.Log
