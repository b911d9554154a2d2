import CalleeFirst.Log.Event
import CalleeFirst.Source.Reorder
import CalleeFirst.Text.Quoted

/-! What is said while members are ordered. -/
namespace CalleeFirst.Log

def kindText : DeclarationKind → String
  | .method => "Method"
  | .constructor => "Constructor"
  | .other => "Other"

def declarationEvent (d : Declaration) : Event :=
  let calls := ", ".intercalate (d.calls.toList.map Text.quoted)
  let kind := kindText d.kind
  { level := .debug, area := .ordering
    message :=
      s!"> {d.name} [{kind}, vis {d.visibilityRank}, #{d.sourceIndex}] calls \x7b{calls}\x7d" }

/-- What is said about the call of a name: an edge for every sibling that has it. -/
def callEvents (batch : List Declaration) (caller : Declaration) (name : String) : List Event :=
  match CallGraph.targets batch name with
  | [] => [⟨.trace, .callGraph, s!"{caller.name}: call to '{name}' has no sibling target"⟩]
  | callees => callees.map fun _ => ⟨.trace, .callGraph, s!"edge {caller.name} -> {name}"⟩

def graphEvents (batch : List Declaration) : List Event :=
  (batch.filter Declaration.callable).flatMap fun d => d.calls.toList.flatMap (callEvents batch d)

/-- What is said when a valid batch falls into groups. -/
def groupEvents (batch : List Declaration) (groups : List Group) : List Event :=
  let edges := (CallGraph.ofBatch batch).edges.length
  batch.map declarationEvent ++ graphEvents batch ++
    [⟨.debug, .ordering,
      s!"{batch.length} declarations, {edges} edges, {groups.length} components"⟩]

/-- What is said when a block is explained. -/
def explainEvents (settings : Settings) (b : Source.Block) : List Event :=
  match ((orderGroups .never settings b.declarations).outcome 0).1 with
  | .error _ => []
  | .ok groups => groupEvents b.declarations groups

/-- What is said when a block is ordered. -/
def orderEvents (settings : Settings) (b : Source.Block) : List Event :=
  match ((orderGroups .never settings b.declarations).outcome 0).1 with
  | .error _ => []
  | .ok groups =>
    let permutation := groups.flatMap Group.members
    let names := permutation.filterMap fun index => (b.declarations[index]?).map Declaration.name
    let listed := ", ".intercalate names
    groupEvents b.declarations groups ++ [⟨.debug, .ordering, s!"sorted: [{listed}]"⟩] ++
      if Outcome.isReordered ⟨permutation, none⟩ then
        [⟨.debug, .block, s!"{b.label}: reordered {permutation.length} members"⟩]
      else []

/-- What is said about the blocks of a source text; nothing if it is unreadable. -/
def sourceEvents (say : Settings → Source.Block → List Event) (options : Options)
    (source : List Char) : List Event :=
  match Source.blocks options.visibilityOrder source with
  | .error _ => []
  | .ok found => found.flatMap (say options.ordering)

end CalleeFirst.Log
