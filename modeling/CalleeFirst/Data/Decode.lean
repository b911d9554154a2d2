import CalleeFirst.Data.Value
import CalleeFirst.Declaration
import CalleeFirst.Options

/-! Options and declarations as data.

A record is read by field name, and fields that are not known are passed over. Where
every field has a default, a missing one takes it. A list stands for a record too: its
items are the fields in order. A choice is the name of a case, or a record whose only
field has that name and holds nothing.

Data formats differ in what stands for holding nothing, in whether a list may be longer
than the record it stands for, and in whether a date is a record of its own. -/
namespace CalleeFirst.Data

structure Dialect where
  /-- Whether a value holds nothing. -/
  holdsNothing : Value → Bool
  /-- Whether surplus items of a list that stands for a record are passed over. -/
  surplusItems : Bool
  /-- Whether a date counts as a record, none of whose fields is known. -/
  datesAreRecords : Bool

/-- Nothing is `null`, and a list is at most as long as its record. -/
def Dialect.request : Dialect where
  holdsNothing
    | .null => true
    | _ => false
  surplusItems := false
  datesAreRecords := false

/-- Nothing is an empty table or array, and surplus items are passed over. -/
def Dialect.settingsFile : Dialect where
  holdsNothing
    | .record [] => true
    | .list [] => true
    | _ => false
  surplusItems := true
  datesAreRecords := true

abbrev Decoder (α : Type) := Value → Option α

def boolean : Decoder Bool
  | .bool value => some value
  | _ => none

def text : Decoder String
  | .text value => some value
  | _ => none

/-- How many numbers 64 bits can tell apart. -/
def wordCount : Nat := 18446744073709551616

/-- How many numbers 32 bits can tell apart. -/
def halfWordCount : Nat := 4294967296

/-- A whole number below `bound`. -/
def natural (bound : Nat) : Decoder Nat
  | .integer value => if 0 ≤ value && value < bound then some value.toNat else none
  | _ => none

def listOf (decode : Decoder α) : Decoder (List α)
  | .list items => items.mapM decode
  | _ => none

/-- One of several cases. -/
def choice (dialect : Dialect) (ofName? : String → Option α) : Decoder α
  | .text name => ofName? name
  | .record [(name, value)] => if dialect.holdsNothing value then ofName? name else none
  | _ => none

/-- The values of the fields of a record, `none` for a missing one. -/
def fieldsOf (dialect : Dialect) (names : List String) : Value → Option (List (Option Value))
  | .record fields => some (names.map fun name => field? name fields)
  | .list items =>
    if items.length ≤ names.length || dialect.surplusItems then
      some ((List.range names.length).map fun place => items[place]?)
    else none
  | .date => if dialect.datesAreRecords then some (names.map fun _ => none) else none
  | _ => none

/-- A field with a default. -/
def optionalField (decode : Decoder α) (default : α) : Option Value → Option α
  | some value => decode value
  | none => some default

def settings (dialect : Dialect) (value : Value) : Option Settings := do
  match ← fieldsOf dialect ["honor_visibility_grouping", "collation", "other_members"] value with
  | [group, collation, others] =>
    let default : Settings := {}
    return {
      groupByVisibility := ← optionalField boolean default.groupByVisibility group
      collation := ← optionalField (choice dialect Collation.ofName?) default.collation collation
      others := ← optionalField (choice dialect Placement.ofName?) default.others others }
  | _ => none

def visibilityOrder (dialect : Dialect) : Decoder VisibilityOrder :=
  listOf (choice dialect VisibilityClass.ofName?)

def options (dialect : Dialect) (value : Value) : Option Options := do
  match ← fieldsOf dialect ["ordering", "visibility_order"] value with
  | [ordering, order] =>
    let default : Options := {}
    return {
      ordering := ← optionalField (settings dialect) default.ordering ordering
      visibilityOrder := ← optionalField (visibilityOrder dialect) default.visibilityOrder order }
  | _ => none

/-- A declaration has no optional fields. -/
def declaration (value : Value) : Option Declaration := do
  match ← fieldsOf .request
    ["id", "kind", "name", "visibility_rank", "parameter_signatures", "original_index",
      "local_call_names"] value with
  | [some id, some kind, some name, some rank, some parameters, some index, some calls] =>
    return {
      id := ← natural wordCount id
      kind := ← choice .request DeclarationKind.ofName? kind
      name := ← text name
      visibilityRank := ← natural halfWordCount rank
      parameters := ← listOf text parameters
      sourceIndex := ← natural wordCount index
      calls := .ofList (← listOf text calls) }
  | _ => none

end CalleeFirst.Data
