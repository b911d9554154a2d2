import CalleeFirst.Data.Value

/-! Tables of a settings document.

A document builds its tables bit by bit: by headers, by keys with dots, and by what
both imply on the way. A table may be headed once, keys with dots may extend only what
such keys began, and no value is ever given twice. How a table came to be is therefore
remembered while the document is read, and forgotten in the value that it yields. -/
namespace CalleeFirst.Data.Toml

/-- How a table came to be. -/
inductive Origin where
  /-- By a header of its own. -/
  | headed
  /-- On the way to a longer header. -/
  | implied
  /-- By a key with dots. -/
  | dotted
  deriving Repr, DecidableEq

inductive Item where
  | value (value : Value)
  | table (origin : Origin) (items : List (String × Item))
  /-- A list of headed tables; what follows its header belongs to the last. -/
  | tables (tables : List (List (String × Item)))

abbrev Items := List (String × Item)

namespace Items

def item? (items : Items) (key : String) : Option Item := items.lookup key

/-- Replaces the item of a key, or adds it at the end. -/
def put (items : Items) (key : String) (item : Item) : Items :=
  if (item? items key).isSome then
    items.map fun entry => if entry.1 == key then (key, item) else entry
  else items ++ [(key, item)]

/-- Changes the table at the end of a path. Tables that are missing on the way get the
origin `fresh`; a path of dotted keys does not enter a headed table. -/
def descend (fresh : Origin) (change : Origin → Items → Option Items) :
    (origin : Origin) → Items → (path : List String) → Option Items
  | origin, items, [] => change origin items
  | _, items, key :: path =>
    match item? items key with
    | none => return put items key (.table fresh (← descend fresh change fresh [] path))
    | some (.value _) => none
    | some (.tables tables) => do
      let last ← tables.getLast?
      return put items key (.tables (tables.dropLast ++ [← descend fresh change .headed last path]))
    | some (.table origin inner) =>
      if fresh = .dotted && origin = .headed then none
      else return put items key (.table origin (← descend fresh change origin inner path))

/-- Adds a value under a key whose dotted part is `path`. -/
def insert (items : Items) (path : List String) (key : String) (value : Value) : Option Items :=
  descend .dotted
    (fun origin table =>
      if (origin == .dotted) == path.isEmpty || (item? table key).isSome then none
      else some (table ++ [(key, .value value)]))
    .headed items path

/-- Opens the table of a header. -/
def openTable (items : Items) (path : List String) (key : String) : Option Items :=
  descend .implied
    (fun _ table => match item? table key with
      | none => some (table ++ [(key, .table .headed [])])
      | some (.table .implied inner) => some (put table key (.table .headed inner))
      | some _ => none)
    .headed items path

/-- Adds a table to the list of a header. -/
def addTable (items : Items) (path : List String) (key : String) : Option Items :=
  descend .implied
    (fun _ table => match item? table key with
      | none => some (table ++ [(key, .tables [[]])])
      | some (.tables tables) => some (put table key (.tables (tables ++ [[]])))
      | some _ => none)
    .headed items path

/-- Adds a value to the table that a header opened. -/
def insertBelow (items : Items) (header : List String) (path : List String) (key : String)
    (value : Value) : Option Items :=
  descend .implied (fun _ table => insert table path key value) .headed items header

end Items

mutual

/-- What an item is once it is complete. -/
def Item.toValue : Item → Value
  | .value value => value
  | .table _ items => .record (fieldValues items)
  | .tables tables => .list (tableValues tables)

def fieldValues : List (String × Item) → List (String × Value)
  | [] => []
  | entry :: rest => fieldValue entry :: fieldValues rest

def fieldValue : String × Item → String × Value
  | (key, item) => (key, item.toValue)

def tableValues : List (List (String × Item)) → List Value
  | [] => []
  | items :: rest => .record (fieldValues items) :: tableValues rest

end

end CalleeFirst.Data.Toml
