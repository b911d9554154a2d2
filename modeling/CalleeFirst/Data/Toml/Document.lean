import CalleeFirst.Data.Toml.Scan
import CalleeFirst.Data.Toml.Table

/-! Settings documents.

A document is read line by line: comments, headers, and keys with their values, which
go into the table of the last header. `parse` yields the whole document as a record, or
nothing if it is malformed or says something twice. -/
namespace CalleeFirst.Data.Toml

open Scan

/-! ### Keys -/

/-- How deep values and keys may nest, less one. -/
def deepest : Nat := 80

def isBareKey (c : Char) : Bool := c.isAlphanum || c == '-' || c == '_'

def bareKey : Scan String := do
  let first ← one isBareKey
  let rest := (← get).takeWhile isBareKey
  skip isBareKey
  return String.ofList (first :: rest)

/-- A key: names with dots between them. Split into what stands before the last name,
and that name. -/
def key : Scan (List String × String) := do
  let names ← separated (blanks *> (basicText <|> literalText <|> bareKey) <* blanks) (char '.')
  match names.getLast? with
  | some last => if names.length < deepest then return (names.dropLast, last) else failure
  | none => failure

/-! ### Values -/

def boolean : Scan Value :=
  (do exactly "true"; return .bool true) <|> (do exactly "false"; return .bool false)

/-- A list; a comma may follow its last item. -/
def array (item : Scan Value) : Scan Value := do
  char '['
  let items ← separated (gap *> item <* gap) (char ',') <|> return []
  if !items.isEmpty then
    let _ ← optionally (char ',')
  gap
  char ']'
  return .list items

def keyValue (item : Scan Value) : Scan ((List String × String) × Value) := do
  let name ← key
  char '='
  blanks
  return (name, ← item)

/-- A table on one line; no comma follows its last entry. -/
def inlineTable (item : Scan Value) : Scan Value := do
  char '\x7b'
  let entries ← separated (blanks *> keyValue item <* blanks) (char ',') <|> return []
  blanks
  char '\x7d'
  let insert : Items → (List String × String) × Value → Option Items
    | items, ((path, name), value) => items.insert path name value
  match entries.foldlM insert [] with
  | some items => return .record (fieldValues items)
  | none => failure

/-- A value that nests less deep than the bound. -/
def value : Nat → Scan Value
  | 0 => failure
  | bound + 1 =>
    (.text <$> text)
      <|> boolean
      <|> date
      <|> real
      <|> integer
      <|> (if bound = 0 then failure else array (value bound))
      <|> (if bound = 0 then failure else inlineTable (value bound))

/-! ### Lines -/

structure Document where
  items : Items
  /-- The header that the next keys belong to. -/
  header : List String

def Document.empty : Document := ⟨[], []⟩

/-- A header, of one table or of a table in a list. -/
def header (d : Document) : Scan Document := do
  char '['
  let listed ← optionally (char '[')
  let (path, name) ← key
  char ']'
  if listed then char ']'
  match if listed then d.items.addTable path name else d.items.openTable path name with
  | some items => return { items, header := path ++ [name] }
  | none => failure

def entry (d : Document) : Scan Document := do
  let ((path, name), value) ← keyValue (value deepest)
  match d.items.insertBelow d.header path name value with
  | some items => return { d with items }
  | none => failure

/-- The lines of a document, at most as many as the bound. -/
def lines : Nat → Document → Scan Document
  | 0, _ => failure
  | bound + 1, d => do
    blanks
    match ← next? with
    | none => return d
    | some '[' => let d ← header d; lineEnd; lines bound d
    | some '#' | some '\n' | some '\r' => lineEnd; lines bound d
    | some _ => let d ← entry d; lineEnd; lines bound d

def document : Scan Document := do
  let _ ← optionally (char '\ufeff')
  lines ((← get).length + 1) .empty

def parse (source : String) : Option Value :=
  (document.run source.toList).map fun (d, _) => .record (fieldValues d.items)

end CalleeFirst.Data.Toml
