/-! Values of data formats.

One type for what a data file or a request can hold. A date is told apart from other
texts because only some readers take one. -/
namespace CalleeFirst.Data

inductive Value where
  | null
  | bool (value : Bool)
  | integer (value : Int)
  /-- Any number with a point or an exponent; no reader takes one. -/
  | real
  | text (value : String)
  | date
  | list (items : List Value)
  | record (fields : List (String × Value))

def field? (name : String) (fields : List (String × Value)) : Option Value :=
  (fields.find? fun field => field.1 == name).map Prod.snd

end CalleeFirst.Data
