import CalleeFirst.Text.Quoted

/-! Documents that other programs read.

`Json.pretty` lays a document out over lines, two columns deeper at every level, fields
in the order in which they are given. -/
namespace CalleeFirst.Data

inductive Json where
  | bool (value : Bool)
  | number (value : Nat)
  | string (value : String)
  | array (items : List Json)
  | object (fields : List (String × Json))

namespace Json

/-- A character inside a string: only quotes, backslashes and control characters are
escaped. -/
def escapeChar (c : Char) : List Char :=
  match c with
  | '"' => ['\\', '"']
  | '\\' => ['\\', '\\']
  | '\x08' => ['\\', 'b']
  | '\x0c' => ['\\', 'f']
  | '\n' => ['\\', 'n']
  | '\r' => ['\\', 'r']
  | '\t' => ['\\', 't']
  | _ =>
    if c < ' ' then
      let digits := Text.hexDigits c.toNat
      ['\\', 'u'] ++ List.replicate (4 - digits.length) '0' ++ digits
    else [c]

def quote (text : String) : String :=
  String.ofList ('"' :: text.toList.flatMap escapeChar ++ ['"'])

/-- Parts between brackets, one to a line. -/
def bracketed (left right : String) (indent : Nat) : List String → String
  | [] => left ++ right
  | parts =>
    let margin := String.ofList (List.replicate indent ' ')
    let lines := parts.map fun part => margin ++ "  " ++ part
    left ++ "\n" ++ ",\n".intercalate lines ++ "\n" ++ margin ++ right

mutual

def layOut (indent : Nat) : Json → String
  | bool value => if value then "true" else "false"
  | number value => toString value
  | string value => quote value
  | array items => bracketed "[" "]" indent (layOutItems (indent + 2) items)
  | object fields => bracketed "\x7b" "\x7d" indent (layOutFields (indent + 2) fields)

def layOutItems (indent : Nat) : List Json → List String
  | [] => []
  | item :: rest => layOut indent item :: layOutItems indent rest

def layOutFields (indent : Nat) : List (String × Json) → List String
  | [] => []
  | field :: rest => layOutField indent field :: layOutFields indent rest

def layOutField (indent : Nat) : String × Json → String
  | (name, value) => quote name ++ ": " ++ layOut indent value

end

def pretty (document : Json) : String := layOut 0 document

end Json

end CalleeFirst.Data
