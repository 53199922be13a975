import Interlock.Text.Hex

/-!
# Values

The data of scripts and of answers, and their compact text.

  * `Value`: nothing, truth values, integers, texts, lists, and records with named fields;
  * `Value.ofFields` puts the fields of a record into the order of their names;
  * `Value.compact` writes a value without blanks. Two values are equal when their compact texts
    are, and answers are put into the order of those texts.
-/

namespace Interlock

/-- A value of a script or an answer. -/
inductive Value where
  | null
  | bool (b : Bool)
  | int (n : Int)
  | text (s : String)
  | list (items : List Value)
  | record (fields : List (String × Value))
  /-- A value given by its compact text. -/
  | written (s : String)

namespace Value

instance : Inhabited Value := ⟨null⟩

/-- Adds a field in the order of the names. -/
def insertField (name : String) (v : Value) : List (String × Value) → List (String × Value)
  | [] => [(name, v)]
  | (other, w) :: rest =>
    if name < other then (name, v) :: (other, w) :: rest
    else (other, w) :: insertField name v rest

/-- The record with these fields. -/
def ofFields (fields : List (String × Value)) : Value :=
  record (fields.foldr (fun field sorted => insertField field.1 field.2 sorted) [])

def tagged (name : String) (v : Value) : Value := record [(name, v)]

def field? (v : Value) (name : String) : Option Value :=
  match v with
  | record fields => (fields.find? (·.1 == name)).map (·.2)
  | _ => none

/-! ## Compact text -/

/-- How one character of a text is written. -/
def escape (c : Char) : List Char :=
  match c with
  | '"' => ['\\', '"']
  | '\\' => ['\\', '\\']
  | '\n' => ['\\', 'n']
  | '\r' => ['\\', 'r']
  | '\t' => ['\\', 't']
  | '\x08' => ['\\', 'b']
  | '\x0c' => ['\\', 'f']
  | c =>
    if c.toNat < 0x20 then
      ['\\', 'u', '0', '0'] ++ Hex.pair c.toNat
    else
      [c]

/-- A text between double quotes. -/
def compactText (s : String) : String :=
  "\"" ++ String.ofList (s.toList.flatMap escape) ++ "\""

mutual

def compact : Value → String
  | null => "null"
  | bool b => if b then "true" else "false"
  | int n => toString n
  | text s => compactText s
  | list items => "[" ++ compactItems items ++ "]"
  | record fields => "\x7b" ++ compactFields fields ++ "\x7d"
  | written s => s

/-- The items of a list, separated by commas. -/
def compactItems : List Value → String
  | [] => ""
  | [v] => v.compact
  | v :: rest => v.compact ++ "," ++ compactItems rest

/-- The fields of a record, separated by commas. -/
def compactFields : List (String × Value) → String
  | [] => ""
  | [(name, v)] => compactText name ++ ":" ++ v.compact
  | (name, v) :: rest => compactText name ++ ":" ++ v.compact ++ "," ++ compactFields rest

end

def same (v w : Value) : Bool := v.compact == w.compact

end Value

end Interlock
