import FiberWeave.Bytes

/-!
# Writing JSON

* `Json.Value` — what is written.
* `Json.quoted` — a text as a JSON string.
* `Json.Value.compact` — all on one line, without blanks.
* `Json.Value.pretty` — one item a line, two blanks for each level; what is empty stays on its line.
-/

namespace FiberWeave.Json

/-- What a JSON text says. Numbers are natural numbers here. -/
inductive Value where
  | null
  | bool (b : Bool)
  | number (n : Nat)
  | text (s : String)
  | array (items : List Value)
  | object (fields : List (String × Value))
  deriving Repr, Inhabited

/-- A character inside a JSON string. Quotes, backslashes and control characters of ASCII are
written in another way; all other characters stand for themselves. -/
def escape (c : Char) : String :=
  if c = '"' then "\\\""
  else if c = '\\' then "\\\\"
  else if c = '\x08' then "\\b"
  else if c = '\x0C' then "\\f"
  else if c = '\n' then "\\n"
  else if c = '\r' then "\\r"
  else if c = '\t' then "\\t"
  else if c.toNat < 0x20 then "\\u" ++ hexDigits 4 c.toNat
  else String.singleton c

/-- A text as a JSON string. -/
def quoted (s : String) : String := "\"" ++ String.join (s.toList.map escape) ++ "\""

/-- An opening and a closing brace, which stand for themselves in no other string. -/
def openBrace : String := "\x7b"
def closeBrace : String := "\x7d"

namespace Value

/-- All on one line, without blanks. -/
def compact : Value → String
  | null => "null"
  | bool b => if b then "true" else "false"
  | number n => toString n
  | text s => quoted s
  | array items => "[" ++ ",".intercalate (compactAll items) ++ "]"
  | object fields => openBrace ++ ",".intercalate (compactFields fields) ++ closeBrace
where
  compactAll : List Value → List String
    | [] => []
    | v :: rest => compact v :: compactAll rest
  compactFields : List (String × Value) → List String
    | [] => []
    | (key, v) :: rest => (quoted key ++ ":" ++ compact v) :: compactFields rest

/-- The blanks in front of a line. -/
def indent (depth : Nat) : String := String.ofList (List.replicate (2 * depth) ' ')

/-- Items between brackets, each on a line of its own. -/
def block (opening closing : String) (depth : Nat) (items : List String) : String :=
  match items with
  | [] => opening ++ closing
  | _ =>
      opening ++ "\n" ++ ",\n".intercalate (items.map fun item => indent (depth + 1) ++ item)
        ++ "\n" ++ indent depth ++ closing

/-- One item a line, seen from a depth. -/
def prettyAt (depth : Nat) : Value → String
  | null => "null"
  | bool b => if b then "true" else "false"
  | number n => toString n
  | text s => quoted s
  | array items => block "[" "]" depth (prettyAll (depth + 1) items)
  | object fields => block openBrace closeBrace depth (prettyFields (depth + 1) fields)
where
  prettyAll (depth : Nat) : List Value → List String
    | [] => []
    | v :: rest => prettyAt depth v :: prettyAll depth rest
  prettyFields (depth : Nat) : List (String × Value) → List String
    | [] => []
    | (key, v) :: rest => (quoted key ++ ": " ++ prettyAt depth v) :: prettyFields depth rest

/-- One item a line. -/
def pretty (v : Value) : String := prettyAt 0 v

/-- A list of texts. -/
def texts (items : List String) : Value := array (items.map text)

end Value

end FiberWeave.Json
