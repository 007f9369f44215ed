/-!
# JSON Values

A JSON value as it stands in a text: numbers keep their spelling, and members keep their order and
may repeat. The two printers write a value on one line or indented by two spaces.
-/

namespace ShaderWeave

/-- A JSON value. -/
inductive Json where
  /-- The literal `null`. -/
  | null
  /-- A truth value. -/
  | bool (value : Bool)
  /-- A number, as it is spelled. -/
  | number (lexeme : String)
  /-- A string; `none` if an escape in it names half of a surrogate pair, which no text can hold. -/
  | string (content : Option String)
  /-- An array. -/
  | array (items : List Json)
  /-- An object, with its members in order. -/
  | object (members : List (Option String × Json))

namespace Json

/-- A string of the given content. -/
def str (content : String) : Json := string (some content)

/-- A natural number. -/
def nat (n : Nat) : Json := number (toString n)

/-- A 32-bit word. -/
def word (n : UInt32) : Json := nat n.toNat

/-- An integer. -/
def int (n : Int) : Json := number (toString n)

/-- An optional value, absent as `null`. -/
def option {α : Type} (write : α → Json) : Option α → Json
  | some value => write value
  | none => null

/-- An object with the given members. -/
def record (members : List (String × Json)) : Json :=
  object (members.map fun (key, value) => (some key, value))

/-- The member of an object with the given key, the first one if there are several. -/
def get? (json : Json) (key : String) : Option Json :=
  match json with
  | object members => (members.find? fun member => member.1 == some key).map (·.2)
  | _ => none

/-- A hexadecimal digit below sixteen. -/
def hexDigit (n : Nat) : Char :=
  if n < 10 then Char.ofNat (48 + n) else Char.ofNat (87 + n)

/-- A character inside a string. Quotes, backslashes and control characters are escaped. -/
def escapeChar (c : Char) : List Char :=
  if c = '"' then ['\\', '"']
  else if c = '\\' then ['\\', '\\']
  else if c = '\n' then ['\\', 'n']
  else if c = '\r' then ['\\', 'r']
  else if c = '\t' then ['\\', 't']
  else if c.toNat = 8 then ['\\', 'b']
  else if c.toNat = 12 then ['\\', 'f']
  else if c.toNat < 32 then ['\\', 'u', '0', '0', hexDigit (c.toNat / 16), hexDigit (c.toNat % 16)]
  else [c]

/-- A string with its quotes. -/
def quote (content : String) : String :=
  String.ofList ('"' :: content.toList.flatMap escapeChar ++ ['"'])

mutual

/-- The value on one line, without blanks between tokens. -/
def compact : Json → String
  | null => "null"
  | bool true => "true"
  | bool false => "false"
  | number lexeme => lexeme
  | string content => quote (content.getD "")
  | array items => "[" ++ compactItems items ++ "]"
  | object members => "\x7b" ++ compactMembers members ++ "\x7d"

/-- The items of an array, divided by commas. -/
def compactItems : List Json → String
  | [] => ""
  | [item] => item.compact
  | item :: rest => item.compact ++ "," ++ compactItems rest

/-- The members of an object, divided by commas. -/
def compactMembers : List (Option String × Json) → String
  | [] => ""
  | [(key, value)] => quote (key.getD "") ++ ":" ++ value.compact
  | (key, value) :: rest =>
    quote (key.getD "") ++ ":" ++ value.compact ++ "," ++ compactMembers rest

end

/-- The start of a line at a depth: two spaces for each level. -/
def lineStart (depth : Nat) : String :=
  "\n" ++ String.ofList (List.replicate (2 * depth) ' ')

mutual

/-- The value over several lines, each nested value indented by two spaces more. Empty arrays and
objects stay on one line. -/
def prettyAt (depth : Nat) : Json → String
  | array [] => "[]"
  | array items => "[" ++ prettyItems (depth + 1) items ++ lineStart depth ++ "]"
  | object [] => "\x7b\x7d"
  | object members => "\x7b" ++ prettyMembers (depth + 1) members ++ lineStart depth ++ "\x7d"
  | null => "null"
  | bool true => "true"
  | bool false => "false"
  | number lexeme => lexeme
  | string content => quote (content.getD "")

/-- The items of an array, each on a line of its own. -/
def prettyItems (depth : Nat) : List Json → String
  | [] => ""
  | [item] => lineStart depth ++ item.prettyAt depth
  | item :: rest => lineStart depth ++ item.prettyAt depth ++ "," ++ prettyItems depth rest

/-- The members of an object, each on a line of its own. -/
def prettyMembers (depth : Nat) : List (Option String × Json) → String
  | [] => ""
  | [(key, value)] => lineStart depth ++ quote (key.getD "") ++ ": " ++ value.prettyAt depth
  | (key, value) :: rest =>
    lineStart depth ++ quote (key.getD "") ++ ": " ++ value.prettyAt depth ++ ","
      ++ prettyMembers depth rest

end

/-- The value over several lines. -/
def pretty (json : Json) : String := json.prettyAt 0

end Json

end ShaderWeave
