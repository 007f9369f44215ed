import ShaderWeave.Json.Value

/-!
# Reading JSON

A strict reader: the only blanks are space, tab, line feed and carriage return, control characters may
not stand in strings, numbers have no leading zeros, and nothing but blanks may follow the value. The
text is first cut into tokens, then the tokens are nested.
-/

namespace ShaderWeave

namespace Json

/-- A token of a JSON text. -/
inductive Token where
  /-- The value `null`, `true` or `false`. -/
  | literal (value : Json)
  /-- A number, as it is spelled. -/
  | number (lexeme : String)
  /-- A string; see `Json.string`. -/
  | string (content : Option String)
  /-- One of the characters that give a text its structure: brackets, braces, comma and colon. -/
  | mark (c : Char)

namespace Token

/-- What a string holds at one place: a character, or a 16-bit unit that an escape names. -/
inductive Piece where
  /-- A character. -/
  | char (c : Char)
  /-- A unit named by its four hexadecimal digits. -/
  | unit (n : Nat)

/-- The value of a hexadecimal digit. -/
def hexValue? (c : Char) : Option Nat :=
  if '0' ≤ c && c ≤ '9' then some (c.toNat - 48)
  else if 'a' ≤ c && c ≤ 'f' then some (c.toNat - 87)
  else if 'A' ≤ c && c ≤ 'F' then some (c.toNat - 55)
  else none

/-- The character that a one-letter escape stands for. -/
def escaped? (c : Char) : Option Char :=
  if c = '"' || c = '\\' || c = '/' then some c
  else if c = 'b' then some (Char.ofNat 8)
  else if c = 'f' then some (Char.ofNat 12)
  else if c = 'n' then some '\n'
  else if c = 'r' then some '\r'
  else if c = 't' then some '\t'
  else none

/-- The pieces of a string up to its closing quote, and the text after it. -/
def scanString : List Char → Option (List Piece × List Char)
  | [] => none
  | '"' :: rest => some ([], rest)
  | '\\' :: 'u' :: a :: b :: c :: d :: rest => do
    let n := (((← hexValue? a) * 16 + (← hexValue? b)) * 16 + (← hexValue? c)) * 16 + (← hexValue? d)
    let (pieces, after) ← scanString rest
    return (.unit n :: pieces, after)
  | '\\' :: c :: rest => do
    let c ← escaped? c
    let (pieces, after) ← scanString rest
    return (.char c :: pieces, after)
  | c :: rest =>
    if c.toNat < 32 then none
    else do
      let (pieces, after) ← scanString rest
      return (.char c :: pieces, after)

/-- The text of a string, if every unit is a character or half of a surrogate pair. -/
def decode : List Piece → Option (List Char)
  | [] => some []
  | .char c :: rest => (decode rest).map (c :: ·)
  | .unit high :: .unit low :: rest =>
    if 0xd800 ≤ high && high < 0xdc00 then
      if 0xdc00 ≤ low && low < 0xe000 then
        (decode rest).map (Char.ofNat (0x10000 + (high - 0xd800) * 0x400 + (low - 0xdc00)) :: ·)
      else none
    else if 0xdc00 ≤ high && high < 0xe000 then none
    else (decode (.unit low :: rest)).map (Char.ofNat high :: ·)
  | .unit n :: rest =>
    if 0xd800 ≤ n && n < 0xe000 then none else (decode rest).map (Char.ofNat n :: ·)

/-- Whether a character can stand in a number. -/
def isNumberChar (c : Char) : Bool :=
  c.isDigit || c = '-' || c = '+' || c = '.' || c = 'e' || c = 'E'

/-- The text after one or more digits. -/
def dropDigits? (text : List Char) : Option (List Char) :=
  match text with
  | c :: rest => if c.isDigit then some (rest.dropWhile Char.isDigit) else none
  | [] => none

/-- The text after an integer without leading zeros. -/
def dropInteger? : List Char → Option (List Char)
  | '0' :: rest => some rest
  | text => dropDigits? text

/-- The text after an optional fraction. -/
def dropFraction? : List Char → Option (List Char)
  | '.' :: rest => dropDigits? rest
  | text => some text

/-- The text after an optional exponent. -/
def dropExponent? : List Char → Option (List Char)
  | 'e' :: '+' :: rest | 'e' :: '-' :: rest | 'E' :: '+' :: rest | 'E' :: '-' :: rest =>
    dropDigits? rest
  | 'e' :: rest | 'E' :: rest => dropDigits? rest
  | text => some text

/-- Whether a lexeme is a number. -/
def isNumber (lexeme : List Char) : Bool :=
  let unsigned := match lexeme with
    | '-' :: rest => rest
    | _ => lexeme
  (dropInteger? unsigned >>= dropFraction? >>= dropExponent?) matches some []

/-- The value that a word of letters stands for. -/
def literal? (text : List Char) : Option Json :=
  if text = ['n', 'u', 'l', 'l'] then some .null
  else if text = ['t', 'r', 'u', 'e'] then some (.bool true)
  else if text = ['f', 'a', 'l', 's', 'e'] then some (.bool false)
  else none

/-- The tokens of a text, where each token takes a unit of fuel. -/
def scan : (fuel : Nat) → List Char → Option (List Token)
  | _, [] => some []
  | 0, _ => none
  | fuel + 1, c :: rest =>
    if c = ' ' || c = '\t' || c = '\n' || c = '\r' then scan fuel rest
    else if c = '[' || c = ']' || c.toNat = 0x7b || c.toNat = 0x7d || c = ',' || c = ':' then
      (scan fuel rest).map (mark c :: ·)
    else if c = '"' then do
      let (pieces, after) ← scanString rest
      let tokens ← scan fuel after
      return string ((decode pieces).map String.ofList) :: tokens
    else if c.isAlpha then do
      let value ← literal? (c :: rest.takeWhile Char.isAlpha)
      let tokens ← scan fuel (rest.dropWhile Char.isAlpha)
      return literal value :: tokens
    else
      let lexeme := (c :: rest).takeWhile isNumberChar
      if isNumber lexeme then
        (scan fuel ((c :: rest).dropWhile isNumberChar)).map (number (String.ofList lexeme) :: ·)
      else none

end Token

mutual

/-- The value that the tokens start with, and the tokens after it. -/
def nestValue : (fuel : Nat) → List Token → Option (Json × List Token)
  | 0, _ => none
  | fuel + 1, token :: rest =>
    match token with
    | .literal value => some (value, rest)
    | .number lexeme => some (.number lexeme, rest)
    | .string content => some (.string content, rest)
    | .mark c =>
      if c = '[' then
        match rest with
        | .mark ']' :: after => some (.array [], after)
        | _ => (nestItems fuel rest).map fun (items, after) => (.array items, after)
      else if c.toNat = 0x7b then
        match rest with
        | .mark '\x7d' :: after => some (.object [], after)
        | _ => (nestMembers fuel rest).map fun (members, after) => (.object members, after)
      else none
  | _, [] => none

/-- The items of an array up to its closing bracket. -/
def nestItems : (fuel : Nat) → List Token → Option (List Json × List Token)
  | 0, _ => none
  | fuel + 1, tokens => do
    let (item, rest) ← nestValue fuel tokens
    match rest with
    | .mark ',' :: rest =>
      let (items, after) ← nestItems fuel rest
      return (item :: items, after)
    | .mark ']' :: after => return ([item], after)
    | _ => none

/-- The members of an object up to its closing brace. -/
def nestMembers : (fuel : Nat) → List Token → Option (List (Option String × Json) × List Token)
  | 0, _ => none
  | fuel + 1, .string key :: .mark ':' :: tokens => do
    let (value, rest) ← nestValue fuel tokens
    match rest with
    | .mark ',' :: rest =>
      let (members, after) ← nestMembers fuel rest
      return ((key, value) :: members, after)
    | .mark '\x7d' :: after => return ([(key, value)], after)
    | _ => none
  | _, _ => none

end

/-- The value that a text spells. -/
def ofText? (text : String) : Option Json := do
  let chars := text.toList
  let tokens ← Token.scan (chars.length + 1) chars
  match nestValue (tokens.length + 1) tokens with
  | some (value, []) => some value
  | _ => none

end Json

end ShaderWeave
