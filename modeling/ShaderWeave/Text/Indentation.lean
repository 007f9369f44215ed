import ShaderWeave.Text.Blank

/-!
# Indentation

Nodes hand in code as it stands in their own source, indented to fit there. Before it is used, blank
lines at both ends go, the indentation that all lines share goes, and so do blanks at line ends.
Indentation is made of spaces and tabs only; any other blank character counts as content.
-/

namespace ShaderWeave.Text

/-- Whether a character can indent a line. -/
def isIndent (c : Char) : Bool :=
  c = ' ' || c = '\t'

/-- Number of spaces and tabs that a line starts with. -/
def indentOf (line : List Char) : Nat :=
  (line.takeWhile isIndent).length

/-- The lines from the first to the last one that is not blank. -/
def trimBlankLines (ls : List (List Char)) : List (List Char) :=
  ((ls.dropWhile isBlankLine).reverse.dropWhile isBlankLine).reverse

/-- The least indentation of a line that is not blank. -/
def commonIndent (ls : List (List Char)) : Nat :=
  (((ls.filter (!isBlankLine ·)).map indentOf).min?).getD 0

/-- The line without `indent` characters of its own indentation, or without all of it if it has
fewer, and without blanks at its end. -/
def cutLine (indent : Nat) (line : List Char) : List Char :=
  trimEnd (line.drop (min (indentOf line) indent))

/-- The lines of a text without blank lines at both ends, shared indentation and blanks at line
ends. -/
def trimmedLines (text : List Char) : List (List Char) :=
  let body := trimBlankLines (lines text)
  body.map (cutLine (commonIndent body))

/-- The text made of `trimmedLines`. -/
def trimIndent (text : List Char) : List Char :=
  joinLines (trimmedLines text)

end ShaderWeave.Text

namespace ShaderWeave

/-- The lines of a code fragment, without shared indentation. -/
def codeLines (code : String) : List String :=
  (Text.trimmedLines code.toList).map String.ofList

/-- A code fragment without blank lines at both ends and without shared indentation. -/
def trimIndent (code : String) : String :=
  String.ofList (Text.trimIndent code.toList)

end ShaderWeave
