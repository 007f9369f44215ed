import ShaderWeave.Handle
import ShaderWeave.Target
import ShaderWeave.Text.Indentation

/-!
# Code

The statements that nodes contribute to the main routine. A fragment of code is a list of pieces: plain
text, the declaration of a value, a read or a mention of one, and textures that are sampled, which are
written as the target wants them.
-/

namespace ShaderWeave

/-- A piece of a code fragment. -/
inductive Piece where
  /-- Text that stands as it is. -/
  | text (content : String)
  /-- The declaration of a value, as the left side of its first assignment. -/
  | declaration (handle : Handle)
  /-- A read of a value. -/
  | read (handle : Handle) (expr : Expr)
  /-- The name of a value, which is not checked to be declared. -/
  | mention (handle : Handle)
  /-- A texture, or an element of a texture array, as a target writes it where it is sampled. -/
  | texture (target : Target) (name : String) (index : Option UInt32)
deriving DecidableEq

/-- The piece as text. -/
def Piece.render : Piece → String
  | text content => content
  | declaration handle => handle.value.declaration
  | read _ expr => expr.render
  | mention handle => handle.name
  | texture target name index => target.textureOperand name index

instance : Coe String Piece := ⟨.text⟩

/-- A fragment of code. -/
abbrev Code := List Piece

namespace Code

/-- The fragment as text. -/
def render (code : Code) : String :=
  String.join (code.map (·.render))

@[simp]
theorem render_nil : render [] = "" :=
  rfl

@[simp]
theorem render_cons (piece : Piece) (code : Code) :
    render (piece :: code) = piece.render ++ render code := by
  simp [render, String.join_cons]

@[simp]
theorem render_append (left right : Code) :
    render (left ++ right) = render left ++ render right := by
  induction left with
  | nil => simp
  | cons piece left ih => simp [ih, String.append_assoc]

/-- The lines that the fragment adds to the main routine. -/
def lines (code : Code) : List String :=
  codeLines code.render

/-- The expression that samples what an operand names at a coordinate. -/
def sampleOperand (operand : Piece) (coordinate : Code) : Code :=
  .text "texture(" :: operand :: .text ", " :: coordinate ++ [.text ")"]

/-- The expression that samples a texture at a coordinate. -/
def sample (target : Target) (name : String) (index : Option UInt32) (coordinate : Code) : Code :=
  sampleOperand (.texture target name index) coordinate

/-- The expression for the size of what an operand names at a level of detail. -/
def operandSize (operand : Piece) (lod : String) : Code :=
  ["textureSize(", operand, ", ", lod, ")"]

/-- The expression for the size of a texture at a level of detail. -/
def textureSize (target : Target) (name : String) (index : Option UInt32) (lod : String) : Code :=
  operandSize (.texture target name index) lod

/-- A fragment of several lines, each indented by the given number of spaces. -/
def block (indent : Nat) (rows : List Code) : Code :=
  let margin := String.ofList (List.replicate indent ' ')
  .text "\n" :: rows.flatMap fun row => .text margin :: row ++ [.text "\n"]

end Code

end ShaderWeave
