import ShaderWeave.Number.Word
import ShaderWeave.ValueType

/-!
# Variables

The contract of a declared variable: its name, its type, and its length if it is an array. Interface
variables, block members and push constants are declared by such a contract.
-/

namespace ShaderWeave

/-- The contract of a declared variable. -/
structure Variable where
  /-- Name in the source. -/
  name : String
  /-- Type of the variable, or of one element of an array. -/
  ty : ValueType
  /-- Length of an array. -/
  arrayLen : Option UInt32 := none
deriving DecidableEq, Inhabited

namespace Variable

/-- The declaration without a qualifier, such as `vec4 positions[3]`. -/
def declaration (var : Variable) : String :=
  match var.arrayLen with
  | some len => var.ty.glsl ++ " " ++ var.name ++ "[" ++ toString len ++ "]"
  | none => var.ty.glsl ++ " " ++ var.name

/-- Number of elements, one if the variable is not an array. -/
def elementCount (var : Variable) : UInt32 :=
  var.arrayLen.getD 1

/-- Interface locations that the variable takes, if a word can count them. -/
def locationCount? (var : Variable) : Option UInt32 :=
  Word.mul? var.ty.locationCount var.elementCount

/-- Whether the variable cannot be interpolated between vertices, since it holds integers. -/
def isFlat (var : Variable) : Bool :=
  var.ty.isInt

end Variable

end ShaderWeave
