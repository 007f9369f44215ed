import ShaderWeave.Node
import ShaderWeave.Node.Socket
import ShaderWeave.Swizzle

/-!
# Arithmetic

The nodes that compute a value from other values alone: selecting and joining components, binary
operations, transforms by a matrix, and curves.
-/

namespace ShaderWeave

/-- A binary operation, component by component. -/
inductive MathOp where
  /-- Sum. -/
  | add
  /-- Difference. -/
  | subtract
  /-- Product. -/
  | multiply
  /-- Quotient. -/
  | divide
deriving DecidableEq, Inhabited

namespace MathOp

/-- The operator in the source. -/
def symbol : MathOp → String
  | add => "+"
  | subtract => "-"
  | multiply => "*"
  | divide => "/"

/-- Name of the node that performs the operation. -/
def nodeName : MathOp → String
  | add => "add"
  | subtract => "subtract"
  | multiply => "multiply"
  | divide => "divide"

/-- The operation that the node of the given name performs. -/
def ofNodeName? (name : String) : Option MathOp :=
  [add, subtract, multiply, divide].find? (·.nodeName == name)

@[simp]
theorem ofNodeName?_nodeName (op : MathOp) : ofNodeName? op.nodeName = some op := by
  cases op <;> rfl

/-- The operand that changes nothing on the right. -/
def neutral : MathOp → Binary32
  | add | subtract => .zero
  | multiply | divide => .one

end MathOp

/-- What a transform does with the fourth component. -/
inductive TransformKind where
  /-- It is one, so that the input is also shifted; three components are kept. -/
  | point
  /-- It is zero, so that the input is not shifted; three components are kept. -/
  | direction
  /-- It is one, and all four components are kept. -/
  | clip
deriving DecidableEq, Inhabited

namespace TransformKind

/-- Type of the result of a transform. -/
def ty : TransformKind → ValueType
  | point | direction => .vec3
  | clip => .vec4

/-- The kind with the given name. -/
def ofName? (name : String) : Option TransformKind :=
  match name with
  | "point" => some point
  | "direction" => some direction
  | "clip" => some clip
  | _ => none

end TransformKind

/-- A node that computes a value, with its inputs. -/
inductive ArithmeticNode where
  /-- Maps texture coordinates to a quad that covers the screen. -/
  | screenQuad (texCoord : Handle)
  /-- Selects components. `kind` is that of the input when the node was made. -/
  | split (channels : String) (kind : ScalarKind) (input : Handle)
  /-- Joins three components and one. -/
  | combine (xyz w : Handle)
  /-- Performs a binary operation at a type. -/
  | math (op : MathOp) (ty : ValueType) (left right : Handle)
  /-- Brings a vector to unit length. -/
  | normalize (input : Handle)
  /-- Encodes a color by a gamma curve. -/
  | gamma (input exponent : Handle)
  /-- Multiplies the input by a matrix. -/
  | transform (kind : TransformKind) (input matrix : Handle)
deriving DecidableEq

namespace ArithmeticNode

/-- A full-screen quad that nothing is wired to. -/
def newScreenQuad : ArithmeticNode :=
  screenQuad { value := .ofVec4 .zero .zero .zero .zero }

/-- A selection of components of `input`. -/
def newSplit (input : Handle) (channels : String) : ArithmeticNode :=
  split channels (input.value.ty.scalarKind.getD .float) input

/-- A join that nothing is wired to. -/
def newCombine : ArithmeticNode :=
  combine { value := .ofVec3 .zero .zero .zero } { value := .ofFloat .one }

/-- A binary operation that nothing is wired to. -/
def newMath (op : MathOp) (ty : ValueType) : ArithmeticNode :=
  math op ty { value := .ofFloat op.neutral } { value := .ofFloat op.neutral }

/-- A gamma curve with the exponent 2.2. -/
def newGamma (input : Handle) : ArithmeticNode :=
  gamma input { value := .ofFloat ⟨0x400ccccd⟩ }

/-- Name of the node. -/
def name : ArithmeticNode → String
  | screenQuad _ => "fullScreenQuadPos"
  | split .. => "split"
  | combine .. => "combineXyzW"
  | math op .. => op.nodeName
  | normalize _ => "normalize"
  | gamma .. => "gamma"
  | transform .. => "vertexTransform"

/-- Stages that the node may stand in. -/
def allowed : ArithmeticNode → StageMask
  | screenQuad _ => .vertex
  | _ => .all

/-- The inputs that the node reports. -/
def inputs : ArithmeticNode → List Handle
  | screenQuad texCoord => [texCoord]
  | split _ _ input => [input]
  | combine xyz w => [xyz, w]
  | math _ _ left right => [left, right]
  | normalize input => [input]
  | gamma input exponent => [input, exponent]
  | transform _ input matrix => [input, matrix]

/-- Type of a selection of components. -/
def splitType (kind : ScalarKind) (channels : String) : ValueType :=
  (ValueType.vector? kind channels.utf8ByteSize).getD .float

/-- The value that the node computes. -/
def output (id : NodeId) : ArithmeticNode → Handle
  | screenQuad _ => .computed id "quadPos" "out" .vec4
  | split channels kind _ => .computed id "split" "out" (splitType kind channels)
  | combine .. => .computed id "combine" "out" .vec4
  | math op ty .. => .computed id op.nodeName "out" ty
  | normalize _ => .computed id "normalize" "out" .vec3
  | gamma .. => .computed id "gamma" "out" .vec4
  | transform kind .. => .computed id "transform" "out" kind.ty

/-- What the node checks before any code is written. -/
def setup : ArithmeticNode → Setup Unit
  | split channels _ input => .ofExcept (Swizzle.validate input.value.ty channels)
  | _ => .done ()

/-- The product of a matrix with the input of a transform. -/
def product (kind : TransformKind) (input : Handle) (matrix : Piece) : Emit Code :=
  match kind with
  | .point => do return ["(", matrix, " * ", ← Emit.read input .vec4, ").xyz"]
  | .direction => do return ["(", matrix, " * ", ← Emit.read input .vec4 .direction, ").xyz"]
  | .clip => do return [matrix, " * ", ← Emit.read input .vec4]

/-- The code that the node writes. -/
def emit (id : NodeId) (node : ArithmeticNode) : Emit Unit :=
  match node with
  | screenQuad texCoord => do
    let declaration ← Emit.declare (node.output id)
    let coordinate ← Emit.read texCoord .vec2
    Emit.append [declaration, " = vec4(", coordinate, " * 2.0 - 1.0, 0.0, 1.0);"]
  | split channels _ input => do
    let declaration ← Emit.declare (node.output id)
    Emit.append [declaration, " = ", .mention input, ".", channels, ";"]
  | combine xyz w => do
    let declaration ← Emit.declare (node.output id)
    let first ← Emit.read xyz .vec3
    let last ← Emit.read w .float
    Emit.append [declaration, " = vec4(", first, ", ", last, ");"]
  | math op ty left right => do
    let declaration ← Emit.declare (node.output id)
    let leftOperand ← Emit.read left ty
    let rightOperand ← Emit.read right ty
    Emit.append [declaration, " = ", leftOperand, " ", op.symbol, " ", rightOperand, ";"]
  | normalize input => do
    let declaration ← Emit.declare (node.output id)
    let vector ← Emit.read input .vec3
    Emit.append [declaration, " = normalize(", vector, ");"]
  | gamma input exponent => do
    let color ← Emit.read input .vec4
    let declaration ← Emit.declare (node.output id)
    let root ← Emit.read exponent .float
    Emit.append
      [declaration, " = vec4(pow(", color, ".rgb, vec3(1.0 / ", root, ")), ", color, ".a);"]
  | transform kind input matrix => do
    let factor ← Emit.read matrix .mat4
    let transformed ← product kind input factor
    let declaration ← Emit.declare (node.output id)
    Emit.append (declaration :: " = " :: transformed ++ [.text ";"])

/-- The node with an input wired; `none` if it has no such input. -/
def wire (socket : Socket) (h : Handle) (node : ArithmeticNode) : Option ArithmeticNode :=
  match socket, node with
  | .texCoord, screenQuad _ => some (screenQuad h)
  | .input, split channels kind _ => some (split channels kind h)
  | .xyz, combine _ w => some (combine h w)
  | .w, combine xyz _ => some (combine xyz h)
  | .left, math op ty _ right => some (math op ty h right)
  | .right, math op ty left _ => some (math op ty left h)
  | .input, normalize _ => some (normalize h)
  | .input, gamma _ exponent => some (gamma h exponent)
  | .gamma, gamma input _ => some (gamma input h)
  | .input, transform kind _ matrix => some (transform kind h matrix)
  | .matrix, transform kind input _ => some (transform kind input h)
  | _, _ => none

end ArithmeticNode

end ShaderWeave
