import ShaderWeave.Error
import ShaderWeave.Number.Literal

/-!
# Values and Reads

A value is what one node hands to another: a literal, a local variable, a uniform or an input of the
stage, each with a type. Reading a value at a type gives an expression: more components than needed
are cut off by a swizzle, missing ones are filled, a scalar is spread over a vector, and a read that
changes between integers and floats goes through a constructor.

Expressions are kept as trees and printed last, so that the type and the meaning of a read can be
computed.
-/

namespace ShaderWeave

/-- How a value comes to exist in a source. -/
inductive ValueKind where
  /-- A literal; never declared. -/
  | constant
  /-- A local variable, declared by a statement of the node that computes it. -/
  | computed
  /-- A member of a uniform block, a push constant or a texture. -/
  | uniform
  /-- A vertex attribute or interface input. -/
  | stageInput
deriving DecidableEq, Inhabited

/-- Name of the kind. -/
def ValueKind.label : ValueKind → String
  | constant => "Constant"
  | computed => "Computed"
  | uniform => "Uniform"
  | stageInput => "StageInput"

/-- A named, typed value in a source. The name of a constant is its literal. -/
structure Value extends Variable where
  /-- How the value comes to exist. -/
  kind : ValueKind
deriving DecidableEq, Inhabited

/-- What the fourth component becomes when a shorter vector is read at four components. -/
inductive Widening where
  /-- One, as in the homogeneous coordinates of a point. -/
  | point
  /-- Zero, as in the homogeneous coordinates of a direction. -/
  | direction
deriving DecidableEq, Inhabited

/-- A component that a read adds. -/
inductive Fill where
  /-- The number zero. -/
  | zero
  /-- The number one. -/
  | one
deriving DecidableEq

/-- The literal of an added component. -/
def Fill.literal : ScalarKind → Fill → String
  | .float, zero => "0.0"
  | .float, one => "1.0"
  | .int, zero => "0"
  | .int, one => "1"

/-- The fourth component that a widening adds. -/
def Widening.fourth : Widening → Fill
  | point => .one
  | direction => .zero

/-- An expression that reads a value. -/
inductive Expr where
  /-- The value itself. -/
  | atom (text : String)
  /-- The leading components. -/
  | leading (source : Expr) (width : Width)
  /-- A constructor of a type, applied to an expression and then to added components. -/
  | construct (ty : ValueType) (source : Expr) (fills : List Fill)
deriving DecidableEq

namespace Expr

/-- The swizzle of the first `width` components. -/
def leadingChannels : Width → String
  | .one => "x"
  | .two => "xy"
  | .three => "xyz"
  | .four => "xyzw"

/-- The expression in shading-language source. -/
def render : Expr → String
  | atom text => text
  | leading source width => source.render ++ "." ++ leadingChannels width
  | construct ty source fills =>
    ty.glsl ++ "(" ++ source.render
      ++ String.join (fills.map fun fill => ", " ++ fill.literal (ty.scalarKind.getD .float)) ++ ")"

/-- The expression brought from one width to another. -/
def reshape (kind : ScalarKind) (source : Expr) (width target : Width) (widening : Widening) : Expr :=
  if width = target then source
  else if target.toNat < width.toNat then leading source target
  else if width = .one then
    if target = .four then
      construct (.vector kind .four) (construct (.vector kind .three) source []) [widening.fourth]
    else
      construct (.vector kind target) source []
  else
    construct (.vector kind target) source
      ((List.range' width.toNat (target.toNat - width.toNat)).map fun i =>
        if i = 3 then widening.fourth else .zero)

end Expr

namespace Value

/-- A literal of the given type. -/
def constant (text : String) (ty : ValueType) : Value :=
  { name := text, ty, kind := .constant }

/-- A local variable. -/
def computed (name : String) (ty : ValueType) (arrayLen : Option UInt32 := none) : Value :=
  { name, ty, arrayLen, kind := .computed }

/-- A uniform. -/
def uniform (var : Variable) : Value :=
  { var with kind := .uniform }

/-- An input of the stage. -/
def stageInput (var : Variable) : Value :=
  { var with kind := .stageInput }

/-- A constructor applied to literals. -/
def application (ty : ValueType) (arguments : List String) : Value :=
  constant (ty.glsl ++ "(" ++ String.intercalate ", " arguments ++ ")") ty

/-- A float literal. -/
def ofFloat (x : Binary32) : Value := constant x.literal .float

/-- An integer literal. -/
def ofInt (n : Int32) : Value := constant (intLiteral n) .int

/-- A vector of two float literals. -/
def ofVec2 (x y : Binary32) : Value := application .vec2 [x.literal, y.literal]

/-- A vector of three float literals. -/
def ofVec3 (x y z : Binary32) : Value := application .vec3 [x.literal, y.literal, z.literal]

/-- A vector of four float literals. -/
def ofVec4 (x y z w : Binary32) : Value :=
  application .vec4 [x.literal, y.literal, z.literal, w.literal]

/-- A vector of two integer literals. -/
def ofIVec2 (x y : Int32) : Value := application .ivec2 [intLiteral x, intLiteral y]

/-- Whether the value can be declared by a statement. -/
def checkDeclarable (v : Value) : Except GraphError Unit :=
  match v.kind with
  | .computed | .uniform => .ok ()
  | .constant => .error (.constantDeclaration v.name)
  | .stageInput => .error (.stageInputDeclaration v.name)

/-- The declaration of a value, as the left side of its first assignment. -/
def declare (v : Value) : Except GraphError String := do
  v.checkDeclarable
  return v.declaration

/-- The expression that reads the value at a type. A value is read at its own type as it stands; an
array cannot be read at any other type. -/
def read (v : Value) (target : ValueType) (widening : Widening) : Except GraphError Expr :=
  let invalid : GraphError := .invalidCoercion v.name v.ty target
  if v.ty = target then .ok (.atom v.name)
  else if v.arrayLen.isSome then .error invalid
  else match v.ty, target with
    | .vector kind width, .vector targetKind targetWidth =>
      let shaped := Expr.reshape kind (.atom v.name) width targetWidth widening
      .ok (if kind = targetKind then shaped else .construct target shaped [])
    | .matrix _, .matrix _ => .ok (.construct target (.atom v.name) [])
    | _, _ => .error invalid

end Value

end ShaderWeave
