import ShaderWeave.Attribute
import ShaderWeave.Block.Update
import ShaderWeave.Stage

/-!
# Bound Resources

What the nodes of a model have registered, each with the number it got: attributes and color outputs
with a location, interface variables with a slot, uniform blocks and samplers with bindings, push
constants with an offset.
-/

namespace ShaderWeave

/-- A vertex attribute at its location. -/
structure BoundAttribute extends Attribute where
  /-- First input location. -/
  location : UInt32
deriving DecidableEq, Inhabited

/-- An interface variable at its slot. -/
structure InterfaceSlot where
  /-- First interface location. -/
  slot : UInt32
  /-- Contract of the variable. -/
  var : Variable
deriving DecidableEq, Inhabited

/-- A color output of the fragment stage at its location. -/
structure ColorOutput where
  /-- Name in the source. -/
  name : String
  /-- Output location. -/
  location : UInt32
deriving DecidableEq, Inhabited

/-- A uniform block at its binding. -/
structure UniformBlock where
  /-- Name in the source. -/
  name : String
  /-- Stage that declares it. -/
  stage : Stage
  /-- Binding number. -/
  binding : UInt32
  /-- Members and size. -/
  layout : BlockLayout
deriving DecidableEq, Inhabited

/-- The block as writes see it. -/
def UniformBlock.shape (block : UniformBlock) : BlockShape :=
  { name := block.name, layout := block.layout }

/-- A push constant at its offset. -/
structure PushConstantSlot where
  /-- Name in the source. -/
  name : String
  /-- Stage that declares it. -/
  stage : Stage
  /-- Type. -/
  ty : ValueType
  /-- First byte among the push constants of the model. -/
  offset : UInt32
  /-- Bytes. -/
  size : UInt32
deriving DecidableEq, Inhabited

/-- A sampled texture at its bindings: one for each texture from `binding` on, then one for the
sampler. -/
structure SamplerBinding where
  /-- Name in the source. -/
  name : String
  /-- Stage that declares it. -/
  stage : Stage
  /-- Dimensionality. -/
  dim : TextureDim
  /-- Length of an array of textures. -/
  arrayLen : Option UInt32
  /-- Binding of the first texture. -/
  binding : UInt32
  /-- Binding of the sampler. -/
  samplerBinding : UInt32
deriving DecidableEq, Inhabited

/-- A uniform block as a node asks for it. -/
structure BlockRequest where
  /-- Name in the source. -/
  name : String
  /-- Members in order of declaration. -/
  members : List Variable
  /-- What refreshes the block for a draw. -/
  update : Option UpdateRoutine

/-- A channel that carries a value from the vertex to the fragment stage. The vertex side allocates its
slot, the fragment side reads at that slot. -/
structure Channel where
  /-- Number of the channel, which both sides share. -/
  id : Nat
  /-- Contract of the interface variable. -/
  var : Variable
deriving DecidableEq, Inhabited

end ShaderWeave
