import ShaderWeave.Json.Value
import ShaderWeave.Model.Shader

/-!
# Manifests

A description of what a compiled shader binds, for the application that draws with it.
-/

namespace ShaderWeave

/-- A type by its name. -/
def ValueType.toJson (ty : ValueType) : Json := .str ty.label

/-- A variable with its type and length. -/
def Variable.toJson (var : Variable) : Json :=
  .record [("name", .str var.name), ("ty", var.ty.toJson),
    ("array_len", .option .word var.arrayLen)]

/-- An interface variable with its slot. -/
def InterfaceSlot.toJson (slot : InterfaceSlot) : Json :=
  .record [("slot", .word slot.slot), ("var", slot.var.toJson)]

/-- An attribute with its location. -/
def BoundAttribute.toJson (a : BoundAttribute) : Json :=
  .record [("name", .str a.name), ("ty", a.ty.toJson), ("location", .word a.location)]

/-- A member of a block with its place. -/
def Member.toJson (member : Member) : Json :=
  .record [("name", .str member.name), ("ty", member.ty.toJson),
    ("array_len", .option .word member.arrayLen), ("offset", .word member.offset),
    ("stride", .word member.stride), ("size", .word member.size)]

/-- A stage by its name. -/
def Stage.toJson (stage : Stage) : Json := .str stage.manifestLabel

/-- A uniform block with its binding and members. -/
def UniformBlock.toJson (block : UniformBlock) : Json :=
  .record [("name", .str block.name), ("stage", block.stage.toJson),
    ("binding", .word block.binding), ("members", .array (block.layout.members.map (·.toJson))),
    ("size", .word block.layout.size)]

/-- A push constant with its offset. -/
def PushConstantSlot.toJson (slot : PushConstantSlot) : Json :=
  .record [("name", .str slot.name), ("stage", slot.stage.toJson), ("ty", slot.ty.toJson),
    ("offset", .word slot.offset), ("size", .word slot.size)]

/-- A sampler with its bindings. -/
def SamplerBinding.toJson (sampler : SamplerBinding) : Json :=
  .record [("name", .str sampler.name), ("stage", sampler.stage.toJson),
    ("dim", .str sampler.dim.label), ("array_len", .option .word sampler.arrayLen),
    ("binding", .word sampler.binding), ("sampler_binding", .word sampler.samplerBinding)]

namespace Shader

/-- The bindings of both stages. -/
def bindings (shader : Shader) : Json :=
  .record [
    ("uniform_blocks", .array (shader.uniformBlocks.map (·.toJson))),
    ("push_constants", .array (shader.pushConstantSlots.map (·.toJson))),
    ("push_constant_size", .word shader.pushConstantSize),
    ("samplers", .array (shader.samplers.map (·.toJson)))]

/-- The manifest of a shader. -/
def manifest (shader : Shader) : Json :=
  .record [
    ("name", .str shader.name),
    ("backend", .str shader.target.label),
    ("attributes", .array (shader.attributes.map (·.toJson))),
    ("interface", .array (shader.interface.map (·.toJson))),
    ("interface_slot_count", .word shader.interfaceSlotCount),
    ("bindings", shader.bindings)]

end Shader

end ShaderWeave
