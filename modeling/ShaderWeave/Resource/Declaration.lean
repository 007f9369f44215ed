import ShaderWeave.Resource.Registry
import ShaderWeave.Target

/-!
# Global Declarations

How each target declares the resources of a stage.
-/

namespace ShaderWeave

/-- Direction of an interface variable, as seen from the stage that declares it. -/
inductive Direction where
  /-- Read by the stage. -/
  | input
  /-- Written by the stage. -/
  | output
deriving DecidableEq, Inhabited

/-- The keyword of a direction. -/
def Direction.keyword : Direction → String
  | input => "in"
  | output => "out"

namespace Target

/-- The version line and what has to come before all declarations. -/
def preamble : Target → String
  | vulkan => "#version 450"
  | opengl => "#version 410 core"
  | webgl2 =>
    "#version 300 es\nprecision highp float;\nprecision highp int;\nprecision highp sampler3D;"

/-- A location qualifier. -/
def location (n : UInt32) : String :=
  "layout(location = " ++ toString n ++ ") "

/-- The declaration of a vertex attribute. -/
def vertexInput (_ : Target) (a : BoundAttribute) : String :=
  location a.location ++ "in " ++ a.ty.glsl ++ " " ++ a.name ++ ";"

/-- The declaration of an interface variable. Where variables are matched by name there is no
location. -/
def interfaceVariable (target : Target) (slot : InterfaceSlot) (direction : Direction) : String :=
  let flat := if slot.var.isFlat then "flat " else ""
  let declared := flat ++ direction.keyword ++ " " ++ slot.var.declaration ++ ";"
  match target with
  | webgl2 => declared
  | _ => location slot.slot ++ declared

/-- The declaration of a color output. -/
def colorOutput (_ : Target) (output : ColorOutput) : String :=
  location output.location ++ "out vec4 " ++ output.name ++ ";"

/-- The lines of a block between braces. -/
def braced (head : String) (lines : List String) : String :=
  head ++ " \x7b\n" ++ String.intercalate "\n" lines ++ "\n\x7d;"

/-- The declaration of a uniform block. -/
def uniformBlock (target : Target) (block : UniformBlock) : String :=
  let qualifier := match target with
    | vulkan => "layout(std140, set = 0, binding = " ++ toString block.binding ++ ")"
    | _ => "layout(std140)"
  braced (qualifier ++ " uniform " ++ block.name)
    (block.layout.members.map fun member => "    " ++ member.declaration ++ ";")

/-- Name of the block that holds the push constants of a stage. -/
def pushConstantBlock (stage : StageMask) : String :=
  if stage = .vertex then "VertexPushConstants" else "FragmentPushConstants"

/-- The declaration of the push constants of a stage: one block, or plain uniforms where the target has
no push constants. -/
def pushConstants (target : Target) (stage : StageMask) (slots : List PushConstantSlot) : String :=
  match target with
  | vulkan =>
    braced ("layout(push_constant) uniform " ++ pushConstantBlock stage) (slots.map fun slot =>
      "    layout(offset = " ++ toString slot.offset ++ ") " ++ slot.ty.glsl ++ " " ++ slot.name
        ++ ";")
  | _ =>
    String.intercalate "\n" (slots.map fun slot =>
      "uniform " ++ slot.ty.glsl ++ " " ++ slot.name ++ ";")

/-- A uniform with an explicit binding. -/
def boundUniform (binding : Nat) (ty name : String) : String :=
  "layout(set = 0, binding = " ++ toString binding ++ ") uniform " ++ ty ++ " " ++ name ++ ";"

/-- The names and bindings of the separate textures of a sampler. -/
def separateTextures (sampler : SamplerBinding) : List (String × Nat) :=
  match sampler.arrayLen with
  | none => [(sampler.name, sampler.binding.toNat)]
  | some len => (List.range len.toNat).map fun i =>
    (textureElementName sampler.name i.toUInt32, sampler.binding.toNat + i)

/-- The declaration of a sampled texture. -/
def sampler (target : Target) (s : SamplerBinding) : String :=
  match target with
  | vulkan =>
    let textures := (separateTextures s).map fun (name, binding) =>
      boundUniform binding s.dim.textureType name
    String.intercalate "\n"
      (textures ++ [boundUniform s.samplerBinding.toNat "sampler" (samplerObjectName s.name)])
  | _ =>
    let var : Variable := { name := s.name, ty := .sampler s.dim, arrayLen := s.arrayLen }
    "uniform " ++ var.declaration ++ ";"

/-- Whether the bindings that the declaration of a sampled texture shows fit a word. They do if the
texture is registered. -/
def samplerFits (target : Target) (s : SamplerBinding) : Bool :=
  match target, s.arrayLen with
  | vulkan, some len => s.binding.toNat + len.toNat ≤ Word.limit
  | _, _ => true

/-- The declaration of a sampled texture, if its bindings fit. -/
def sampler? (target : Target) (s : SamplerBinding) : Option String :=
  if target.samplerFits s then some (target.sampler s) else none

/-- The declarations of the attributes of a stage. -/
def attributeSection (target : Target) (r : Registry) : List String :=
  r.attributes.map target.vertexInput

/-- The declarations of the interface of a stage: inputs by slot, then outputs, then color outputs. -/
def interfaceSection (target : Target) (r : Registry) : List String :=
  (r.inputs.mergeSort (·.slot ≤ ·.slot)).map (target.interfaceVariable · .input)
    ++ r.outputs.map (target.interfaceVariable · .output)
    ++ r.colorOutputs.map target.colorOutput

/-- The declarations of the blocks, push constants and samplers of a stage. -/
def bindingSection (target : Target) (r : Registry) : List String :=
  r.blocks.map (fun registered => target.uniformBlock registered.block)
    ++ (if r.pushConstants.isEmpty then []
        else [target.pushConstants r.stage.mask (r.pushConstants.map (·.slot))])
    ++ r.samplers.map target.sampler

end Target

end ShaderWeave
