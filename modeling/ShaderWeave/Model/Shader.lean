import ShaderWeave.Json.Value
import ShaderWeave.Pass.Emit
import ShaderWeave.Resource.Declaration

/-!
# Compiled Shaders

What compiling a model for a target gives: for each stage what was registered and what code was written.
Its sources and its manifest are printed from it, and draws refresh its uniform blocks and push
constants.
-/

namespace ShaderWeave

/-- A compiled stage. -/
structure StageProgram where
  /-- What its nodes registered. -/
  registry : Registry
  /-- The code of its nodes. -/
  code : StageCode

namespace StageProgram

/-- The lines of the main routine, without the indentation that they get in it. -/
def mainLines (program : StageProgram) : List String :=
  program.code.main.flatMap Code.lines

/-- A line inside the main routine. -/
def indentLine (line : String) : String :=
  if line.isEmpty then "\n" else "    " ++ line ++ "\n"

/-- The main routine. -/
def mainRoutine (program : StageProgram) : String :=
  "void main() \x7b\n" ++ String.join (program.mainLines.map indentLine) ++ "\x7d"

/-- A section of declarations, absent if there are none. -/
def declarations (lines : List String) : List String :=
  if lines.isEmpty then [] else [String.intercalate "\n" lines]

/-- The sections of the source, in order. -/
def sections (target : Target) (program : StageProgram) : List String :=
  target.preamble
    :: declarations (target.attributeSection program.registry)
    ++ declarations (target.interfaceSection program.registry)
    ++ declarations (target.bindingSection program.registry)
    ++ program.code.helpers.map (fun helper => trimIndent helper.2)
    ++ [program.mainRoutine]

/-- The source of the stage for a target. -/
def source (target : Target) (program : StageProgram) : String :=
  String.intercalate "\n\n" (program.sections target) ++ "\n"

end StageProgram

/-- A compiled model. -/
structure Shader where
  /-- Name of the model. -/
  name : String
  /-- The target that it is compiled for. -/
  target : Target
  /-- The vertex stage. -/
  vertex : StageProgram
  /-- The fragment stage. -/
  fragment : StageProgram

namespace Shader

/-- The source of a stage. A mask other than the fragment stage alone gives the vertex stage. -/
def source (shader : Shader) (stage : StageMask) : String :=
  if stage = .fragment then shader.fragment.source shader.target
  else shader.vertex.source shader.target

theorem source_vertex (shader : Shader) :
    shader.source .vertex = shader.vertex.source shader.target :=
  rfl

theorem source_fragment (shader : Shader) :
    shader.source .fragment = shader.fragment.source shader.target :=
  rfl

/-- The vertex attributes. -/
def attributes (shader : Shader) : List BoundAttribute :=
  shader.vertex.registry.attributes

/-- The interface between the stages. -/
def interface (shader : Shader) : List InterfaceSlot :=
  shader.vertex.registry.outputs

/-- Number of interface locations. -/
def interfaceSlotCount (shader : Shader) : UInt32 :=
  shader.vertex.registry.nextSlot

/-- What both stages have registered as uniform blocks. -/
def blocks (shader : Shader) : List RegisteredBlock :=
  shader.vertex.registry.blocks ++ shader.fragment.registry.blocks

/-- What both stages have registered as push constants. -/
def pushConstants (shader : Shader) : List RegisteredPushConstant :=
  shader.vertex.registry.pushConstants ++ shader.fragment.registry.pushConstants

/-- The uniform blocks. -/
def uniformBlocks (shader : Shader) : List UniformBlock :=
  shader.blocks.map (·.block)

/-- The update routines of the uniform blocks, in the same order. -/
def updaters (shader : Shader) : List UpdateRoutine :=
  shader.blocks.map (·.update)

/-- The push constants. -/
def pushConstantSlots (shader : Shader) : List PushConstantSlot :=
  shader.pushConstants.map (·.slot)

/-- The cells of the push constants, in the same order. -/
def pushConstantCells (shader : Shader) : List Nat :=
  shader.pushConstants.map (·.cell)

/-- Bytes of all push constants. -/
def pushConstantSize (shader : Shader) : UInt32 :=
  shader.fragment.registry.pushConstantSize

/-- The samplers of both stages. -/
def samplers (shader : Shader) : List SamplerBinding :=
  shader.vertex.registry.samplers ++ shader.fragment.registry.samplers

/-- A buffer of zeros for each uniform block. -/
def stagingBuffers (shader : Shader) : List (List UInt8) :=
  shader.uniformBlocks.map fun block => block.shape.blank.bytes

/-- Refresh one block for a draw; `none` if there is no such block or a write overruns. -/
def updateBlock (shader : Shader) (parameters : ParameterStore) (draw : DrawContext) (index : Nat) :
    Option BlockShape.Refreshed :=
  match shader.uniformBlocks[index]?, shader.updaters[index]? with
  | some block, some update => block.shape.refresh (update draw parameters)
  | _, _ => none

/-- Refresh one block for a draw in a buffer of the application; `none` if there is no such block or a
write overruns. -/
def updateBlockIn (shader : Shader) (parameters : ParameterStore) (draw : DrawContext) (index : Nat)
    (staging : List UInt8) : Option BlockShape.Staged :=
  match shader.uniformBlocks[index]?, shader.updaters[index]? with
  | some block, some update => block.shape.refreshIn staging (update draw parameters)
  | _, _ => none

/-- What refreshing all blocks for a draw leaves behind. -/
structure Refreshed where
  /-- The staging buffers. -/
  staging : List (List UInt8)
  /-- Number of blocks whose routine ended with an error. -/
  failed : Nat
  /-- The records that the routines kept. -/
  records : List WriteRecord

/-- Refresh the blocks from a position on, each in one of the buffers. Buffers without a block stay as
they are, and blocks without a buffer are not refreshed. -/
def updateFrom (shader : Shader) (parameters : ParameterStore) (draw : DrawContext) :
    (index : Nat) → List (List UInt8) → Option Refreshed
  | _, [] => some { staging := [], failed := 0, records := [] }
  | index, buffer :: staging =>
    if index < shader.updaters.length then do
      let first ← shader.updateBlockIn parameters draw index buffer
      let rest ← shader.updateFrom parameters draw (index + 1) staging
      return {
        staging := first.bytes :: rest.staging
        failed := (if first.error.isSome then 1 else 0) + rest.failed
        records := first.records ++ rest.records }
    else
      some { staging := buffer :: staging, failed := 0, records := [] }

/-- Refresh every block that has a buffer; `none` if a write overruns. -/
def updateUniforms (shader : Shader) (parameters : ParameterStore) (draw : DrawContext)
    (staging : List (List UInt8)) : Option Refreshed :=
  shader.updateFrom parameters draw 0 staging

/-- The buffer with each push constant stored at its offset; `none` if one does not fit. -/
def encodeInto (parameters : ParameterStore) :
    List PushConstantSlot → List Nat → BlockBuffer → Option BlockBuffer
  | slot :: slots, cell :: cells, buffer => do
    let value := (parameters.cell cell).bytes.take slot.size.toNat
    let buffer ← buffer.store? { offset := slot.offset.toNat, bytes := value } 0
    encodeInto parameters slots cells buffer
  | _, _, buffer => some buffer

/-- The push constants of the shader stored in zeros; `none` if one does not fit. -/
def encoded (shader : Shader) (parameters : ParameterStore) : Option BlockBuffer :=
  encodeInto parameters shader.pushConstantSlots shader.pushConstantCells
    { size := shader.pushConstantSize.toNat }

/-- The push constants as bytes, with the parameters as they are. -/
def encodePushConstants (shader : Shader) (parameters : ParameterStore) : Option (List UInt8) :=
  (shader.encoded parameters).map (·.bytes)

/-- The push constants put into a buffer of the application, which is emptied and filled up with zeros
to their size before; `none` if one does not fit. -/
def writePushConstants (shader : Shader) (parameters : ParameterStore) (out : List UInt8) :
    Option (List UInt8) :=
  (shader.encoded parameters).map
    fun buffer => buffer.copyInto (resize (resize out 0) shader.pushConstantSize.toNat)

/-! ## Blocks with Their Routines -/

theorem getElem?_updaters (shader : Shader) (index : Nat) :
    shader.uniformBlocks[index]? = shader.blocks[index]?.map (·.block) ∧
      shader.updaters[index]? = shader.blocks[index]?.map (·.update) :=
  ⟨List.getElem?_map, List.getElem?_map⟩

/-- The block at a position is refreshed by the routine that it was registered with. -/
theorem updateBlock_eq (shader : Shader) (parameters : ParameterStore) (draw : DrawContext)
    (index : Nat) :
    shader.updateBlock parameters draw index =
      shader.blocks[index]?.bind fun registered =>
        registered.block.shape.refresh (registered.update draw parameters) := by
  obtain ⟨hblock, hupdate⟩ := shader.getElem?_updaters index
  rw [updateBlock, hblock, hupdate]
  cases shader.blocks[index]? <;> rfl

theorem updateBlockIn_eq_bind (shader : Shader) (parameters : ParameterStore) (draw : DrawContext)
    (index : Nat) (staging : List UInt8) :
    shader.updateBlockIn parameters draw index staging =
      shader.blocks[index]?.bind fun registered =>
        registered.block.shape.refreshIn staging (registered.update draw parameters) := by
  obtain ⟨hblock, hupdate⟩ := shader.getElem?_updaters index
  rw [updateBlockIn, hblock, hupdate]
  cases shader.blocks[index]? <;> rfl

/-- Refresh blocks that are given with their routines, each in one of the buffers. -/
def updateBuffers (parameters : ParameterStore) (draw : DrawContext) :
    List RegisteredBlock → List (List UInt8) → Option Refreshed
  | registered :: blocks, buffer :: staging => do
    let first ← registered.block.shape.refreshIn buffer (registered.update draw parameters)
    let rest ← updateBuffers parameters draw blocks staging
    return {
      staging := first.bytes :: rest.staging
      failed := (if first.error.isSome then 1 else 0) + rest.failed
      records := first.records ++ rest.records }
  | _, staging => some { staging, failed := 0, records := [] }

theorem updateFrom_eq (shader : Shader) (parameters : ParameterStore) (draw : DrawContext)
    (index : Nat) (staging : List (List UInt8)) :
    shader.updateFrom parameters draw index staging =
      updateBuffers parameters draw (shader.blocks.drop index) staging := by
  have hlength : shader.updaters.length = shader.blocks.length := List.length_map _
  induction staging generalizing index with
  | nil => cases shader.blocks.drop index <;> rfl
  | cons buffer staging ih =>
    rw [updateFrom, hlength, updateBlockIn_eq_bind, ih]
    by_cases hindex : index < shader.blocks.length
    · rw [if_pos hindex, List.drop_eq_getElem_cons hindex, List.getElem?_eq_getElem hindex]
      rfl
    · rw [if_neg hindex, List.drop_of_length_le (Nat.le_of_not_lt hindex)]
      rfl

/-- A draw refreshes the blocks of both stages, each by the routine that it was registered with. -/
theorem updateUniforms_eq (shader : Shader) (parameters : ParameterStore) (draw : DrawContext)
    (staging : List (List UInt8)) :
    shader.updateUniforms parameters draw staging =
      updateBuffers parameters draw shader.blocks staging :=
  shader.updateFrom_eq parameters draw 0 staging

/-! ## Buffers of the Application -/

/-- What was in the buffer before does not matter to the refreshed block. -/
theorem updateBlockIn_eq (shader : Shader) (parameters : ParameterStore) (draw : DrawContext)
    (index : Nat) (staging : List UInt8) :
    shader.updateBlockIn parameters draw index staging =
      (shader.updateBlock parameters draw index).map fun refreshed =>
        { bytes := refreshed.bytes, error := refreshed.error, records := refreshed.records } := by
  rw [updateBlockIn_eq_bind, updateBlock_eq]
  cases shader.blocks[index]? with
  | none => rfl
  | some registered => exact BlockShape.refreshIn_eq ..

theorem size_encodeInto {parameters : ParameterStore} {slots : List PushConstantSlot}
    {cells : List Nat} {buffer after : BlockBuffer}
    (h : encodeInto parameters slots cells buffer = some after) : after.size = buffer.size := by
  induction slots, cells, buffer using encodeInto.induct parameters with
  | case1 slot slots cell cells buffer ih =>
    obtain ⟨stored, hstored, hrest⟩ := Option.bind_eq_some_iff.1 h
    exact (ih stored hrest).trans (BlockBuffer.size_store hstored)
  | case2 slots cells buffer hdone =>
    rw [encodeInto] at h
    · cases h
      rfl
    · exact hdone

/-- What was in the buffer before does not matter to the push constants. -/
theorem writePushConstants_eq (shader : Shader) (parameters : ParameterStore) (out : List UInt8) :
    shader.writePushConstants parameters out = shader.encodePushConstants parameters := by
  unfold writePushConstants encodePushConstants
  cases hencode : shader.encoded parameters with
  | none => rfl
  | some buffer =>
    have hsize : buffer.size = shader.pushConstantSize.toNat := size_encodeInto hencode
    rw [Option.map_some, Option.map_some, resize_resize_zero, ← hsize, BlockBuffer.copyInto_zeros]

end Shader

end ShaderWeave
