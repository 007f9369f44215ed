import ShaderWeave.Proofs.ExactLayout
import ShaderWeave.Proofs.KernelRange
import ShaderWeave.Proofs.LibraryCompilation
import ShaderWeave.Proofs.RecodedModels
import ShaderWeave.Proofs.WriteBounds

/-!
# The Block of Ambient Occlusion with and without the Inverse Projection

The two setups of ambient occlusion declare one block, which holds the inverse projection only where
positions are reconstructed from depth. Its declaration, its layout and its update routine depend on the
setup, each on its own. They agree: the block of one setup is that of the other with the bytes of this
member cut out, and with every other member as it is.

## Main definitions

* `Member.bytesIn`, `Member.cutFrom`: the bytes of a member in those of its block, and the others.
* `Design.libraryNodes`: the library nodes of a design.

## Main results

* `exists_occlusionShader`: ambient occlusion compiles with either setup, to a shader with this block.
* `inverse_projection_cut_out`: what one setup writes is what the other one does, with the member cut
  out.
-/

namespace ShaderWeave

/-! ## Cutting a Member Out -/

namespace Member

/-- The bytes of the member in those of its block. -/
def bytesIn (member : Member) (bytes : List UInt8) : List UInt8 :=
  (bytes.drop member.offset.toNat).take member.size.toNat

/-- The bytes of a block without those of the member. -/
def cutFrom (member : Member) (bytes : List UInt8) : List UInt8 :=
  bytes.take member.offset.toNat ++ bytes.drop (member.offset.toNat + member.size.toNat)

variable {member cut : Member} {bytes : List UInt8}

/-- Of bytes in three parts, a member that takes the one in the middle leaves the other two. -/
theorem cutFrom_append {front middle back : List UInt8} (hfront : front.length = cut.offset.toNat)
    (hmiddle : middle.length = cut.size.toNat) :
    cut.cutFrom (front ++ middle ++ back) = front ++ back ∧
      cut.bytesIn (front ++ middle ++ back) = middle := by
  rw [cutFrom, bytesIn, ← hfront, ← hmiddle, ← List.length_append, List.drop_left,
    List.append_assoc, List.take_left, List.drop_left, List.take_left]
  exact ⟨rfl, rfl⟩

/-- A member that ends before the cut keeps its bytes. -/
theorem bytesIn_cutFrom_of_before
    (hbefore : member.offset.toNat + member.size.toNat ≤ cut.offset.toNat)
    (hcut : cut.offset.toNat ≤ bytes.length) :
    member.bytesIn (cut.cutFrom bytes) = member.bytesIn bytes := by
  have hlength : (bytes.take cut.offset.toNat).length = cut.offset.toNat :=
    List.length_take_of_le hcut
  rw [bytesIn, cutFrom, List.drop_append_of_le_length (by omega),
    List.take_append_of_le_length (by rw [List.length_drop]; omega), List.drop_take, List.take_take,
    Nat.min_eq_left (by omega), bytesIn]

/-- A member behind the cut has its bytes where it is moved to. -/
theorem MovedBy.bytesIn_cutFrom {moved : Member} (hmoved : member.MovedBy cut.size.toNat moved)
    (hbehind : cut.offset.toNat ≤ member.offset.toNat) (hcut : cut.offset.toNat ≤ bytes.length) :
    member.bytesIn (cut.cutFrom bytes) = moved.bytesIn bytes := by
  have hlength : (bytes.take cut.offset.toNat).length = cut.offset.toNat :=
    List.length_take_of_le hcut
  rw [Member.bytesIn, cutFrom, List.drop_append, hlength, List.drop_eq_nil_of_le (by omega),
    List.nil_append, List.drop_drop, Member.bytesIn, hmoved.offset_eq, hmoved.size_eq]
  congr 2
  omega

end Member

namespace BlockLayout.Inserted

variable {shorter layout : BlockLayout} {position : Nat} {var : Variable} {cut : Member}
  {bytes : List UInt8}

/-- With one member cut out, each of the others has the same bytes as before. -/
theorem exists_bytesIn_eq (h : Inserted shorter layout position var cut.size.toNat)
    (hbefore : ∀ member ∈ shorter.members.take position,
      member.offset.toNat + member.size.toNat ≤ cut.offset.toNat)
    (hbehind : ∀ member ∈ shorter.members.drop position, cut.offset.toNat ≤ member.offset.toNat)
    (hcut : cut.offset.toNat ≤ bytes.length) {member : Member} (hmem : member ∈ shorter.members) :
    ∃ other ∈ layout.members, other.toVariable = member.toVariable ∧
      other.bytesIn bytes = member.bytesIn (cut.cutFrom bytes) := by
  rw [← List.take_append_drop position shorter.members] at hmem
  rcases List.mem_append.1 hmem with hfront | hback
  · refine ⟨member, ?_, rfl, (Member.bytesIn_cutFrom_of_before (hbefore member hfront) hcut).symm⟩
    rw [← h.front_eq] at hfront
    exact List.mem_of_mem_take hfront
  · obtain ⟨hlength, hmoved⟩ := List.forall₂_iff_get.1 h.back_moved
    obtain ⟨index, hindex, rfl⟩ := List.mem_iff_get.1 hback
    have hother := hmoved index index.isLt (hlength ▸ index.isLt)
    exact ⟨_, List.mem_of_mem_drop (List.get_mem _ _), hother.variable_eq,
      (hother.bytesIn_cutFrom (hbehind _ hback) hcut).symm⟩

end BlockLayout.Inserted

/-! ## Compiling Ambient Occlusion -/

/-- The nodes of a stage of a design that come from the library. -/
def Design.libraryNodes (d : Design) (stage : Stage) : List LibraryNode :=
  (d.nodes stage).filterMap fun
    | .library node => some node
    | .scripted _ => none

namespace AmbientOcclusion

/-- The nodes of ambient occlusion with a setup. -/
def occlusionNodes (setup : Setup) : Stage → List LibraryNode :=
  (Preset.occlusionWorkspace setup .initial).design.libraryNodes

/-- The nodes do not depend on the settings, which are behind a number. -/
theorem model_occlusionWorkspace (setup : Setup) (settings : Settings) :
    (Preset.occlusionWorkspace setup settings).design.model =
      libraryModel (Preset.ofSetup setup).label (graphsFrom 0) (occlusionNodes setup) := by
  cases setup <;> rfl

/-- Ambient occlusion compiles with either setup, to a shader with one block, which is that of its
uniforms. -/
theorem exists_occlusionShader (setup : Setup) (settings : Settings) (target : Target) :
    ∃ shader registered,
      ((Preset.occlusionWorkspace setup settings).design.model.compile
        { target, parameters := (Preset.occlusionWorkspace setup settings).parameters }).outcome =
          .ok shader ∧
      shader.blocks = [registered] ∧
      registered.IsFor (DrawBlock.occlusion setup.needsInverseProjection 0).request .fragment := by
  have hvulkan : ((libraryModel (Preset.ofSetup setup).label (graphsFrom 0)
      (occlusionNodes setup)).compile { target := .vulkan }).outcome.toOption.map
        (fun shader => shader.blocks.map (·.block.stage)) = some [.fragment] := by
    cases setup <;> decide +kernel
  -- Blocks are the same for all targets.
  obtain ⟨shader, hshader, hblocks⟩ :
      ∃ shader, ((libraryModel (Preset.ofSetup setup).label (graphsFrom 0)
        (occlusionNodes setup)).compile { target }).outcome = .ok shader ∧
        shader.blocks.map (·.block.stage) = [.fragment] := by
    obtain ⟨found, hfound, hblocks⟩ := exists_ok_of_map_eq hvulkan
    have hretarget := (libraryDesign (Preset.ofSetup setup).label (graphsFrom 0)
      (occlusionNodes setup)).compile_retarget { target := .vulkan } target
    exact ⟨found.recode target.recoding, hretarget.trans (congrArg _ hfound), hblocks⟩
  have hasked : (occlusionNodes setup .fragment).filterMap (·.drawBlock?) =
      [.occlusion setup.needsInverseProjection 0] := by
    cases setup <;> rfl
  obtain ⟨registered, hregistered, hstage⟩ := List.map_eq_singleton_iff.1 hblocks
  obtain ⟨node, hnode, block, hblock, hfor⟩ := exists_drawBlock_of_mem_blocks hshader
    (show registered ∈ shader.blocks by simp [hregistered])
  rw [hstage] at hnode hfor
  have hmem : block ∈ (occlusionNodes setup .fragment).filterMap (·.drawBlock?) :=
    List.mem_filterMap.2 ⟨node, hnode, hblock⟩
  rw [hasked, List.mem_singleton] at hmem
  refine ⟨shader, registered, ?_, hregistered, hmem ▸ hfor⟩
  rw [model_occlusionWorkspace]
  exact compile_of_parameters hshader _

/-- The only block of a shader is refreshed in any buffer, without an error. -/
theorem updateBlockIn_eq {shader : Shader} {registered : RegisteredBlock} {block : DrawBlock}
    {stage : Stage} (hblocks : shader.blocks = [registered])
    (hfor : registered.IsFor block.request stage) (draw : DrawContext) (parameters : ParameterStore)
    (buffer : List UInt8) :
    shader.updateBlockIn parameters draw 0 buffer =
        some { bytes := block.bytes draw parameters, error := none, records := [] } ∧
      (block.bytes draw parameters).length = registered.block.layout.size.toNat := by
  obtain ⟨written, hrefresh, hbytes⟩ := hfor.refresh_eq draw parameters
  have hlength := (BlockShape.refresh_eq_some hrefresh).1
  rw [BlockShape.Refreshed.bytes, hbytes] at hlength
  refine ⟨?_, hlength⟩
  rw [Shader.updateBlockIn_eq, Shader.updateBlock_eq, hblocks]
  simp only [List.getElem?_cons_zero, Option.bind_some, hrefresh, Option.map_some,
    BlockShape.Refreshed.bytes, hbytes]

/-! ## The Two Blocks -/

/-- What comes before and behind the inverse projection, in the layouts with it and without it. -/
theorem exists_inverse {wide narrow : BlockLayout}
    (hwide : BlockLayout.std140? (OcclusionUniforms.members true) = some wide)
    (hnarrow : BlockLayout.std140? (OcclusionUniforms.members false) = some narrow) :
    ∃ inverse : Member, wide.members[2]? = some inverse ∧ inverse.offset = 1088 ∧ inverse.size = 64 ∧
      BlockLayout.Inserted narrow wide 2 OcclusionUniforms.invProjVar 64 ∧
      (∀ member ∈ narrow.members.take 2, member.offset.toNat + member.size.toNat ≤ 1088) ∧
      ∀ member ∈ narrow.members.drop 2, 1088 ≤ member.offset.toNat := by
  have hinverse : ∀ layout ∈ BlockLayout.std140? (OcclusionUniforms.members true),
      layout.members[2]?.map (fun member => (member.offset, member.size)) = some (1088, 64) ∧
        runningEnd (layout.members.take 3) = runningEnd (layout.members.take 2) + 16 * 4 := by
    decide
  have hothers : ∀ layout ∈ BlockLayout.std140? (OcclusionUniforms.members false),
      (∀ member ∈ layout.members.take 2, member.offset.toNat + member.size.toNat ≤ 1088) ∧
        ∀ member ∈ layout.members.drop 2, 1088 ≤ member.offset.toNat := by
    decide
  obtain ⟨hplace, hgrown⟩ := hinverse wide hwide
  obtain ⟨inverse, hmember, hextent⟩ := Option.map_eq_some_iff.1 hplace
  obtain ⟨hoffset, hsize⟩ := Prod.mk.inj hextent
  exact ⟨inverse, hmember, hoffset, hsize,
    @inserted_of_rows [_, _] _ _ _ _ _ hwide hnarrow hgrown, hothers narrow hnarrow⟩

/-- The bytes before the inverse projection: the samples, each in a row, and the projection. -/
def leadingBytes (draw : DrawContext) : List UInt8 :=
  (OcclusionUniforms.samples.flatMap fun sample => arrayBytes 16 [.vec3 sample]).rightpad 1024 0
    ++ (Datum.mat4 draw.camera.proj).bytes

theorem length_leadingBytes (draw : DrawContext) : (leadingBytes draw).length = 1088 := by
  have hsample : ∀ sample : Vec3, (arrayBytes 16 [.vec3 sample]).length = 16 := fun _ => rfl
  have hsamples : OcclusionUniforms.samples.length = 64 := length_generateKernel _
  have hproj : (Datum.mat4 draw.camera.proj).bytes.length = 64 := rfl
  rw [leadingBytes, List.length_append, hproj, List.rightpad, List.length_append,
    List.length_replicate, List.length_flatMap]
  simp only [hsample, List.map_const', hsamples, List.sum_replicate_nat]

/-- The two blocks begin and end with the same bytes, and one of them holds the inverse projection in
between. -/
theorem exists_trailing (draw : DrawContext) (parameters : ParameterStore) (number : Nat) :
    ∃ trailing, (DrawBlock.occlusion true number).bytes draw parameters =
        leadingBytes draw ++ (Datum.mat4 draw.camera.invProj).bytes ++ trailing ∧
      (DrawBlock.occlusion false number).bytes draw parameters = leadingBytes draw ++ trailing := by
  refine ⟨_, rfl, ?_⟩
  rw [← List.append_nil (leadingBytes draw)]
  rfl

/-- Cut out of the block, the inverse projection leaves the bytes of the block without it. -/
theorem cutFrom_bytes {inverse : Member} (hoffset : inverse.offset = 1088) (hsize : inverse.size = 64)
    (draw : DrawContext) (parameters : ParameterStore) (number : Nat) :
    let bytes := (DrawBlock.occlusion true number).bytes draw parameters
    inverse.cutFrom bytes = (DrawBlock.occlusion false number).bytes draw parameters ∧
      inverse.bytesIn bytes = (Datum.mat4 draw.camera.invProj).bytes ∧
      inverse.offset.toNat ≤ bytes.length := by
  intro bytes
  obtain ⟨trailing, hwide, hnarrow⟩ := exists_trailing draw parameters number
  have hfront : (leadingBytes draw).length = inverse.offset.toNat := by
    rw [length_leadingBytes, hoffset]
    rfl
  have hmiddle : (Datum.mat4 draw.camera.invProj).bytes.length = inverse.size.toNat := by
    rw [hsize]
    rfl
  obtain ⟨hcut, hbytes⟩ := @Member.cutFrom_append inverse _ _ trailing hfront hmiddle
  refine ⟨?_, ?_, ?_⟩
  · rw [hnarrow, ← hcut, ← hwide]
  · rw [← hbytes, ← hwide]
  · rw [show bytes = _ from hwide, List.length_append, List.length_append, hfront]
    omega

/-- The conditional inverse projection removes exactly itself. Ambient occlusion compiles with both
setups for every target, whatever its settings, and each shader has one block.

The members of the block of the deferred setup are those of the forward one without `uInvProj`: members
before it keep their places, and members after it and the end of the block come 64 bytes earlier. For
every draw and all values of the parameters, later changes of the settings included, both blocks are
refreshed without an error, whatever is in the buffers. What is written for the deferred setup are the
bytes for the forward one with those of `uInvProj` cut out, and every other member has the same bytes in
both. -/
theorem inverse_projection_cut_out (settings : Settings) (target : Target) :
    let workspace (setup : Setup) := Preset.occlusionWorkspace setup settings
    let compiled (setup : Setup) :=
      ((workspace setup).design.model.compile
        { target, parameters := (workspace setup).parameters }).outcome
    ∃ (forward deferred : Shader) (wide narrow : RegisteredBlock) (inverse : Member),
      compiled .forward = .ok forward ∧ compiled .deferred = .ok deferred ∧
      forward.blocks = [wide] ∧ deferred.blocks = [narrow] ∧
      wide.block.name = "AoUniforms" ∧ narrow.block.name = "AoUniforms" ∧
      wide.block.layout.members[2]? = some inverse ∧ inverse.name = "uInvProj" ∧ inverse.size = 64 ∧
      narrow.block.layout.members.map (·.toVariable) =
        (wide.block.layout.members.map (·.toVariable)).filter (·.name ≠ "uInvProj") ∧
      BlockLayout.Inserted narrow.block.layout wide.block.layout 2 inverse.toVariable 64 ∧
      ∀ (draw : DrawContext) (current : ParameterStore) (buffer buffer' : List UInt8), ∃ bytes,
        forward.updateBlockIn current draw 0 buffer =
          some { bytes, error := none, records := [] } ∧
        deferred.updateBlockIn current draw 0 buffer' =
          some { bytes := inverse.cutFrom bytes, error := none, records := [] } ∧
        bytes.length = wide.block.layout.size.toNat ∧
        inverse.bytesIn bytes = (Datum.mat4 draw.camera.invProj).bytes ∧
        ∀ member ∈ narrow.block.layout.members, ∃ other ∈ wide.block.layout.members,
          other.toVariable = member.toVariable ∧
            other.bytesIn bytes = member.bytesIn (inverse.cutFrom bytes) := by
  intro workspace compiled
  obtain ⟨forward, wide, hforward, hwide, hwideFor⟩ :=
    exists_occlusionShader .forward settings target
  obtain ⟨deferred, narrow, hdeferred, hnarrow, hnarrowFor⟩ :=
    exists_occlusionShader .deferred settings target
  obtain ⟨inverse, hmember, hoffset, hsize, hinserted, hbefore, hbehind⟩ :=
    exists_inverse hwideFor.layout_eq hnarrowFor.layout_eq
  have hvar : inverse.toVariable = OcclusionUniforms.invProjVar := by
    have hinverse := hinserted.inserted_eq
    rw [hmember] at hinverse
    exact Option.some.inj hinverse
  have hmembers : narrow.block.layout.members.map (·.toVariable) =
      (wide.block.layout.members.map (·.toVariable)).filter (·.name ≠ "uInvProj") := by
    rw [members_of_std140? hwideFor.layout_eq, members_of_std140? hnarrowFor.layout_eq]
    decide
  refine ⟨forward, deferred, wide, narrow, inverse, hforward, hdeferred, hwide, hnarrow,
    hwideFor.name_eq, hnarrowFor.name_eq, hmember, congrArg Variable.name hvar, hsize, hmembers,
    hvar ▸ hinserted, fun draw current buffer buffer' => ?_⟩
  obtain ⟨hwritten, hlength⟩ := updateBlockIn_eq hwide hwideFor draw current buffer
  obtain ⟨hothers, -⟩ := updateBlockIn_eq hnarrow hnarrowFor draw current buffer'
  obtain ⟨hcut, hbytes, hle⟩ := cutFrom_bytes hoffset hsize draw current 0
  refine ⟨(DrawBlock.occlusion true 0).bytes draw current, hwritten, by rw [hcut]; exact hothers,
    hlength, hbytes, fun member hmem => ?_⟩
  have hamount : inverse.size.toNat = 64 := congrArg UInt32.toNat hsize
  have hplace : inverse.offset.toNat = 1088 := congrArg UInt32.toNat hoffset
  refine BlockLayout.Inserted.exists_bytesIn_eq (hamount.symm ▸ hinserted) ?_ ?_ hle hmem
  · rwa [hplace]
  · rwa [hplace]

end AmbientOcclusion

end ShaderWeave
