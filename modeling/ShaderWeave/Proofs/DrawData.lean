import ShaderWeave.Proofs.BlockContents
import ShaderWeave.Proofs.BindingRequests
import ShaderWeave.Proofs.GlobalIdentifiers

/-!
# Draw Data in Uniform Blocks

The nodes of the library ask for four kinds of uniform blocks. Each is refreshed by a routine that writes
its members in order, an array from its first element on, so that no write is refused, and what the block
holds afterwards is known byte for byte: the matrices of the camera, the lights and their matrices as far
as the arrays reach, and the uniforms of ambient occlusion, with zeros where nothing is written.

Values are the words that a draw and the parameters give; in particular the cosine of half the angle of a
spot light is one of them.

## Main definitions

* `DrawBlock`: a block of the library, with its request, the `contents` of its members and its `bytes`
  for a draw.
* `LibraryNode.drawBlock?`: the block that a node asks for.
* `CompileFailure.OfTrial`: a failure of the trial of an update routine.

## Main results

* `DrawBlock.update_eq_writeAll`: an update routine writes the contents of its block.
* `DrawBlock.blockImage_contents`: the contents, laid out, are the bytes.
* `library_updates_write_draw_data`: in a model of library nodes no update routine fails, and for every
  draw each buffer holds the bytes of its block.
-/

namespace ShaderWeave

open Std140

/-! ## The Blocks of the Library -/

/-- A uniform block of the library, with the length of its arrays or the number of its settings. -/
inductive DrawBlock where
  /-- The matrices of the camera. -/
  | camera
  /-- An array of lights. -/
  | lights (max : UInt32)
  /-- The matrices of lights with shadows. -/
  | shadows (max : UInt32)
  /-- The uniforms of ambient occlusion. -/
  | occlusion (inverse : Bool) (settings : Nat)
deriving DecidableEq

namespace DrawBlock

/-- How a node asks for the block. -/
def request : DrawBlock → BlockRequest
  | camera => CameraNode.block
  | lights max => LightArray.block max
  | shadows max => Shadow.block max
  | occlusion inverse settings => OcclusionUniforms.block inverse settings

/-- What the members of the block hold for a draw. -/
def contents (draw : DrawContext) (parameters : ParameterStore) : DrawBlock → List MemberContent
  | camera =>
    [⟨CameraNode.modelMatrix, [.mat4 draw.model]⟩,
      ⟨CameraNode.viewMatrix, [.mat4 draw.camera.view]⟩,
      ⟨CameraNode.projMatrix, [.mat4 draw.camera.proj]⟩,
      ⟨CameraNode.mvpMatrix, [.mat4 draw.mvp]⟩]
  | lights max =>
    let active := draw.lights.take max.toNat
    [⟨LightArray.positions max,
        active.map fun light => .vec4 (light.position.extend light.kind.encoded)⟩,
      ⟨LightArray.colors max, active.map fun light => .vec4 light.color⟩,
      ⟨LightArray.directions max,
        active.map fun light => .vec4 (light.direction.extend light.cosHalfAngle)⟩,
      ⟨LightArray.count, [.int (Int32.ofNat active.length)]⟩]
  | shadows max =>
    [⟨Shadow.lightMatrices max,
      (draw.lights.take max.toNat).map fun light => .mat4 light.clipFromWorld⟩]
  | occlusion inverse settings =>
    let tuned := parameters.settings settings
    let noise := Binary32.ofUInt32 4
    ⟨OcclusionUniforms.kernelVar, OcclusionUniforms.samples.map .vec3⟩
      :: ⟨OcclusionUniforms.projVar, [.mat4 draw.camera.proj]⟩
      :: (if inverse then [⟨OcclusionUniforms.invProjVar, [.mat4 draw.camera.invProj]⟩] else [])
      ++ [⟨OcclusionUniforms.noiseScaleVar,
            [.vec2 ⟨.ofUInt32 draw.width / noise, .ofUInt32 draw.height / noise⟩]⟩,
          ⟨OcclusionUniforms.radiusVar, [.float tuned.radius]⟩,
          ⟨OcclusionUniforms.strengthVar, [.float tuned.strength]⟩,
          ⟨OcclusionUniforms.powerVar, [.float tuned.power]⟩,
          ⟨OcclusionUniforms.biasVar, [.float tuned.bias]⟩,
          ⟨OcclusionUniforms.kernelRangeVar, [.ivec2 tuned.rangeFrom tuned.rangeTo]⟩]

variable (block : DrawBlock) (draw : DrawContext) (parameters : ParameterStore)

theorem vars_contents : (block.contents draw parameters).map (·.var) = block.request.members := by
  cases block with
  | camera | lights | shadows => rfl
  | occlusion inverse settings => cases inverse <;> rfl

theorem nodup_names_contents : ((block.contents draw parameters).map (·.var.name)).Nodup := by
  have hnames : (block.contents draw parameters).map (·.var.name) =
      block.request.members.map (·.name) := by
    rw [← vars_contents block draw parameters, List.map_map]
    rfl
  rw [hnames]
  cases block with
  | camera => exact LibraryBlock.camera.nodup_memberNames
  | lights max => exact LibraryBlock.lights.nodup_memberNames
  | shadows max => exact LibraryBlock.shadows.nodup_memberNames
  | occlusion inverse settings => exact (LibraryBlock.occlusion inverse).nodup_memberNames

theorem length_samples_le : OcclusionUniforms.samples.length ≤ 64 := by
  simp only [OcclusionUniforms.samples, AmbientOcclusion.generateKernel, List.length_zipWith,
    List.length_map, List.length_range]
  exact Nat.min_le_left _ _

theorem fits_contents : ∀ content ∈ block.contents draw parameters, content.Fits := by
  intro content hmem
  cases block with
  | camera =>
    simp only [contents, List.mem_cons, List.not_mem_nil, or_false] at hmem
    rcases hmem with rfl | rfl | rfl | rfl <;> exact .single rfl (by decide)
  | lights max =>
    have hcount := List.length_take_le max.toNat draw.lights
    simp only [contents, List.mem_cons, List.not_mem_nil, or_false] at hmem
    rcases hmem with rfl | rfl | rfl | rfl
    · exact .map rfl (fun _ => rfl) hcount
    · exact .map rfl (fun _ => rfl) hcount
    · exact .map rfl (fun _ => rfl) hcount
    · exact .single rfl (by decide)
  | shadows max =>
    rw [List.mem_singleton.1 hmem]
    exact .map rfl (fun _ => rfl) (List.length_take_le max.toNat draw.lights)
  | occlusion inverse settings =>
    simp only [contents, List.cons_append, List.mem_cons, List.mem_append, List.not_mem_nil,
      or_false] at hmem
    rcases hmem with rfl | rfl | hinverse | rfl | rfl | rfl | rfl | rfl | rfl
    · exact .map rfl (fun _ => rfl) length_samples_le
    · exact .single rfl (by decide)
    · split at hinverse
      · rw [List.mem_singleton.1 hinverse]
        exact .single rfl (by decide)
      · cases hinverse
    all_goals exact .single rfl (by decide)

end DrawBlock

/-! ## The Routines as Lists of Writes -/

theorem Updating.writeAll_singleton (w : Write) : writeAll [w] = Updating.write w :=
  Routine.bind_done_right (Updating.write w)

theorem LightArray.writeEach_eq_writeAll {var : Variable} {max : UInt32} (entry : Light → Datum)
    (hlen : var.arrayLen = some max) (start : Nat) (lights : List Light) :
    LightArray.writeEach var.name entry (UInt32.ofNat start) lights =
      .writeAll (MemberContent.elementWrites var start (lights.map entry)) := by
  -- The routine counts in words, the contents in numbers; the count of the next element is the same.
  induction lights generalizing start with
  | nil => rfl
  | cons light rest ih =>
    rw [List.map_cons, MemberContent.elementWrites, Write.elementWrite, hlen, Updating.writeAll,
      ← ih (start + 1), LightArray.writeEach, UInt32.ofNat_add]
    rfl

theorem OcclusionUniforms.writeSamples_eq_writeAll (start : Nat) (samples : List Vec3) :
    OcclusionUniforms.writeSamples (UInt32.ofNat start) samples =
      .writeAll (MemberContent.elementWrites kernelVar start (samples.map .vec3)) := by
  induction samples generalizing start with
  | nil => rfl
  | cons sample rest ih =>
    rw [List.map_cons, MemberContent.elementWrites, Write.elementWrite, Updating.writeAll,
      ← ih (start + 1), OcclusionUniforms.writeSamples, UInt32.ofNat_add]
    rfl

theorem MemberContent.writeAll_single (var : Variable) (entry : Datum) :
    Updating.writeAll (writes ⟨var, [entry]⟩) = Updating.write (.elementWrite var 0 entry) :=
  Updating.writeAll_singleton _

theorem MemberContent.writeAll_lights {var : Variable} {max : UInt32}
    (hlen : var.arrayLen = some max) (entry : Light → Datum) (lights : List Light) :
    Updating.writeAll (writes ⟨var, lights.map entry⟩) =
      LightArray.writeEach var.name entry 0 lights :=
  (LightArray.writeEach_eq_writeAll entry hlen 0 lights).symm

theorem MemberContent.writeAll_samples (samples : List Vec3) :
    Updating.writeAll (writes ⟨OcclusionUniforms.kernelVar, samples.map .vec3⟩) =
      OcclusionUniforms.writeSamples 0 samples :=
  (OcclusionUniforms.writeSamples_eq_writeAll 0 samples).symm

/-- What refreshes the block writes the contents, member by member. -/
theorem DrawBlock.update_eq_writeAll {block : DrawBlock} {update : UpdateRoutine}
    (h : block.request.update = some update) (draw : DrawContext) (parameters : ParameterStore) :
    update draw parameters =
      .writeAll ((block.contents draw parameters).flatMap (·.writes)) := by
  cases block with
  | camera =>
    obtain rfl := Option.some.inj h
    simp only [contents, List.flatMap_cons, List.flatMap_nil, List.append_nil,
      Updating.writeAll_append, MemberContent.writeAll_single]
    rfl
  | lights max =>
    obtain rfl := Option.some.inj h
    simp only [contents, List.flatMap_cons, List.flatMap_nil, List.append_nil,
      Updating.writeAll_append, MemberContent.writeAll_single]
    rw [MemberContent.writeAll_lights rfl, MemberContent.writeAll_lights rfl,
      MemberContent.writeAll_lights rfl]
    rfl
  | shadows max =>
    obtain rfl := Option.some.inj h
    simp only [contents, List.flatMap_cons, List.flatMap_nil, List.append_nil]
    rw [MemberContent.writeAll_lights rfl]
    rfl
  | occlusion inverse settings =>
    obtain rfl := Option.some.inj h
    have hkernel := MemberContent.writeAll_samples OcclusionUniforms.samples
    cases inverse with
    | false =>
      simp only [contents, Bool.false_eq_true, ↓reduceIte, List.cons_append, List.nil_append,
        List.flatMap_cons, List.flatMap_nil, List.append_nil, Updating.writeAll_append, hkernel]
      simp only [MemberContent.writeAll_single]
      rfl
    | true =>
      simp only [contents, ↓reduceIte, List.cons_append, List.nil_append,
        List.flatMap_cons, List.flatMap_nil, List.append_nil, Updating.writeAll_append, hkernel]
      simp only [MemberContent.writeAll_single]
      rfl

/-! ## The Bytes of a Draw -/

namespace DrawBlock

/-- The bytes of the block for a draw. -/
def bytes (draw : DrawContext) (parameters : ParameterStore) : DrawBlock → List UInt8
  | camera =>
    [draw.model, draw.camera.view, draw.camera.proj, draw.mvp].flatMap fun m => (Datum.mat4 m).bytes
  | lights max =>
    let active := draw.lights.take max.toNat
    arrayBytes (16 * max.toNat)
        (active.map fun light => .vec4 (light.position.extend light.kind.encoded))
      ++ arrayBytes (16 * max.toNat) (active.map fun light => .vec4 light.color)
      ++ arrayBytes (16 * max.toNat)
        (active.map fun light => .vec4 (light.direction.extend light.cosHalfAngle))
      ++ (Datum.int (Int32.ofNat (min max.toNat draw.lights.length))).bytes
      ++ List.replicate 12 0
  | shadows max =>
    arrayBytes (64 * max.toNat)
      ((draw.lights.take max.toNat).map fun light => .mat4 light.clipFromWorld)
  | occlusion inverse settings =>
    let tuned := parameters.settings settings
    let noise := Binary32.ofUInt32 4
    (OcclusionUniforms.samples.flatMap fun sample => arrayBytes 16 [.vec3 sample]).rightpad 1024 0
      ++ (Datum.mat4 draw.camera.proj).bytes
      ++ (if inverse then (Datum.mat4 draw.camera.invProj).bytes else [])
      ++ [Datum.vec2 ⟨.ofUInt32 draw.width / noise, .ofUInt32 draw.height / noise⟩,
          .float tuned.radius, .float tuned.strength, .float tuned.power, .float tuned.bias,
          .ivec2 tuned.rangeFrom tuned.rangeTo].flatMap Datum.bytes

variable (block : DrawBlock) (draw : DrawContext) (parameters : ParameterStore)

theorem memberSize_lights (max : UInt32) :
    memberSize (LightArray.positions max) = 16 * max.toNat ∧
      memberSize (LightArray.colors max) = 16 * max.toNat ∧
      memberSize (LightArray.directions max) = 16 * max.toNat := by
  have hrows : 16 ∣ Std140.size .vec4 := by decide
  exact ⟨memberSize_of_rows rfl hrows, memberSize_of_rows rfl hrows, memberSize_of_rows rfl hrows⟩

theorem sum_memberSize_lights (max : UInt32) :
    ((LightArray.block max).members.map memberSize).sum = 48 * max.toNat + 4 := by
  obtain ⟨hpositions, hcolors, hdirections⟩ := memberSize_lights max
  change memberSize _ + (memberSize _ + (memberSize _ + 4)) = _
  omega

/-- No block of the library has gaps between its members. -/
theorem gapless_members : Gapless 0 block.request.members := by
  cases block with
  | camera => exact ⟨by decide, by decide, by decide, by decide, trivial⟩
  | lights max =>
    -- The arrays are whole rows, so that each member begins at a row, whatever their length.
    obtain ⟨hpositions, hcolors, hdirections⟩ := memberSize_lights max
    refine ⟨Nat.dvd_zero _, ?_, ?_, ?_, trivial⟩
    · change 16 ∣ 0 + memberSize _
      omega
    · change 16 ∣ 0 + memberSize _ + memberSize _
      omega
    · change 4 ∣ 0 + memberSize _ + memberSize _ + memberSize _
      omega
  | shadows max => exact ⟨Nat.dvd_zero _, trivial⟩
  | occlusion inverse settings =>
    cases inverse with
    | false =>
      exact ⟨by decide, by decide, by decide, by decide, by decide, by decide, by decide, by decide,
        trivial⟩
    | true =>
      exact ⟨by decide, by decide, by decide, by decide, by decide, by decide, by decide, by decide,
        by decide, trivial⟩

theorem image_kernel (samples : List Vec3) :
    MemberContent.image ⟨OcclusionUniforms.kernelVar, samples.map .vec3⟩ =
      (samples.flatMap fun sample => arrayBytes 16 [.vec3 sample]).rightpad 1024 0 := by
  have hstride : elementStride OcclusionUniforms.kernelVar = 16 := by decide
  have hsize : memberSize OcclusionUniforms.kernelVar = 1024 := by decide
  simp only [MemberContent.image, hstride, hsize, List.flatMap_map, arrayBytes,
    List.flatMap_singleton]

/-- A block of whole rows holds the images of its members side by side. -/
theorem blockImage_contents_of_rows (hrows : 16 ∣ (block.request.members.map memberSize).sum) :
    blockImage (block.contents draw parameters) =
      (block.contents draw parameters).flatMap (·.image) := by
  have hvars := block.vars_contents draw parameters
  exact blockImage_of_rows (hvars ▸ block.gapless_members) (block.fits_contents draw parameters)
    (hvars ▸ hrows)

theorem blockImage_camera :
    blockImage (camera.contents draw parameters) = camera.bytes draw parameters := by
  rw [blockImage_contents_of_rows _ _ _ (by decide)]
  simp only [contents, List.flatMap_cons, List.flatMap_nil]
  repeat rw [MemberContent.image_single rfl rfl]
  rfl

theorem blockImage_lights (max : UInt32) :
    blockImage ((lights max).contents draw parameters) = (lights max).bytes draw parameters := by
  have hrows : 16 ∣ Std140.size .vec4 := by decide
  have hfits := (lights max).fits_contents draw parameters
  have hvars : ((lights max).contents draw parameters).map (·.var) = (LightArray.block max).members :=
    (lights max).vars_contents draw parameters
  have hlength := length_flatMap_image hfits
  rw [hvars, sum_memberSize_lights] at hlength
  -- The number of lights begins a row of which twelve bytes are left.
  have hrest : roundUp (48 * max.toNat + 4) 16 - (48 * max.toNat + 4) = 12 := by
    unfold roundUp
    omega
  rw [blockImage_of_gapless (hvars ▸ (lights max).gapless_members) hfits, hvars,
    sum_memberSize_lights, List.rightpad, hlength, hrest]
  simp only [contents, List.flatMap_cons, List.flatMap_nil, List.append_nil]
  rw [MemberContent.image_of_rows rfl hrows fun _ => rfl,
    MemberContent.image_of_rows rfl hrows fun _ => rfl,
    MemberContent.image_of_rows rfl hrows fun _ => rfl, MemberContent.image_single rfl rfl,
    List.length_take]
  simp only [bytes, List.append_assoc]
  rfl

theorem blockImage_shadows (max : UInt32) :
    blockImage ((shadows max).contents draw parameters) = (shadows max).bytes draw parameters := by
  have hrows : 16 ∣ Std140.size .mat4 := by decide
  have hsize : memberSize (Shadow.lightMatrices max) = 64 * max.toNat :=
    memberSize_of_rows rfl hrows
  rw [blockImage_contents_of_rows]
  · simp only [contents, List.flatMap_cons, List.flatMap_nil, List.append_nil]
    rw [MemberContent.image_of_rows rfl hrows fun _ => rfl]
    rfl
  · change 16 ∣ memberSize (Shadow.lightMatrices max) + 0
    omega

theorem blockImage_occlusion (inverse : Bool) (settings : Nat) :
    blockImage ((occlusion inverse settings).contents draw parameters) =
      (occlusion inverse settings).bytes draw parameters := by
  have hrows : ∀ inverse, 16 ∣ ((OcclusionUniforms.members inverse).map memberSize).sum := by
    decide
  rw [blockImage_contents_of_rows (occlusion inverse settings) _ _ (hrows inverse)]
  cases inverse with
  | false =>
    simp only [contents, Bool.false_eq_true, ↓reduceIte, List.cons_append, List.nil_append,
      List.flatMap_cons, List.flatMap_nil, List.append_nil, image_kernel]
    repeat rw [MemberContent.image_single rfl rfl]
    simp only [bytes, Bool.false_eq_true, ↓reduceIte, List.flatMap_cons, List.flatMap_nil,
      List.append_nil, List.append_assoc]
  | true =>
    simp only [contents, ↓reduceIte, List.cons_append, List.nil_append, List.flatMap_cons,
      List.flatMap_nil, List.append_nil, image_kernel]
    repeat rw [MemberContent.image_single rfl rfl]
    simp only [bytes, ↓reduceIte, List.flatMap_cons, List.flatMap_nil, List.append_nil,
      List.append_assoc]

/-- The members of the block hold the bytes for the draw. -/
theorem blockImage_contents :
    blockImage (block.contents draw parameters) = block.bytes draw parameters := by
  cases block with
  | camera => exact blockImage_camera draw parameters
  | lights max => exact blockImage_lights draw parameters max
  | shadows max => exact blockImage_shadows draw parameters max
  | occlusion inverse settings => exact blockImage_occlusion draw parameters inverse settings

end DrawBlock

/-! ## Refreshing -/

/-- Refreshing a block of the library ends without an error and leaves the bytes for the draw. -/
theorem RegisteredBlock.IsFor.refresh_eq {registered : RegisteredBlock} {block : DrawBlock}
    {stage : Stage} (h : registered.IsFor block.request stage) (draw : DrawContext)
    (parameters : ParameterStore) :
    ∃ buffer, registered.block.shape.refresh (registered.update draw parameters) =
        some { buffer, error := none, records := [] } ∧
      buffer.bytes = block.bytes draw parameters := by
  have hlayout : BlockLayout.std140? ((block.contents draw parameters).map (·.var)) =
      some registered.block.shape.layout := by
    rw [block.vars_contents]
    exact h.layout_eq
  rw [block.update_eq_writeAll h.update_eq, ← block.blockImage_contents]
  exact BlockShape.refresh_contents hlayout (block.nodup_names_contents draw parameters)
    (block.fits_contents draw parameters)

/-- Refreshing blocks of the library for a draw fails for none of them, and leaves the bytes of each
in its buffer. -/
theorem updateBuffers_eq {blocks : List RegisteredBlock}
    (hblocks : ∀ registered ∈ blocks, ∃ (block : DrawBlock) (stage : Stage),
      registered.IsFor block.request stage)
    (draw : DrawContext) (parameters : ParameterStore) {staging : List (List UInt8)}
    (hstaging : staging.length = blocks.length) :
    ∃ refreshed, Shader.updateBuffers parameters draw blocks staging = some refreshed ∧
      refreshed.failed = 0 ∧ refreshed.staging.length = blocks.length ∧
      ∀ (index : Nat) (registered : RegisteredBlock), blocks[index]? = some registered →
        ∀ (block : DrawBlock) (stage : Stage), registered.IsFor block.request stage →
          refreshed.staging[index]? = some (block.bytes draw parameters) := by
  induction blocks generalizing staging with
  | nil =>
    obtain rfl := List.length_eq_zero_iff.1 hstaging
    exact ⟨_, rfl, rfl, rfl, fun index registered h => by cases h⟩
  | cons first rest ih =>
    cases staging with
    | nil => cases hstaging
    | cons buffer staging =>
      obtain ⟨block, stage, hfor⟩ := hblocks first List.mem_cons_self
      obtain ⟨written, hfirst, -⟩ := hfor.refresh_eq draw parameters
      -- What the buffer held does not matter: a block is refreshed from zero.
      obtain ⟨others, hothers, hfailed, hlength, hbytes⟩ :=
        ih (fun registered hmem => hblocks registered (List.mem_cons_of_mem first hmem))
          (Nat.succ.inj hstaging)
      refine ⟨{ staging := written.bytes :: others.staging, failed := 0, records := others.records },
        ?_, rfl, ?_, ?_⟩
      · simp [Shader.updateBuffers, BlockShape.refreshIn_eq, hfirst, hothers, hfailed,
          BlockShape.Refreshed.bytes]
      · simp [hlength]
      · intro index registered hregistered other otherStage hother
        cases index with
        | zero =>
          cases hregistered
          -- Whichever request the block is for, refreshing it gives one result.
          obtain ⟨buffer', hrefresh, hbuffer⟩ := hother.refresh_eq draw parameters
          rw [hfirst] at hrefresh
          cases hrefresh
          exact congrArg some hbuffer
        | succ index => exact hbytes index registered hregistered other otherStage hother

/-! ## The Blocks that Nodes Ask For -/

/-- The block that the node asks for, if it asks for one. -/
def LibraryNode.drawBlock? : LibraryNode → Option DrawBlock
  | camera => some .camera
  | light (.lights max) => some (.lights max)
  | light (.shadowVertex max ..) => some (.shadows max)
  | light (.shadowFragment max ..) => some (.lights max)
  | occlusion (.uniforms inverse settings) => some (.occlusion inverse settings)
  | _ => none

/-- The request is that of a node of the stage. -/
def DrawBlock.Asked (nodes : Stage → List LibraryNode) (stage : Stage) (request : BlockRequest) :
    Prop :=
  ∃ node ∈ nodes stage, ∃ block, node.drawBlock? = some block ∧ request = block.request

theorem LibraryNode.resource_mem_of_drawBlock? {node : LibraryNode} {block : DrawBlock}
    (h : node.drawBlock? = some block) : block.request.resource ∈ node.resources := by
  cases node with
  | endpoint | arithmetic | texture => cases h
  | camera =>
    cases h
    exact List.mem_cons_self
  | light node =>
    cases node with
    | lights | shadowFragment =>
      cases h
      exact List.mem_cons_self
    | shadowVertex =>
      cases h
      exact List.mem_cons_of_mem _ List.mem_cons_self
    | lambert => cases h
  | occlusion node =>
    cases node with
    | uniforms inverse settings =>
      cases h
      exact List.mem_cons_self
    | unproject | occlusion => cases h

/-- Whatever it is answered, a node asks for no other block. -/
theorem LibraryNode.setup_requests (node : LibraryNode) :
    Setup.Requests (fun request => ∃ block, node.drawBlock? = some block ∧ request = block.request)
      node.setup := by
  cases node with
  | endpoint node =>
    cases node with
    | positionOutput input => trivial
    | meshAttribute | pushConstant | colorOutput | producer | consumer =>
      exact ⟨fun block h => (by cases h), Setup.checked_requests⟩
  | arithmetic node =>
    cases node with
    | split channels kind input =>
      simp only [LibraryNode.setup, ArithmeticNode.setup]
      cases Swizzle.validate input.value.ty channels <;> trivial
    | screenQuad | combine | math | normalize | gamma | transform => trivial
  | camera => exact Setup.addBlock_requests ⟨.camera, rfl, rfl⟩
  | texture node =>
    cases node with
    | binding name arrayLen => exact ⟨fun block h => (by cases h), Setup.checked_requests⟩
    | sample premultiply texture texCoord => trivial
  | light node =>
    cases node with
    | lights max => exact Setup.addBlock_requests ⟨.lights max, rfl, rfl⟩
    | shadowVertex max channel position matrix =>
      cases matrix with
      | none => trivial
      | some matrix =>
        have hchannel : Setup.Requests (fun request => ∃ block,
            some (DrawBlock.shadows max) = some block ∧ request = block.request)
            (.allocateChannel channel) := ⟨fun block h => (by cases h), Setup.checked_requests⟩
        exact hchannel.bind (Setup.addBlock_requests ⟨.shadows max, rfl, rfl⟩)
    | shadowFragment max channel depthTextures =>
      exact (Setup.addBlock_requests ⟨.lights max, rfl, rfl⟩).bind
        ⟨fun block h => (by cases h), Setup.checked_requests⟩
    | lambert calls inner lightCount fragPos normal albedo => trivial
  | occlusion node =>
    cases node with
    | uniforms inverse settings =>
      exact Setup.addBlock_requests ⟨.occlusion inverse settings, rfl, rfl⟩
    | unproject u depth screenPos =>
      simp only [LibraryNode.setup, OcclusionNode.setup]
      split <;> trivial
    | occlusion u component noiseTex depthTex screenPos origin normal => trivial

/-! ## Failures of Trials -/

/-- The failure is that of the trial of an update routine. -/
def CompileFailure.OfTrial : CompileFailure → Prop
  | graph (.updateContract _ _) => True
  | overrun => True
  | _ => False

/-- A failure that leaves a node is not that of a trial. -/
theorem not_ofTrial_leaveNode (node : String) (stage : Stage) (error : GraphError) :
    ¬ (CompileFailure.graph (error.leaveNode node stage)).OfTrial := by
  cases error <;> exact id

/-- Only trials fail as trials do. -/
theorem not_ofTrial_of_perform {m : Model} {input : CompileInput} {p : Progress}
    {step : CompileStep} {failure : CompileFailure}
    (hstep : ∀ stage index, step ≠ .call (.update stage index))
    (h : step.perform m input p = .error failure) : ¬ failure.OfTrial := by
  cases step with
  | checkStages stage =>
    simp only [CompileStep.perform] at h
    split at h <;> cases h
    rename_i error hcheck
    obtain ⟨node, other, rfl⟩ := checkStages_error hcheck
    exact id
  | schedule stage =>
    simp only [CompileStep.perform] at h
    split at h <;> cases h
    rename_i failure' hschedule
    rcases schedule_error hschedule with rfl | ⟨_, _, _, rfl⟩ | ⟨_, _, _, rfl⟩ | ⟨_, _, rfl⟩ <;>
      exact id
  | link =>
    simp only [CompileStep.perform] at h
    split at h <;> cases h
    rename_i error hlink
    rcases verifyLink_error hlink with ⟨_, _, rfl⟩ | ⟨_, _, _, rfl⟩ <;> exact id
  | call made =>
    cases made with
    | setup stage index =>
      simp only [CompileStep.perform] at h
      split at h <;> cases h
      rename_i hsetup
      unfold StageGraph.setupOutcome at hsetup
      split at hsetup
      · cases hsetup
      · split at hsetup <;> cases hsetup
        · exact not_ofTrial_leaveNode _ _ _
        · exact id
    | update stage index => exact absurd rfl (hstep stage index)
    | emit stage index =>
      simp only [CompileStep.perform] at h
      split at h <;> cases h
      rename_i hemit
      unfold StageGraph.emitOutcome at hemit
      split at hemit
      · cases hemit
      · split at hemit <;> cases hemit
        rename_i failure' _ _
        cases failure' with
        | refused error => exact not_ofTrial_leaveNode _ _ error
        | unknownInput => exact id

/-! ## Models of Library Nodes -/

section Library

variable {name : String} {graph : Stage → Nat} {nodes : Stage → List LibraryNode}
  {input : CompileInput} {p : Progress} {steps : List CompileStep}

/-- Every block that has been registered is one that a node of its stage asks for. -/
theorem blocksAsked_of_performed
    (h : Performed (libraryModel name graph nodes) input (.start input) steps p) :
    BlocksAsked (DrawBlock.Asked nodes) p := by
  refine performed_blocksAsked (fun stage node hmem => ?_) h
  obtain ⟨index, hindex⟩ := List.mem_iff_getElem?.1 hmem
  rw [getElem?_libraryModel] at hindex
  obtain ⟨libraryNode, hnode, rfl⟩ := Option.map_eq_some_iff.1 hindex
  exact libraryNode.setup_requests.mono fun request ⟨block, hblock, hrequest⟩ =>
    ⟨libraryNode, List.mem_of_getElem? hnode, block, hblock, hrequest⟩

/-- No trial of an update routine of the library fails. -/
theorem updateOutcome_eq_ok {blocks : List RegisteredBlock}
    (hblocks : ∀ registered ∈ blocks, ∃ (block : DrawBlock) (stage : Stage),
      registered.IsFor block.request stage) (index : Nat) :
    updateOutcome input.parameters blocks index = .ok () := by
  unfold updateOutcome
  cases hregistered : blocks[index]? with
  | none => rfl
  | some registered =>
    obtain ⟨block, stage, hfor⟩ := hblocks registered (List.mem_of_getElem? hregistered)
    obtain ⟨buffer, hrefresh, -⟩ := hfor.refresh_eq .dryRun input.parameters
    simp only [hrefresh]

/-- An array of lights that can be laid out is counted by a signed word. -/
theorem lights_lt_of_layout {max : UInt32} {layout : BlockLayout}
    (h : BlockLayout.std140? (LightArray.block max).members = some layout) :
    max.toNat < 2 ^ 31 := by
  obtain ⟨finish, hlaid, hsize⟩ := std140?_isStd140 h
  have hsum := hlaid.add_sum_le
  rw [DrawBlock.sum_memberSize_lights] at hsum
  have hle := hsize.le
  have hlt := layout.size.toNat_lt
  omega

/-- Compiling does not fail in a trial. -/
theorem not_ofTrial_of_compile {failure : CompileFailure}
    (h : ((libraryModel name graph nodes).compile input).outcome = .error failure) :
    ¬ failure.OfTrial := by
  rcases compile_cases (libraryModel name graph nodes) input with ⟨finish, -, hok, -⟩ |
    ⟨done, step, rest, reached, stopped, -, hdone, hstep, herror, -⟩
  · rw [hok] at h
    cases h
  · rw [herror] at h
    cases h
    refine not_ofTrial_of_perform (fun stage index heq => ?_) hstep
    -- The blocks that have been registered when a trial is made are blocks of the library.
    subst heq
    have hblocks : ∀ registered ∈ (reached.registry stage).blocks,
        ∃ (block : DrawBlock) (stage : Stage), registered.IsFor block.request stage := by
      intro registered hmem
      obtain ⟨_, ⟨_, -, block, -, rfl⟩, hfor⟩ :=
        (blocksAsked_of_performed hdone stage).exists_request registered hmem
      exact ⟨block, stage, hfor⟩
    simp only [CompileStep.perform, updateOutcome_eq_ok hblocks index] at hstep
    cases hstep

/-- A block of a compiled shader is one that a node of its stage asks for. -/
theorem exists_drawBlock_of_mem_blocks {shader : Shader} {registered : RegisteredBlock}
    (h : ((libraryModel name graph nodes).compile input).outcome = .ok shader)
    (hmem : registered ∈ shader.blocks) :
    ∃ node ∈ nodes registered.block.stage, ∃ block, node.drawBlock? = some block ∧
      registered.IsFor block.request registered.block.stage := by
  obtain ⟨finish, hperformed, rfl⟩ := performed_of_compile h
  have hstage : ∃ stage, registered ∈ (finish.registry stage).blocks := by
    rcases List.mem_append.1 hmem with hvertex | hfragment
    · exact ⟨.vertex, hvertex⟩
    · exact ⟨.fragment, hfragment⟩
  obtain ⟨stage, hmem⟩ := hstage
  obtain ⟨_, ⟨node, hnode, block, hblock, rfl⟩, hfor⟩ :=
    (blocksAsked_of_performed hperformed stage).exists_request registered hmem
  rw [hfor.stage_eq]
  exact ⟨node, hnode, block, hblock, hfor⟩

/-- A node that asks for a block gets it. -/
theorem exists_mem_blocks_of_drawBlock? {shader : Shader} {stage : Stage} {node : LibraryNode}
    {block : DrawBlock}
    (h : ((libraryModel name graph nodes).compile input).outcome = .ok shader)
    (hnode : node ∈ nodes stage) (hblock : node.drawBlock? = some block) :
    ∃ registered ∈ shader.blocks, registered.block.stage = stage ∧
      registered.block.name = block.request.name ∧
      registered.block.layout.members.map (·.toVariable) = block.request.members := by
  have hholds := (resources_of_compile h stage block.request.resource).2
    ⟨node, hnode, LibraryNode.resource_mem_of_drawBlock? hblock⟩
  obtain ⟨registered, hmem, hname, hmembers⟩ := hholds
  obtain ⟨finish, hperformed, rfl⟩ := performed_of_compile h
  have hregistry : registered ∈ (finish.registry stage).blocks := by
    cases stage <;> exact hmem
  obtain ⟨_, -, hfor⟩ :=
    (blocksAsked_of_performed hperformed stage).exists_request registered hregistry
  refine ⟨registered, ?_, hfor.stage_eq, hname, hmembers⟩
  cases stage with
  | vertex => exact List.mem_append_left _ hmem
  | fragment => exact List.mem_append_right _ hmem

/-- The update routines of the library never fail, and write exactly the data of a draw. Compiling a
model of library nodes does not fail in the trial of a routine. If it compiles, then for every draw and
every state of the parameters all buffers are refreshed without an error; each is that of a block which
a node of its stage asks for, laid out by the members that the node gives, and holds the bytes of that
block for the draw. The number of lights that a block holds is stored without loss. Every node that asks
for a block gets one. -/
theorem library_updates_write_draw_data (name : String) (graph : Stage → Nat)
    (nodes : Stage → List LibraryNode) (input : CompileInput) :
    (∀ failure, ((libraryModel name graph nodes).compile input).outcome = .error failure →
      failure ≠ .overrun ∧ ∀ block error, failure ≠ .graph (.updateContract block error)) ∧
    ∀ shader, ((libraryModel name graph nodes).compile input).outcome = .ok shader →
      (∀ stage, ∀ node ∈ nodes stage, ∀ block, node.drawBlock? = some block →
        ∃ registered ∈ shader.blocks, registered.block.stage = stage ∧
          registered.block.name = block.request.name ∧
          registered.block.layout.members.map (·.toVariable) = block.request.members) ∧
      ∀ (draw : DrawContext) (current : ParameterStore),
        ∃ refreshed, shader.updateUniforms current draw shader.stagingBuffers = some refreshed ∧
          refreshed.failed = 0 ∧ refreshed.staging.length = shader.blocks.length ∧
          ∀ (index : Nat) (registered : RegisteredBlock),
            shader.blocks[index]? = some registered →
              ∃ node ∈ nodes registered.block.stage, ∃ block, node.drawBlock? = some block ∧
                registered.block.name = block.request.name ∧
                BlockLayout.std140? block.request.members = some registered.block.layout ∧
                refreshed.staging[index]? = some (block.bytes draw current) ∧
                ∀ max, block = .lights max →
                  (Int32.ofNat (min max.toNat draw.lights.length)).toInt =
                    min max.toNat draw.lights.length := by
  constructor
  · intro failure hfailure
    have htrial := not_ofTrial_of_compile hfailure
    refine ⟨?_, fun block error => ?_⟩
    · rintro rfl
      exact htrial trivial
    · rintro rfl
      exact htrial trivial
  · intro shader hshader
    refine ⟨fun stage node hnode block => exists_mem_blocks_of_drawBlock? hshader hnode,
      fun draw current => ?_⟩
    have hblocks : ∀ registered ∈ shader.blocks,
        ∃ (block : DrawBlock) (stage : Stage), registered.IsFor block.request stage := by
      intro registered hmem
      obtain ⟨_, -, block, -, hfor⟩ := exists_drawBlock_of_mem_blocks hshader hmem
      exact ⟨block, registered.block.stage, hfor⟩
    rw [Shader.updateUniforms_eq]
    obtain ⟨refreshed, hupdate, hfailed, hlength, hbytes⟩ :=
      updateBuffers_eq hblocks draw current
        (show shader.stagingBuffers.length = _ by simp [Shader.stagingBuffers, Shader.uniformBlocks])
    refine ⟨refreshed, hupdate, hfailed, hlength, fun index registered hregistered => ?_⟩
    obtain ⟨node, hnode, block, hblock, hfor⟩ :=
      exists_drawBlock_of_mem_blocks hshader (List.mem_of_getElem? hregistered)
    refine ⟨node, hnode, block, hblock, hfor.name_eq, hfor.layout_eq,
      hbytes index registered hregistered block _ hfor, ?_⟩
    rintro max rfl
    have hmax := lights_lt_of_layout hfor.layout_eq
    exact Int32.toInt_ofNat_of_lt (Nat.lt_of_le_of_lt (Nat.min_le_left _ _) hmax)

end Library

/-- Every block of the library: the matrices of the camera and of two lights with shadows, those lights,
and the uniforms of ambient occlusion. -/
def everyBlock : Stage → List LibraryNode
  | .vertex =>
    [.camera, .light (.shadowVertex 2 { id := 0, var := Shadow.interfaceVar 2 }
      { value := .ofVec3 .zero .zero .zero }
      (some (.uniform { stage := .vertex, graph := 0, index := 0 } CameraNode.modelMatrix)))]
  | .fragment =>
    [.texture (.binding "tDepth" (some 2)),
      .light (.shadowFragment 2 { id := 0, var := Shadow.interfaceVar 2 }
        (.uniform { stage := .fragment, graph := 1, index := 0 }
          { name := "tDepth", ty := .sampler .tex2d, arrayLen := some 2 })),
      .occlusion (.uniforms true 0)]

/-- A block of a shader, by its stage and name. -/
theorem exists_block_of_places {shader : Shader} {places : List (Stage × String)}
    (h : shader.blocks.map (fun registered => (registered.block.stage, registered.block.name)) =
      places) (index : Nat) {stage : Stage} {name : String}
    (hplace : places[index]? = some (stage, name)) :
    ∃ registered, shader.blocks[index]? = some registered ∧
      registered.block.stage = stage ∧ registered.block.name = name := by
  rw [← h, List.getElem?_map] at hplace
  obtain ⟨registered, hregistered, heq⟩ := Option.map_eq_some_iff.1 hplace
  obtain ⟨hstage, hname⟩ := Prod.mk.inj heq
  exact ⟨registered, hregistered, hstage, hname⟩

/-- For three lights, the blocks of two hold the first two of them. -/
theorem everyBlock_written :
    ∃ shader, ((libraryModel "blocks" (graphsFrom 0) everyBlock).compile
        { target := .vulkan }).outcome = .ok shader ∧
      DrawContext.dryRun.lights.length = 3 ∧
      ∃ refreshed, shader.updateUniforms {} .dryRun shader.stagingBuffers = some refreshed ∧
        refreshed.failed = 0 ∧ refreshed.staging.length = 4 ∧
        refreshed.staging[1]? = some ((DrawBlock.shadows 2).bytes .dryRun {}) ∧
        refreshed.staging[2]? = some ((DrawBlock.lights 2).bytes .dryRun {}) := by
  have hcompiles : ((libraryModel "blocks" (graphsFrom 0) everyBlock).compile
      { target := .vulkan }).outcome.toOption.map
      (fun shader => shader.blocks.map fun registered =>
        (registered.block.stage, registered.block.name)) =
      some [(.vertex, "CameraUniforms"), (.vertex, "ShadowLightSpace"), (.fragment, "Lights"),
        (.fragment, "AoUniforms")] := by
    decide +kernel
  obtain ⟨shader, hshader, hblocks⟩ := exists_ok_of_map_eq hcompiles
  obtain ⟨refreshed, hupdate, hfailed, hlength, hbytes⟩ :=
    ((library_updates_write_draw_data "blocks" (graphsFrom 0) everyBlock { target := .vulkan }).2
      shader hshader).2 .dryRun {}
  have hcount : shader.blocks.length = 4 := by
    rw [← List.length_map, hblocks]
    rfl
  refine ⟨shader, hshader, rfl, refreshed, hupdate, hfailed, hlength.trans hcount, ?_, ?_⟩
  · -- Of the nodes of the vertex stage, only the one with shadows asks for a block of this name.
    obtain ⟨shadows, hshadows, hstage, hname⟩ := exists_block_of_places hblocks 1 rfl
    obtain ⟨node, hnode, block, hblock, hrequest, -, hwritten, -⟩ := hbytes 1 shadows hshadows
    rw [hstage] at hnode
    rw [hname] at hrequest
    simp only [everyBlock, List.mem_cons, List.not_mem_nil, or_false] at hnode
    rcases hnode with rfl | rfl
    · cases hblock
      exact absurd hrequest (by decide)
    · cases hblock
      exact hwritten
  · obtain ⟨lights, hlights, hstage, hname⟩ := exists_block_of_places hblocks 2 rfl
    obtain ⟨node, hnode, block, hblock, hrequest, -, hwritten, -⟩ := hbytes 2 lights hlights
    rw [hstage] at hnode
    rw [hname] at hrequest
    simp only [everyBlock, List.mem_cons, List.not_mem_nil, or_false] at hnode
    rcases hnode with rfl | rfl | rfl
    · cases hblock
    · cases hblock
      exact hwritten
    · cases hblock
      exact absurd hrequest (by decide)

end ShaderWeave
