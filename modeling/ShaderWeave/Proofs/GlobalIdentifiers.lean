import Mathlib.Data.List.Nodup
import Mathlib.Data.List.Pairwise
import ShaderWeave.Proofs.PipelineLayout
import ShaderWeave.Proofs.Resources
import ShaderWeave.Proofs.StageInterface

/-!
# Global Identifiers

A source declares its resources at global scope, the members of uniform blocks included, since blocks
have no instance name. Registering compares a name only with names of its own kind: attributes with
attributes, interface variables with interface variables, color outputs with color outputs, and the
names of blocks, push constants and textures with each other. Members are compared within their block,
and the names that are derived from a texture are compared with nothing.

So identifiers are unique within each kind except where a camera and the uniforms of ambient occlusion
share a stage, which both have a member `uProj`, and except for derived names of different textures.
Across kinds nothing is promised.

The identifiers are listed here by what a stage has registered; `DeclaredIdentifiers` reads the same ones
off the text of its source.

## Main definitions

* `Target.globalKinds`: the identifiers that a stage declares at global scope, kind by kind.
* `DistinctNames`: what registrations keep of the names of attributes and color outputs.

## Main results

* `nodup_members_iff`: the members of all blocks are different unless both of the blocks above are
  there.
* `nodup_samplerIdentifiers`: the identifiers of one texture are different.
* `global_identifiers_nodup_iff`: when all identifiers of a compiled stage are different.
-/

namespace ShaderWeave

namespace Target

/-- The identifiers by which a target declares a sampled texture. -/
def samplerIdentifiers (target : Target) (s : SamplerBinding) : List String :=
  match target with
  | vulkan => (separateTextures s).map (·.1) ++ [samplerObjectName s.name]
  | _ => [s.name]

/-- The name of the block that holds the push constants of a stage, where they are in one. -/
def pushConstantBlock? (target : Target) (r : Registry) : Option String :=
  match target with
  | vulkan => if r.pushConstants.isEmpty then none else some (pushConstantBlock r.stage.mask)
  | _ => none

/-- The identifiers that a stage declares at global scope, kind by kind: attributes, interface variables,
color outputs, blocks, members of blocks, push constants, and textures with what is derived from their
names. -/
def globalKinds (target : Target) (r : Registry) : List (List String) :=
  [r.attributes.map (·.name),
    (r.outputs ++ r.inputs).map (·.var.name),
    r.colorOutputs.map (·.name),
    r.blocks.map (·.block.name) ++ (target.pushConstantBlock? r).toList,
    r.blocks.flatMap (·.block.layout.members.map (·.name)),
    r.pushConstants.map (·.slot.name),
    r.samplers.flatMap target.samplerIdentifiers]

/-- All identifiers that a stage declares at global scope. -/
def globalIdentifiers (target : Target) (r : Registry) : List String :=
  (target.globalKinds r).flatten

end Target

/-! ## What Registrations Keep -/

/-- Attributes have different names, and so have color outputs. -/
structure DistinctNames (r : Registry) : Prop where
  /-- Attributes have different names. -/
  attributes : (r.attributes.map (·.name)).Nodup
  /-- Color outputs have different names. -/
  colorOutputs : (r.colorOutputs.map (·.name)).Nodup

theorem Registration.distinctNames {r r' : Registry} (h : Registration r r')
    (hr : DistinctNames r) : DistinctNames r' := by
  cases h with
  | vertexAttribute a nextLocation hname hnext =>
    refine ⟨?_, hr.colorOutputs⟩
    have hfresh : a.name ∉ r.attributes.map (·.name) := by
      intro hmem
      obtain ⟨bound, hbound, heq⟩ := List.mem_map.1 hmem
      exact absurd (List.find?_eq_none.1 hname bound hbound) (by simp [heq])
    rw [List.map_append]
    exact List.nodup_append_comm.1 (List.nodup_cons.2 ⟨hfresh, hr.attributes⟩)
  | colorOutput name hname =>
    refine ⟨hr.attributes, ?_⟩
    have hfresh : name ∉ r.colorOutputs.map (·.name) := by
      simpa using hname
    rw [List.map_append]
    exact List.nodup_append_comm.1 (List.nodup_cons.2 ⟨hfresh, hr.colorOutputs⟩)
  | output | channel | input | block | pushConstant | sampler =>
    exact ⟨hr.attributes, hr.colorOutputs⟩

/-- A compiled stage came about by registrations, from nothing but counters and channels. -/
theorem registrations_of_compile {m : Model} {input : CompileInput} {shader : Shader}
    (h : (m.compile input).outcome = .ok shader) (stage : Stage) :
    ∃ nextBinding pushConstantSize channelSlots,
      Registrations { stage, nextBinding, pushConstantSize, channelSlots }
        (shader.program stage).registry := by
  obtain ⟨hvertex, hfragment, -⟩ := compile_registrations h
  cases stage with
  | vertex => exact ⟨_, _, _, hvertex⟩
  | fragment => exact ⟨_, _, _, hfragment⟩

/-! ## Textures -/

theorem toString_word_injective {i j : UInt32} (h : toString i = toString j) : i = j := by
  have hdigits : Nat.toDigits 10 i.toNat = Nat.toDigits 10 j.toNat := by
    have hnumbers : toString i.toNat = toString j.toNat := h
    simpa using congrArg String.toList hnumbers
  have hnat : i.toNat = j.toNat :=
    calc i.toNat = Nat.ofDigitChars 10 (Nat.toDigits 10 i.toNat) 0 :=
          Nat.ofDigitChars_ten_toDigits.symm
      _ = Nat.ofDigitChars 10 (Nat.toDigits 10 j.toNat) 0 := by rw [hdigits]
      _ = j.toNat := Nat.ofDigitChars_ten_toDigits
  exact UInt32.toNat_inj.1 hnat

/-- The identifiers by which a target declares one texture are different. -/
theorem nodup_samplerIdentifiers (target : Target) (s : SamplerBinding) :
    (target.samplerIdentifiers s).Nodup := by
  cases target with
  | opengl | webgl2 => exact List.nodup_singleton _
  | vulkan =>
    unfold Target.samplerIdentifiers Target.separateTextures
    cases s.arrayLen with
    | none =>
      -- The sampler has a longer name than its texture.
      have hne : s.name ≠ Target.samplerObjectName s.name := by
        intro heq
        have hlength := congrArg (fun name => name.toList.length) heq
        simp [Target.samplerObjectName] at hlength
      simpa using hne
    | some len =>
      rw [List.map_map]
      refine List.nodup_append_comm.1 (List.nodup_cons.2 ⟨fun hmem => ?_, ?_⟩)
      · -- After the name of the array, an element goes on with another character than the sampler.
        obtain ⟨i, -, heq⟩ := List.mem_map.1 hmem
        have hlist := congrArg String.toList heq
        simp [Target.samplerObjectName, Target.textureElementName] at hlist
      · refine List.Nodup.map_on ?_ List.nodup_range
        intro i hi j hj heq
        have hword : i.toUInt32 = j.toUInt32 := by
          simp only [Function.comp_apply, Target.textureElementName, String.append_right_inj] at heq
          exact toString_word_injective heq
        rw [List.mem_range] at hi hj
        have hi' : i < UInt32.size := Nat.lt_trans hi len.toNat_lt
        have hj' : j < UInt32.size := Nat.lt_trans hj len.toNat_lt
        have hnat := congrArg UInt32.toNat hword
        rwa [Nat.toUInt32_eq, Nat.toUInt32_eq, UInt32.toNat_ofNat_of_lt' hi',
          UInt32.toNat_ofNat_of_lt' hj'] at hnat

/-! ## Members of Blocks -/

/-- Different blocks of the library have different members, apart from the projection matrix that the
camera and ambient occlusion share. -/
theorem LibraryBlock.disjoint_memberNames {a b : LibraryBlock} (hname : a.name ≠ b.name) :
    a.memberNames.Disjoint b.memberNames ∨
      (a = .camera ∧ ∃ inverse, b = .occlusion inverse) ∨
      (b = .camera ∧ ∃ inverse, a = .occlusion inverse) := by
  have hall : ∀ a ∈ all, ∀ b ∈ all, a.name ≠ b.name →
      (∀ name ∈ a.memberNames, name ∉ b.memberNames) ∨
        (a = .camera ∧ ∃ inverse, b = .occlusion inverse) ∨
        (b = .camera ∧ ∃ inverse, a = .occlusion inverse) := by
    decide +kernel
  exact (hall a (mem_all a) b (mem_all b) hname).imp_left fun h => List.disjoint_left.2 h

theorem LibraryBlock.nodup_memberNames (block : LibraryBlock) : block.memberNames.Nodup := by
  have hall : ∀ block ∈ all, block.memberNames.Nodup := by
    decide +kernel
  exact hall block (mem_all block)

section Compile

variable {name : String} {graph : Stage → Nat} {nodes : Stage → List LibraryNode}
  {input : CompileInput} {shader : Shader} {stage : Stage}

/-- A block of a compiled stage is a block of the library that one of the nodes asks for. -/
theorem exists_libraryBlock
    (h : ((libraryModel name graph nodes).compile input).outcome = .ok shader)
    {registered : RegisteredBlock} (hmem : registered ∈ (shader.program stage).registry.blocks) :
    ∃ node ∈ nodes stage, ∃ block : LibraryBlock, node.block? = some block ∧
      registered.block.name = block.name ∧
      registered.block.layout.members.map (·.name) = block.memberNames := by
  have hholds : (shader.program stage).registry.Holds
      (.block registered.block.name (registered.block.layout.members.map (·.toVariable))) :=
    ⟨registered, hmem, rfl, rfl⟩
  obtain ⟨node, hnode, hresource⟩ := (resources_of_compile h stage _).1 hholds
  obtain ⟨block, hblock, hname, hmembers⟩ := LibraryNode.block?_of_mem hresource
  rw [List.map_map] at hmembers
  exact ⟨node, hnode, block, hblock, hname, hmembers⟩

/-- A block that a node asks for is one of the compiled stage. -/
theorem exists_registered_of_mem
    (h : ((libraryModel name graph nodes).compile input).outcome = .ok shader)
    {node : LibraryNode} (hnode : node ∈ nodes stage) {request : BlockRequest}
    (hrequest : request.resource ∈ node.resources) :
    ∃ registered ∈ (shader.program stage).registry.blocks, registered.block.name = request.name ∧
      registered.block.layout.members.map (·.name) = request.members.map (·.name) := by
  obtain ⟨registered, hmem, hname, hmembers⟩ :=
    (resources_of_compile h stage request.resource).2 ⟨node, hnode, hrequest⟩
  refine ⟨registered, hmem, hname, ?_⟩
  rw [← hmembers, List.map_map]
  rfl

/-- The blocks of a camera and of ambient occlusion both have the projection matrix as a member. -/
theorem exists_shared_member
    (h : ((libraryModel name graph nodes).compile input).outcome = .ok shader)
    (hcamera : .camera ∈ nodes stage) {inverse : Bool} {settings : Nat}
    (hocclusion : .occlusion (.uniforms inverse settings) ∈ nodes stage) :
    ∃ first ∈ (shader.program stage).registry.blocks,
      ∃ second ∈ (shader.program stage).registry.blocks, first ≠ second ∧
        "uProj" ∈ first.block.layout.members.map (·.name) ∧
        "uProj" ∈ second.block.layout.members.map (·.name) := by
  obtain ⟨first, hfirst, hfirstName, hfirstMembers⟩ :=
    exists_registered_of_mem h hcamera (List.mem_singleton_self CameraNode.block.resource)
  obtain ⟨second, hsecond, hsecondName, hsecondMembers⟩ :=
    exists_registered_of_mem h hocclusion
      (List.mem_singleton_self (OcclusionUniforms.block inverse settings).resource)
  refine ⟨first, hfirst, second, hsecond, ?_, ?_, ?_⟩
  · rintro rfl
    have hsame : "CameraUniforms" = "AoUniforms" := hfirstName.symm.trans hsecondName
    exact absurd hsame (by decide)
  · rw [hfirstMembers]
    decide
  · rw [hsecondMembers]
    simp [OcclusionUniforms.block, OcclusionUniforms.members, OcclusionUniforms.projVar]

/-- Two blocks of a compiled stage have no member in common, unless both a camera and the uniforms of
ambient occlusion are in the stage. -/
theorem disjoint_members
    (h : ((libraryModel name graph nodes).compile input).outcome = .ok shader)
    (hboth : ¬ (.camera ∈ nodes stage ∧
      ∃ inverse settings, .occlusion (.uniforms inverse settings) ∈ nodes stage))
    {a b : RegisteredBlock} (ha : a ∈ (shader.program stage).registry.blocks)
    (hb : b ∈ (shader.program stage).registry.blocks) (hne : a.block.name ≠ b.block.name) :
    (a.block.layout.members.map (·.name)).Disjoint (b.block.layout.members.map (·.name)) := by
  obtain ⟨first, hfirst, firstBlock, hfirstBlock, hfirstName, hfirstMembers⟩ :=
    exists_libraryBlock h ha
  obtain ⟨second, hsecond, secondBlock, hsecondBlock, hsecondName, hsecondMembers⟩ :=
    exists_libraryBlock h hb
  rw [hfirstName, hsecondName] at hne
  rw [hfirstMembers, hsecondMembers]
  rcases LibraryBlock.disjoint_memberNames hne with hdisjoint | ⟨rfl, inverse, rfl⟩ |
    ⟨rfl, inverse, rfl⟩
  · exact hdisjoint
  · obtain rfl := LibraryNode.eq_camera hfirstBlock
    obtain ⟨settings, rfl⟩ := LibraryNode.eq_uniforms hsecondBlock
    exact absurd ⟨hfirst, inverse, settings, hsecond⟩ hboth
  · obtain rfl := LibraryNode.eq_camera hsecondBlock
    obtain ⟨settings, rfl⟩ := LibraryNode.eq_uniforms hfirstBlock
    exact absurd ⟨hsecond, inverse, settings, hfirst⟩ hboth

/-- The members of all blocks of a compiled stage are different, unless both a camera and the uniforms
of ambient occlusion are in the stage. -/
theorem nodup_members_iff
    (h : ((libraryModel name graph nodes).compile input).outcome = .ok shader)
    (hnames : ((shader.program stage).registry.blocks.map (·.block.name)).Nodup) :
    ((shader.program stage).registry.blocks.flatMap
        (·.block.layout.members.map (·.name))).Nodup ↔
      ¬ (.camera ∈ nodes stage ∧
        ∃ inverse settings, .occlusion (.uniforms inverse settings) ∈ nodes stage) := by
  rw [List.nodup_flatMap]
  constructor
  · rintro ⟨-, hdisjoint⟩ ⟨hcamera, inverse, settings, hocclusion⟩
    obtain ⟨first, hfirst, second, hsecond, hne, hmember, hmember'⟩ :=
      exists_shared_member h hcamera hocclusion
    have hsymm : Std.Symm (Function.onFun List.Disjoint
        fun registered : RegisteredBlock => registered.block.layout.members.map (·.name)) :=
      ⟨fun _ _ hab _ hb ha => hab ha hb⟩
    exact hdisjoint.forall hfirst hsecond hne hmember hmember'
  · intro hboth
    refine ⟨fun registered hmem => ?_, ?_⟩
    · obtain ⟨node, -, block, -, -, hmembers⟩ := exists_libraryBlock h hmem
      rw [hmembers]
      exact block.nodup_memberNames
    · exact (List.pairwise_map.1 hnames).imp_of_mem fun ha hb hne =>
        disjoint_members h hboth ha hb hne

/-! ## Identifiers of a Compiled Stage -/

theorem mem_of_pushConstantBlock? {target : Target} {r : Registry} {block : String}
    (h : target.pushConstantBlock? r = some block) :
    block ∈ ["VertexPushConstants", "FragmentPushConstants"] := by
  unfold Target.pushConstantBlock? Target.pushConstantBlock at h
  split at h
  · split at h
    · cases h
    · split at h <;> cases h <;> decide
  · cases h

/-- The block of push constants has another name than the blocks of the library. -/
theorem nodup_blockNames (target : Target)
    (h : ((libraryModel name graph nodes).compile input).outcome = .ok shader)
    (hnames : ((shader.program stage).registry.blocks.map (·.block.name)).Nodup) :
    ((shader.program stage).registry.blocks.map (·.block.name)
      ++ (target.pushConstantBlock? (shader.program stage).registry).toList).Nodup := by
  have hlibrary : ∀ block ∈ LibraryBlock.all,
      block.name ∉ ["VertexPushConstants", "FragmentPushConstants"] := by
    decide +kernel
  refine List.nodup_append.2 ⟨hnames, ?_, ?_⟩
  · cases target.pushConstantBlock? (shader.program stage).registry <;> simp
  · rintro _ hblock constants hconstants rfl
    obtain ⟨registered, hmem, rfl⟩ := List.mem_map.1 hblock
    obtain ⟨-, -, block, -, hname, -⟩ := exists_libraryBlock h hmem
    have hmem := mem_of_pushConstantBlock? (Option.mem_toList.1 hconstants)
    rw [hname] at hmem
    exact hlibrary block block.mem_all hmem

/-- The identifiers of all textures are different if those of different textures are, which needs no
more than different names where a texture is one object. -/
theorem nodup_flatMap_samplerIdentifiers_iff (target : Target) {samplers : List SamplerBinding}
    (hnames : (samplers.map (·.name)).Nodup) :
    (samplers.flatMap target.samplerIdentifiers).Nodup ↔
      (target = .vulkan → samplers.Pairwise fun a b =>
        (target.samplerIdentifiers a).Disjoint (target.samplerIdentifiers b)) := by
  rw [List.nodup_flatMap]
  constructor
  · rintro ⟨-, hdisjoint⟩ -
    exact hdisjoint
  · intro hdisjoint
    refine ⟨fun s _ => nodup_samplerIdentifiers target s, ?_⟩
    by_cases htarget : target = .vulkan
    · exact hdisjoint htarget
    · refine (List.pairwise_map.1 hnames).imp fun {a b} hne => ?_
      have hsingle : ∀ s, target.samplerIdentifiers s = [s.name] := by
        intro s
        cases target with
        | vulkan => exact absurd rfl htarget
        | opengl | webgl2 => rfl
      change (target.samplerIdentifiers a).Disjoint (target.samplerIdentifiers b)
      rw [hsingle, hsingle]
      intro name ha hb
      rw [List.mem_singleton] at ha hb
      exact hne (ha.symm.trans hb)

/-- Global identifiers. In every model of library nodes that compiles, the identifiers that a stage
declares at global scope on a target are all different if and only if no identifier is of two kinds, no
identifier that is derived from a texture is one of another texture, and the stage does not have both a
camera and the uniforms of ambient occlusion. -/
theorem global_identifiers_nodup_iff
    (h : ((libraryModel name graph nodes).compile input).outcome = .ok shader)
    (target : Target) (stage : Stage) :
    (target.globalIdentifiers (shader.program stage).registry).Nodup ↔
      (target.globalKinds (shader.program stage).registry).Pairwise List.Disjoint ∧
      (target = .vulkan → (shader.program stage).registry.samplers.Pairwise fun a b =>
        (target.samplerIdentifiers a).Disjoint (target.samplerIdentifiers b)) ∧
      ¬ (.camera ∈ nodes stage ∧
        ∃ inverse settings, .occlusion (.uniforms inverse settings) ∈ nodes stage) := by
  obtain ⟨nextBinding, size, channels, hregistrations⟩ := registrations_of_compile h stage
  have hnames : DistinctNames (shader.program stage).registry :=
    hregistrations.keep (fun _ _ hstep => hstep.distinctNames) ⟨List.nodup_nil, List.nodup_nil⟩
  have hinterface : WellFormedInterface (shader.program stage).registry :=
    hregistrations.wellFormedInterface (wellFormedInterface_of_empty rfl rfl rfl)
  have hbindings : WellFormedBindings nextBinding.toNat (shader.program stage).registry :=
    hregistrations.keep (fun _ _ hstep => hstep.wellFormedBindings)
      (wellFormedBindings_of_empty rfl rfl rfl rfl)
  -- Blocks, push constants and textures are compared with each other, so also among themselves.
  obtain ⟨hblocks, hrest, -⟩ := List.nodup_append.1 hbindings.names
  obtain ⟨hconstants, hsamplers, -⟩ := List.nodup_append.1 hrest
  rw [Target.globalIdentifiers, List.nodup_flatten, and_comm]
  refine and_congr_right fun _ => ?_
  rw [← nodup_members_iff h hblocks, ← nodup_flatMap_samplerIdentifiers_iff target hsamplers]
  constructor
  · intro hkinds
    exact ⟨hkinds _ (by simp [Target.globalKinds]), hkinds _ (by simp [Target.globalKinds])⟩
  · rintro ⟨hidentifiers, hmembers⟩ kind hkind
    simp only [Target.globalKinds, List.mem_cons, List.not_mem_nil, or_false] at hkind
    rcases hkind with rfl | rfl | rfl | rfl | rfl | rfl | rfl
    · exact hnames.attributes
    · exact hinterface.names
    · exact hnames.colorOutputs
    · exact nodup_blockNames target h hblocks
    · exact hmembers
    · exact hconstants
    · exact hidentifiers

end Compile

/-- A channel of texture coordinates. -/
def coordinateChannel : Channel := { id := 0, var := { name := "ifCoord", ty := .vec2 } }

/-- Resources of every kind that the fragment stage can have. -/
def everyKind : Stage → List LibraryNode
  | .vertex => [.endpoint (.producer coordinateChannel { value := .ofVec2 .zero .zero })]
  | .fragment =>
    [.endpoint (.consumer coordinateChannel coordinateChannel.var), .camera,
      .endpoint (.pushConstant { var := { name := "uTint", ty := .vec4 }, cell := 0 }),
      .texture (.binding "tLayers" (some 2)), .texture (.binding "tBase" none),
      .endpoint (.newColorOutput "outColor")]

/-- Its identifiers are all different: the input, the color output, the block with its four members, the
block of push constants with its member, three for the array of textures and two for the texture. -/
theorem everyKind_identifiers_nodup :
    ∃ shader, ((libraryModel "everyKind" (graphsFrom 0) everyKind).compile
        { target := .vulkan }).outcome = .ok shader ∧
      (Target.vulkan.globalIdentifiers shader.fragment.registry).length = 14 ∧
      (Target.vulkan.globalKinds shader.fragment.registry).Pairwise List.Disjoint := by
  have hcompiles : ((libraryModel "everyKind" (graphsFrom 0) everyKind).compile
      { target := .vulkan }).outcome.toOption.map
      (fun shader => ((Target.vulkan.globalIdentifiers shader.fragment.registry).length,
        decide (Target.vulkan.globalIdentifiers shader.fragment.registry).Nodup)) =
          some (14, true) := by
    decide +kernel
  obtain ⟨shader, hshader, hidentifiers⟩ := exists_ok_of_map_eq hcompiles
  obtain ⟨hlength, hnodup⟩ := Prod.mk.inj hidentifiers
  exact ⟨shader, hshader, hlength,
    ((global_identifiers_nodup_iff hshader .vulkan .fragment).1 (of_decide_eq_true hnodup)).1⟩

/-- A camera and the uniforms of ambient occlusion in one stage. -/
def sharedProjection : Stage → List LibraryNode
  | .vertex => []
  | .fragment => [.camera, .occlusion (.uniforms false 0)]

/-- An attribute, an interface output and a push constant of one name. -/
def sharedColor : Stage → List LibraryNode
  | .vertex =>
    [.endpoint (.meshAttribute { name := "color", ty := .vec4 }),
      .endpoint (.producer { id := 0, var := { name := "color", ty := .vec4 } }
        { value := .ofVec4 .zero .zero .zero .zero }),
      .endpoint (.pushConstant { var := { name := "color", ty := .vec4 }, cell := 0 })]
  | .fragment => []

/-- An array of textures, and a texture that has the name of one of its elements. -/
def sharedElement : Stage → List LibraryNode
  | .vertex => []
  | .fragment => [.texture (.binding "tLayers" (some 2)), .texture (.binding "tLayers_1" none)]

/-- Models compile although a stage declares an identifier more than once: a member of two blocks, a
name of three kinds, and on one target a texture that is also an element of an array. -/
theorem repeated_global_identifiers :
    (∀ target : Target, ∃ shader, ((libraryModel "repeated" (graphsFrom 0) sharedProjection).compile
        { target }).outcome = .ok shader ∧
      (target.globalIdentifiers shader.fragment.registry).count "uProj" = 2) ∧
    (∀ target : Target, ∃ shader, ((libraryModel "repeated" (graphsFrom 0) sharedColor).compile
        { target }).outcome = .ok shader ∧
      (target.globalIdentifiers shader.vertex.registry).count "color" = 3) ∧
    ∃ shader, ((libraryModel "repeated" (graphsFrom 0) sharedElement).compile
        { target := .vulkan }).outcome = .ok shader ∧
      (Target.vulkan.globalIdentifiers shader.fragment.registry).count "tLayers_1" = 2 := by
  have hprojection (target : Target) :
      ((libraryModel "repeated" (graphsFrom 0) sharedProjection).compile
        { target }).outcome.toOption.map (fun shader =>
          (target.globalIdentifiers shader.fragment.registry).count "uProj") = some 2 := by
    cases target <;> decide +kernel
  have hcolor (target : Target) :
      ((libraryModel "repeated" (graphsFrom 0) sharedColor).compile
        { target }).outcome.toOption.map (fun shader =>
          (target.globalIdentifiers shader.vertex.registry).count "color") = some 3 := by
    cases target <;> decide +kernel
  have helement : ((libraryModel "repeated" (graphsFrom 0) sharedElement).compile
      { target := .vulkan }).outcome.toOption.map (fun shader =>
        (Target.vulkan.globalIdentifiers shader.fragment.registry).count "tLayers_1") = some 2 := by
    decide +kernel
  exact ⟨fun target => exists_ok_of_map_eq (hprojection target),
    fun target => exists_ok_of_map_eq (hcolor target), exists_ok_of_map_eq helement⟩

end ShaderWeave
