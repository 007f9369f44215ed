import Mathlib.Tactic.FinCases
import Mathlib.Tactic.IntervalCases
import ShaderWeave.Proofs.ExactLayout
import ShaderWeave.Proofs.GraphAcceptance
import ShaderWeave.Proofs.LibraryCompilation
import ShaderWeave.Proofs.UnrolledShadows

/-!
# Meshes with Any Number of Shadowed Lights

In a mesh with shadowed lights, the number of lights is the length of the array that is handed over
between the stages, of the array of depth textures and of two blocks, and the number of times that two
loops are unrolled. Everything else is the same for any number, and is computed here once and for all. So
where a number of lights has room in memory, the model compiles, all slots and bindings are known, and so
is every line that writes what is computed for each light.

## Main definitions

* `ShadowedMesh.nodes`: the nodes, of which three depend on the number of lights.
* `ShadowedMesh.vertexRegistry`, `ShadowedMesh.fragmentRegistry`: what both stages register.

## Main results

* `ShadowedMesh.performed_vertex`, `ShadowedMesh.performed_fragment`: the stages can be set up.
* `ShadowedMesh.filter_vertexLines`, `ShadowedMesh.filter_fragmentLines`: what is written for lights.
* `ShadowedMesh.compiles_for_any_lights`: the model compiles, with these slots, bindings and lines.
-/

namespace ShaderWeave

/-! ## Registrations that Succeed -/

namespace Registry

variable {r : Registry}

theorem addBlock_eq_ok {request : BlockRequest} {update : UpdateRoutine} {layout : BlockLayout}
    {nextBinding : UInt32} (hname : r.bindingNameTaken request.name = false)
    (hmembers : firstRepeated [] request.members = none) (hupdate : request.update = some update)
    (hlayout : BlockLayout.std140? request.members = some layout)
    (hnext : Word.add? r.nextBinding 1 = some nextBinding) :
    addBlock request r = .ok r.nextBinding
      { r with
        blocks := r.blocks ++ [{
          block := { name := request.name, stage := r.stage, binding := r.nextBinding, layout }
          update }]
        nextBinding } := by
  simp only [addBlock, hname, hmembers, hupdate, hlayout, hnext, Bool.false_eq_true, if_false]

theorem addSampler_eq_ok {name : String} {dim : TextureDim} {arrayLen : Option UInt32}
    {samplerBinding nextBinding : UInt32} (hname : r.bindingNameTaken name = false)
    (hnext : r.samplerBindings? (arrayLen.getD 1) = some (samplerBinding, nextBinding)) :
    addSampler name dim arrayLen r = .ok r.nextBinding
      { r with
        samplers := r.samplers ++
          [{ name, stage := r.stage, dim, arrayLen, binding := r.nextBinding, samplerBinding }]
        nextBinding } := by
  simp only [addSampler, hname, hnext, Bool.false_eq_true, if_false]

theorem registerChannelInput_eq_ok {channel : Channel} {expected : Variable} {slot : UInt32}
    (hslot : r.channelSlot? channel = some slot) (hfree : r.inputs.find? (·.slot == slot) = none)
    (hname : r.interfaceNameTaken expected.name = false) :
    registerChannelInput channel expected r =
      .ok slot { r with inputs := r.inputs ++ [{ slot, var := expected }] } := by
  simp only [registerChannelInput, channelSlot, hslot, registerInput, hfree, hname,
    Bool.false_eq_true, if_false]

end Registry

/-- A registration that succeeds, and what follows it. -/
theorem Setup.run_register {operation : Registering UInt32} {setup : Setup Unit} (next : Setup Unit)
    {r r' : Registry} {notes : List Note} {number : UInt32}
    (hsetup : setup.run = (SetupState.register operation).bind fun answer =>
      Setup.run ((checked answer).bind fun _ => next))
    (h : operation r = .ok number r') :
    setup.run { registry := r, notes } = next.run { registry := r', notes } := by
  rw [hsetup]
  simp only [EStateM.bind, SetupState.register, h]
  rfl

/-- A last registration that succeeds. -/
theorem Setup.run_register_last {operation : Registering UInt32} {setup : Setup Unit}
    {r r' : Registry} {notes : List Note} {number : UInt32}
    (hsetup : setup.run = (SetupState.register operation).bind fun answer => (checked answer).run)
    (h : operation r = .ok number r') :
    setup.run { registry := r, notes } = .ok () { registry := r', notes } := by
  rw [hsetup]
  simp only [EStateM.bind, SetupState.register, h]
  rfl

theorem setupOutcome_of_run {g : StageGraph} {index : Nat} {node : Node} {r r' : Registry}
    (hnode : g.nodes[index]? = some node)
    (hrun : node.setup.run { registry := r, notes := [] } = .ok () { registry := r', notes := [] }) :
    g.setupOutcome r index = .ok r' := by
  rw [StageGraph.setupOutcome, hnode]
  simp only [EStateM.run, hrun]

/-! ## The Nodes -/

namespace ShadowedMesh

/-- A node of the vertex stage. -/
abbrev vertexId (index : Nat) : NodeId := { stage := .vertex, graph := 0, index }

/-- A node of the fragment stage. -/
abbrev fragmentId (index : Nat) : NodeId := { stage := .fragment, graph := 1, index }

/-- The first output of a node. -/
def outputOf (node : LibraryNode) (id : NodeId) : Handle :=
  ((node.outputs id).head?.map (·.2)).getD default

/-- The channel of positions. -/
def positionChannel : Channel := { id := 0, var := { name := "ifFragPos", ty := .vec3 } }

/-- The channel of normals. -/
def normalChannel : Channel := { id := 1, var := { name := "ifNormal", ty := .vec3 } }

/-- The channel of positions in the clip spaces of lights. -/
def lightChannel (max : UInt32) : Channel := { id := 2, var := Shadow.interfaceVar max }

/-- The positions of the mesh. -/
def positions : Handle := outputOf (.endpoint (.meshAttribute .positions)) (vertexId 0)

/-- The matrix from the space of the mesh to that of the world. -/
def modelMatrix : Handle := .uniform (vertexId 2) CameraNode.modelMatrix

/-- The nodes of the vertex stage without lights. -/
def meshNodes : List LibraryNode :=
  let normals := outputOf (.endpoint (.meshAttribute .normals)) (vertexId 1)
  let clip : LibraryNode :=
    .arithmetic (.transform .clip positions (.uniform (vertexId 2) CameraNode.mvpMatrix))
  let point : LibraryNode := .arithmetic (.transform .point positions modelMatrix)
  let direction : LibraryNode := .arithmetic (.transform .direction normals modelMatrix)
  [.endpoint (.meshAttribute .positions), .endpoint (.meshAttribute .normals), .camera, clip,
    .endpoint (.positionOutput (outputOf clip (vertexId 3))), point, direction,
    .endpoint (.producer positionChannel (outputOf point (vertexId 5))),
    .endpoint (.producer normalChannel (outputOf direction (vertexId 6)))]

/-- The nodes of the fragment stage that read channels. -/
def consumerNodes : List LibraryNode :=
  [.endpoint (.consumer positionChannel positionChannel.var),
    .endpoint (.consumer normalChannel normalChannel.var)]

/-- The depth textures of the lights. -/
def depthTextures (max : UInt32) : Handle :=
  outputOf (.texture (.binding "depthTextures" (some max))) (fragmentId 2)

/-- The nodes of the fragment stage that compute the color. -/
def shadingNodes : List LibraryNode :=
  let position := outputOf (.endpoint (.consumer positionChannel positionChannel.var)) (fragmentId 0)
  let normal := outputOf (.endpoint (.consumer normalChannel normalChannel.var)) (fragmentId 1)
  let normalize : LibraryNode := .arithmetic (.normalize normal)
  let lambert : LibraryNode := .light (.lambert { shadowed := true } LightNode.defaultInner
    (.uniform (fragmentId 3) LightArray.count) position (outputOf normalize (fragmentId 4))
    Designing.meshColor)
  [normalize, lambert, .endpoint (.colorOutput "outColor" (outputOf lambert (fragmentId 5)))]

/-- The nodes of the model with up to `max` lights. -/
def nodes (max : UInt32) : Stage → List LibraryNode
  | .vertex =>
    meshNodes ++ [.light (.shadowVertex max (lightChannel max) positions (some modelMatrix))]
  | .fragment =>
    consumerNodes ++ [.texture (.binding "depthTextures" (some max)),
      .light (.shadowFragment max (lightChannel max) (depthTextures max))] ++ shadingNodes

/-- The model. -/
abbrev model (max : UInt32) : Model := libraryModel "shadowed-lights" (graphsFrom 0) (nodes max)

theorem model_build (config : Config) :
    (Preset.build .shadowedLights config).design.model = model config.maxLights := rfl

/-! ## Schedules -/

theorem dependencyTable_vertex (max : UInt32) :
    ((model max).graph .vertex).dependencyTable =
      .ok [[], [], [], [0, 2], [3], [0, 2], [1, 2], [5], [6], [0, 2]] := rfl

theorem dependencyTable_fragment (max : UInt32) :
    ((model max).graph .fragment).dependencyTable = .ok [[], [], [], [2], [1], [3, 0, 4], [5]] := rfl

theorem schedule_vertex (max : UInt32) :
    ((model max).graph .vertex).schedule = .ok (List.range 10) := by
  have hleast : leastOrder [[], [], [], [0, 2], [3], [0, 2], [1, 2], [5], [6], [0, 2]] =
      .ok (List.range 10) := by
    decide
  rw [StageGraph.schedule_of_table (dependencyTable_vertex max), hleast]
  rfl

theorem schedule_fragment (max : UInt32) :
    ((model max).graph .fragment).schedule = .ok (List.range 7) := by
  have hleast : leastOrder [[], [], [], [2], [1], [3, 0, 4], [5]] = .ok (List.range 7) := by
    decide
  rw [StageGraph.schedule_of_table (dependencyTable_fragment max), hleast]
  rfl

/-- Nodes are emitted in order of registration. -/
theorem order_eq (max : UInt32) (stage : Stage) :
    (model max).order stage = List.range (nodes max stage).length := by
  cases stage with
  | vertex => rw [Model.order, schedule_vertex]; rfl
  | fragment => rw [Model.order, schedule_fragment]; rfl

/-! ## Registrations -/

/-- The block of the camera. -/
def cameraBlock : RegisteredBlock where
  block :=
    { name := "CameraUniforms", stage := .vertex, binding := 0
      layout :=
        { members := [{ CameraNode.modelMatrix with offset := 0, stride := 64, size := 64 },
            { CameraNode.viewMatrix with offset := 64, stride := 64, size := 64 },
            { CameraNode.projMatrix with offset := 128, stride := 64, size := 64 },
            { CameraNode.mvpMatrix with offset := 192, stride := 64, size := 64 }]
          size := 256 } }
  update := CameraNode.update

/-- What the mesh has registered once its attributes and the camera are set up. -/
def cameraRegistry : Registry where
  stage := .vertex
  attributes := [{ Attribute.positions with location := 0 }, { Attribute.normals with location := 1 }]
  nextLocation := 2
  blocks := [cameraBlock]
  nextBinding := 1

/-- What the mesh has registered without lights. -/
def meshRegistry : Registry :=
  { cameraRegistry with
    outputs := [{ slot := 0, var := positionChannel.var }, { slot := 1, var := normalChannel.var }]
    nextSlot := 2
    channelSlots := [(1, 1), (0, 0)] }

/-- What the vertex stage has registered. -/
def vertexRegistry (max nextSlot : UInt32) (layout : BlockLayout) : Registry :=
  { meshRegistry with
    outputs := meshRegistry.outputs ++ [{ slot := 2, var := Shadow.interfaceVar max }]
    nextSlot
    channelSlots := (2, 2) :: meshRegistry.channelSlots
    blocks := [cameraBlock,
      { block := { name := "ShadowLightSpace", stage := .vertex, binding := 1, layout }
        update := Shadow.update max }]
    nextBinding := 2 }

/-- What the fragment stage has registered once its channels are read, lights apart. -/
def consumerRegistry : Registry where
  stage := .fragment
  inputs := meshRegistry.outputs
  nextBinding := 2
  channelSlots := [(2, 2), (1, 1), (0, 0)]

/-- What the fragment stage has registered once it has its textures. -/
def textureRegistry (max samplerBinding lightBinding : UInt32) : Registry :=
  { consumerRegistry with
    samplers := [{ name := "depthTextures", stage := .fragment, dim := .tex2d, arrayLen := some max,
                   binding := 2, samplerBinding }]
    nextBinding := lightBinding }

/-- What the fragment stage has registered once it has its lights. -/
def lightRegistry (max samplerBinding lightBinding nextBinding : UInt32) (layout : BlockLayout) :
    Registry :=
  { textureRegistry max samplerBinding lightBinding with
    inputs := meshRegistry.outputs ++ [{ slot := 2, var := Shadow.interfaceVar max }]
    blocks := [{ block := { name := "Lights", stage := .fragment, binding := lightBinding, layout }
                 update := LightArray.update max }]
    nextBinding }

/-- What the fragment stage has registered. -/
def fragmentRegistry (max samplerBinding lightBinding nextBinding : UInt32) (layout : BlockLayout) :
    Registry :=
  { lightRegistry max samplerBinding lightBinding nextBinding layout with
    colorOutputs := [{ name := "outColor", location := 0 }] }

section Setups

variable {max nextSlot samplerBinding lightBinding nextBinding : UInt32} {layout : BlockLayout}

/-- The lights of the vertex stage get a slot for their positions and a block for their matrices. -/
theorem setupOutcome_shadowVertex
    (hslot : meshRegistry.slotAfter? (Shadow.interfaceVar max) = some nextSlot)
    (hlayout : BlockLayout.std140? (Shadow.block max).members = some layout) :
    ((model max).graph .vertex).setupOutcome meshRegistry 9 =
      .ok (vertexRegistry max nextSlot layout) := by
  have hchannel := @Registry.allocateChannel_eq_ok meshRegistry (lightChannel max) nextSlot rfl rfl hslot
  refine setupOutcome_of_run rfl ?_
  refine (Setup.run_register (Setup.addBlock (Shadow.block max)) rfl hchannel).trans ?_
  exact Setup.run_register_last rfl
    (Registry.addBlock_eq_ok rfl rfl rfl hlayout (Word.add?_eq_some_iff.2 rfl))

/-- The textures of the fragment stage get a binding each, and one for their sampler. -/
theorem setupOutcome_textures
    (hsampler : consumerRegistry.samplerBindings? max = some (samplerBinding, lightBinding)) :
    ((model max).graph .fragment).setupOutcome consumerRegistry 2 =
      .ok (textureRegistry max samplerBinding lightBinding) :=
  setupOutcome_of_run rfl (Setup.run_register_last rfl (Registry.addSampler_eq_ok rfl hsampler))

/-- The lights of the fragment stage get a block and read the positions. -/
theorem setupOutcome_shadowFragment
    (hlayout : BlockLayout.std140? (LightArray.block max).members = some layout)
    (hnext : Word.add? lightBinding 1 = some nextBinding) :
    ((model max).graph .fragment).setupOutcome (textureRegistry max samplerBinding lightBinding) 3 =
      .ok (lightRegistry max samplerBinding lightBinding nextBinding layout) := by
  have hblock := @Registry.addBlock_eq_ok (textureRegistry max samplerBinding lightBinding)
    (LightArray.block max) _ _ _ rfl rfl rfl hlayout hnext
  refine setupOutcome_of_run rfl ?_
  refine (Setup.run_register
    (Setup.registerChannelInput (lightChannel max) (Shadow.interfaceVar max)) rfl hblock).trans ?_
  exact Setup.run_register_last rfl (Registry.registerChannelInput_eq_ok rfl rfl rfl)

theorem checkStages_eq_ok (stage : Stage) : ((model max).graph stage).checkStages = .ok () := by
  -- Where a node may stand does not depend on the number of lights.
  have hmasks : (nodes max stage).map (·.allowed) = (nodes 0 stage).map (·.allowed) := by
    cases stage <;> rfl
  have hallowed : ∀ mask ∈ (nodes 0 stage).map (·.allowed), mask.intersects stage.mask = true := by
    cases stage <;> decide
  refine forM_eq_ok_of_forall fun node hnode => ?_
  obtain ⟨index, hindex⟩ := List.mem_iff_getElem?.1 hnode
  rw [getElem?_libraryModel] at hindex
  obtain ⟨library, hlibrary, rfl⟩ := Option.map_eq_some_iff.1 hindex
  rw [Model.graph_stage, LibraryNode.toNode]
  exact if_pos (hallowed _ (hmasks ▸ List.mem_map_of_mem (List.mem_of_getElem? hlibrary)))

/-- A stage can be set up if its nodes can, one after another. What is registered before each node, and
after the last, is given by a list. -/
theorem performed_setupSteps (input : CompileInput) {p : Progress} {stage : Stage} {count : Nat}
    {finish : Registry} (reached : List Registry)
    (hschedule : ((model max).graph stage).schedule = .ok (List.range count))
    (hstart : reached[0]? = some ((p.enter stage).registry stage))
    (hfinish : reached[count]? = some finish)
    (hstep : ∀ index < count, ∀ r, reached[index]? = some r →
      ∃ r', ((model max).graph stage).setupOutcome r index = .ok r' ∧
        reached[index + 1]? = some r') :
    Performed (model max) input p ((model max).setupSteps stage)
      ((p.enter stage).withRegistry finish stage) := by
  obtain ⟨registry, hregistry, hperformed⟩ :=
    performed_setups_of_step (fun index r => reached[index]? = some r) hstart hstep
  cases hfinish.symm.trans hregistry
  rw [Model.setupSteps, Model.order, hschedule]
  exact (performed_enter input p (checkStages_eq_ok stage) hschedule).append hperformed

/-- The vertex stage can be set up. -/
theorem performed_vertex (input : CompileInput)
    (hslot : meshRegistry.slotAfter? (Shadow.interfaceVar max) = some nextSlot)
    (hlayout : BlockLayout.std140? (Shadow.block max).members = some layout) :
    Performed (model max) input (.start input) ((model max).setupSteps .vertex)
      ((Progress.start input).withRegistry (vertexRegistry max nextSlot layout) .vertex) := by
  refine performed_setupSteps input
    [{ stage := .vertex },
      { stage := .vertex, attributes := [{ Attribute.positions with location := 0 }],
        nextLocation := 1 },
      { cameraRegistry with blocks := [], nextBinding := 0 },
      cameraRegistry, cameraRegistry, cameraRegistry, cameraRegistry, cameraRegistry,
      { cameraRegistry with
        outputs := [{ slot := 0, var := positionChannel.var }], nextSlot := 1
        channelSlots := [(0, 0)] },
      meshRegistry, vertexRegistry max nextSlot layout] (schedule_vertex max) rfl rfl ?_
  intro index hindex r hr
  -- Only the last node depends on the number of lights.
  obtain hmesh | rfl : index < 9 ∨ index = 9 := by omega
  · interval_cases index <;> cases hr <;> exact ⟨_, rfl, rfl⟩
  · cases hr
    exact ⟨_, setupOutcome_shadowVertex hslot hlayout, rfl⟩

/-- After the vertex stage, the fragment stage can be set up. -/
theorem performed_fragment (input : CompileInput) {matrices : BlockLayout}
    (hsampler : consumerRegistry.samplerBindings? max = some (samplerBinding, lightBinding))
    (hlayout : BlockLayout.std140? (LightArray.block max).members = some layout)
    (hnext : Word.add? lightBinding 1 = some nextBinding) :
    let p := (Progress.start input).withRegistry (vertexRegistry max nextSlot matrices) .vertex
    Performed (model max) input p ((model max).setupSteps .fragment)
      (p.withRegistry (fragmentRegistry max samplerBinding lightBinding nextBinding layout)
        .fragment) := by
  intro p
  refine performed_setupSteps input
    [{ consumerRegistry with inputs := [] },
      { consumerRegistry with inputs := [{ slot := 0, var := positionChannel.var }] },
      consumerRegistry, textureRegistry max samplerBinding lightBinding,
      lightRegistry max samplerBinding lightBinding nextBinding layout,
      lightRegistry max samplerBinding lightBinding nextBinding layout,
      lightRegistry max samplerBinding lightBinding nextBinding layout,
      fragmentRegistry max samplerBinding lightBinding nextBinding layout]
    (schedule_fragment max) rfl rfl ?_
  intro index hindex r hr
  -- Textures and lights depend on the number of lights, the other nodes do not.
  obtain hbefore | rfl | rfl | hafter : index < 2 ∨ index = 2 ∨ index = 3 ∨ 3 < index := by omega
  · interval_cases index <;> cases hr <;> exact ⟨_, rfl, rfl⟩
  · cases hr
    exact ⟨_, setupOutcome_textures hsampler, rfl⟩
  · cases hr
    exact ⟨_, setupOutcome_shadowFragment hlayout hnext, rfl⟩
  · interval_cases index <;> cases hr <;> exact ⟨_, rfl, rfl⟩

end Setups

/-! ## Wiring -/

open Std140

theorem nodes_wired (max : UInt32) : WiredToOutputs (graphsFrom 0) (nodes max) := by
  intro stage node hnode handle hinput id howner _ owner hgetOwner
  obtain ⟨index, hindex⟩ := List.mem_iff_getElem?.1 hnode
  have hlt := (List.getElem?_eq_some_iff.1 hindex).1
  cases stage with
  | vertex =>
    change index < 10 at hlt
    -- The clip position reads the last matrix of the camera; all others read first outputs.
    obtain hbefore | rfl | hafter := Nat.lt_trichotomy index 3
    · interval_cases index <;> cases hindex <;> cases hinput
    · cases hindex
      fin_cases hinput <;> cases howner <;> cases hgetOwner
      · exact ⟨_, List.mem_cons_self⟩
      · exact ⟨_, List.mem_of_getElem? (i := 3) rfl⟩
    · interval_cases index <;> cases hindex <;> fin_cases hinput <;> cases howner <;>
        cases hgetOwner <;> exact ⟨_, List.mem_cons_self⟩
  | fragment =>
    change index < 7 at hlt
    interval_cases index <;> cases hindex <;> fin_cases hinput <;> cases howner <;>
      cases hgetOwner <;> exact ⟨_, List.mem_cons_self⟩

/-! ## Emissions -/

/-- The statements of the vertex half of the lights. -/
theorem emission_shadowVertex (place : CodePlace) (max : UInt32) :
    ∃ matrix position : Piece,
      (LightNode.emit (vertexId 9)
        (.shadowVertex max (lightChannel max) positions (some modelMatrix))).emission place =
        { result := .ok ()
          statements := (List.range max.toNat).map
            (Shadow.projection "ifPosLightSpace" matrix position) } ∧
      matrix.render = "uModel" ∧ position.render = "vec4(attrib_positions, 1.0)" := by
  rw [List.range_eq_range']
  exact ⟨_, _, Shadow.emission_projectEach place "ifPosLightSpace" _ _ max.toNat 0, rfl, rfl⟩

/-- The statements of the fragment half of the lights. -/
theorem emission_shadowFragment (place : CodePlace) (max : UInt32) :
    (LightNode.emit (fragmentId 3)
      (.shadowFragment max (lightChannel max) (depthTextures max))).emission place =
      { result := .ok ()
        statements := Code.block 12 (Shadow.declarationRows place.target max (depthTextures max))
          :: (List.range max.toNat).flatMap
            (Shadow.factorStatements place.target (depthTextures max)) } := by
  have hstep := Emit.emission_append place
    (Code.block 12 (Shadow.declarationRows place.target max (depthTextures max)))
    fun _ => Shadow.factorEach (depthTextures max) max.toNat 0
  rw [Shadow.emission_factorEach, ← List.range_eq_range'] at hstep
  exact hstep

theorem emitsWell (target : Target) (max : UInt32) (stage : Stage) :
    EmitsWell target (graphsFrom 0) (nodes max) stage := by
  intro index node hnode
  have hlt := (List.getElem?_eq_some_iff.1 hnode).1
  cases stage with
  | vertex =>
    change index < 10 at hlt
    obtain hmesh | rfl : index < 9 ∨ index = 9 := by omega
    · interval_cases index <;> cases hnode <;> rfl
    · cases hnode
      obtain ⟨_, _, hemission, -⟩ := emission_shadowVertex { target, stage := .vertex } max
      exact congrArg Emission.result hemission
  | fragment =>
    change index < 7 at hlt
    obtain hbefore | rfl | hafter := Nat.lt_trichotomy index 3
    · interval_cases index <;> cases hnode <;> rfl
    · cases hnode
      exact congrArg Emission.result (emission_shadowFragment { target, stage := .fragment } max)
    · interval_cases index <;> cases hnode <;> rfl

/-! ## Layouts -/

/-- Where no gaps are needed, variables end after the sizes of all of them. -/
theorem finishFrom_of_gapless {start : Nat} {vars : List Variable} (h : Gapless start vars) :
    finishFrom start vars = start + (vars.map memberSize).sum := by
  induction vars generalizing start with
  | nil => rfl
  | cons var rest ih =>
    obtain ⟨haligned, hrest⟩ := h
    have hround : roundUp start (memberAlignment var) = start :=
      (LeastMultiple.eq_roundUp ⟨haligned, Nat.le_refl _, fun _ _ hle => hle⟩
        (memberAlignment_pos var)).symm
    rw [finishFrom, hround, ih hrest, List.map_cons, List.sum_cons, Nat.add_assoc]

/-- A block of the library has a layout if the sizes of its members fit. -/
theorem exists_layout (block : DrawBlock)
    (h : roundUp (block.request.members.map memberSize).sum 16 < Word.limit) :
    ∃ layout, BlockLayout.std140? block.request.members = some layout := by
  refine exists_std140? ?_
  rwa [finishFrom_of_gapless block.gapless_members, Nat.zero_add]

theorem exists_matrixLayout {max : UInt32} (h : 64 * max.toNat < 2 ^ 32) :
    ∃ layout, BlockLayout.std140? (Shadow.block max).members = some layout := by
  refine exists_layout (.shadows max) ?_
  have hrows : 16 ∣ Std140.size .mat4 := by decide
  have hsize : memberSize (Shadow.lightMatrices max) = 64 * max.toNat := memberSize_of_rows rfl hrows
  change roundUp (memberSize (Shadow.lightMatrices max) + 0) 16 < 2 ^ 32
  unfold roundUp
  omega

theorem exists_lightLayout {max : UInt32} (h : 64 * max.toNat < 2 ^ 32) :
    ∃ layout, BlockLayout.std140? (LightArray.block max).members = some layout := by
  refine exists_layout (.lights max) ?_
  change roundUp ((LightArray.block max).members.map memberSize).sum 16 < 2 ^ 32
  rw [DrawBlock.sum_memberSize_lights]
  unfold roundUp
  omega

/-! ## Main Routines -/

/-- The line that reads the shadow factor of a light. -/
def radianceLine : String :=
  "    vec3 radiance = (light_getRadiance(i, lambert5_color_toLight, 0.8) * shadowFacs[i]);"

/-- The lines of diffuse lighting. -/
def lambertLines : List String :=
  ["vec3 lambert5_color_diffuse = vec3(0.0);",
    "for (int i = 0; i < lightCount; i++) \x7b",
    "    vec3 lambert5_color_toLight = light_getFragToLight(i, ifFragPos);",
    radianceLine,
    "    lambert5_color_diffuse += radiance * max(dot(normalize4_out, "
      ++ "normalize(lambert5_color_toLight)), 0.0);",
    "\x7d",
    "vec4 lambert5_color = vec4(vec4(0.8, 0.8, 0.8, 1.0).rgb * lambert5_color_diffuse, "
      ++ "vec4(0.8, 0.8, 0.8, 1.0).a);"]

/-- What the nodes that compute the color write is the same for all targets. -/
theorem exists_shadingStatements (target : Target) :
    ∃ normal rows color, emittedFrom target (graphsFrom 0) .fragment 4 shadingNodes =
        [normal, Code.block 12 rows, color] ∧
      normal.render = "vec3 normalize4_out = normalize(ifNormal);" ∧
      rows.map Code.render = lambertLines ∧
      color.render = "outColor = lambert5_color;" := by
  refine ⟨_, _, _, rfl, ?_, ?_, ?_⟩ <;> decide +kernel

/-- Of the nodes that compute the color, one line reads the shadow factors. -/
theorem filter_shadingLines (target : Target) :
    ((emittedFrom target (graphsFrom 0) .fragment 4 shadingNodes).flatMap (·.lines)).filter
      (mentions "shadowFacs") = [radianceLine] := by
  obtain ⟨normal, rows, color, hemitted, hnormal, hrows, hcolor⟩ := exists_shadingStatements target
  have hnormalLines := Code.lines_of_tight hnormal
    (by rw [hnormal]; exact Text.of_ofList rfl (by decide))
  have hcolorLines := Code.lines_of_tight hcolor
    (by rw [hcolor]; exact Text.of_ofList rfl (by decide))
  have hsolid : ∀ line ∈ lambertLines, Text.Solid line.toList := by
    iterate 4 refine Text.forall_mem_cons_ofList rfl (by decide) ?_
    refine Text.forall_mem_cons_ofList String.ofList_append.symm (by decide) ?_
    refine Text.forall_mem_cons_ofList rfl (by decide) ?_
    refine Text.forall_mem_cons_ofList String.ofList_append.symm (by decide) ?_
    exact List.forall_mem_nil _
  have hblockLines := Code.lines_block 12 hrows hsolid
    ⟨_, List.mem_cons_self, Text.of_ofList (P := (Text.indentOf · = 0)) rfl (by decide)⟩
  -- The other lines have no w.
  have hchar : 'w' ∈ "shadowFacs".toList := by decide
  have hradiance : mentions "shadowFacs" radianceLine = true :=
    mentions_append "    vec3 radiance = (light_getRadiance(i, lambert5_color_toLight, 0.8) * "
      "shadowFacs" "[i]);"
  rw [hemitted, List.flatMap_cons, List.flatMap_cons, List.flatMap_singleton, hnormalLines,
    hblockLines, hcolorLines]
  iterate 4 refine (filter_mentions_cons hchar rfl (by decide) _).trans ?_
  refine (List.filter_cons_of_pos hradiance).trans (congrArg _ ?_)
  refine (filter_mentions_cons hchar String.ofList_append.symm (by decide) _).trans ?_
  refine (filter_mentions_cons hchar rfl (by decide) _).trans ?_
  refine (filter_mentions_cons hchar String.ofList_append.symm (by decide) _).trans ?_
  exact filter_mentions_cons hchar rfl (by decide) []

/-- The lines of the vertex stage without lights. -/
def meshLines : List String :=
  ["vec4 transform3_out = uMvp * vec4(attrib_positions, 1.0);",
    "gl_Position = transform3_out;",
    "vec3 transform5_out = (uModel * vec4(attrib_positions, 1.0)).xyz;",
    "vec3 transform6_out = (uModel * vec4(attrib_normals, 0.0)).xyz;",
    "ifFragPos = transform5_out;",
    "ifNormal = transform6_out;"]

/-- Without lights, no line mentions the positions for them. -/
theorem filter_meshLines (target : Target) :
    ((emittedFrom target (graphsFrom 0) .vertex 0 meshNodes).flatMap (·.lines)).filter
      (mentions "ifPosLightSpace") = [] := by
  have hsame : emittedFrom target (graphsFrom 0) .vertex 0 meshNodes =
      emittedFrom .vulkan (graphsFrom 0) .vertex 0 meshNodes := rfl
  have hrender : (emittedFrom .vulkan (graphsFrom 0) .vertex 0 meshNodes).map Code.render =
      meshLines := by
    decide +kernel
  have htight : ∀ line ∈ meshLines, Text.Tight line.toList := by
    iterate 6 refine Text.forall_mem_cons_ofList rfl (by decide) ?_
    exact List.forall_mem_nil _
  have hchar : 'L' ∈ "ifPosLightSpace".toList := by decide
  rw [hsame, Code.flatMap_lines_of_tight hrender htight]
  iterate 6 refine (filter_mentions_cons hchar rfl (by decide) _).trans ?_
  rfl

/-- Of the vertex stage, the lines that mention the positions for lights. -/
theorem filter_vertexLines {max : UInt32} {input : CompileInput} {shader : Shader}
    (h : ((model max).compile input).outcome = .ok shader) :
    shader.vertex.mainLines.filter (mentions "ifPosLightSpace") =
      (List.range max.toNat).map
        (Shadow.projectionLine "uModel" "vec4(attrib_positions, 1.0)") := by
  have hmain : shader.vertex.code.main = _ :=
    main_eq_emittedFrom (nodes_wired max) h (order_eq max .vertex) (emitsWell input.target max .vertex)
  obtain ⟨matrix, position, hemission, hmatrix, hposition⟩ :=
    emission_shadowVertex { target := input.target, stage := .vertex } max
  have hlights : emittedFrom input.target (graphsFrom 0) .vertex 9
      [.light (.shadowVertex max (lightChannel max) positions (some modelMatrix))] =
      (List.range max.toNat).map (Shadow.projection "ifPosLightSpace" matrix position) :=
    (List.append_nil _).trans (congrArg Emission.statements hemission)
  rw [StageProgram.mainLines, hmain, nodes, emittedFrom_append, List.flatMap_append,
    List.filter_append, filter_meshLines, List.nil_append]
  change ((emittedFrom _ _ .vertex 9 _).flatMap _).filter _ = _
  rw [hlights, Shadow.lines_projections (by rw [hmatrix]; decide) (by rw [hposition]; decide),
    Shadow.filter_projectionLines, hmatrix, hposition]

/-- Of the fragment stage, the lines that mention the shadow factors. -/
theorem filter_fragmentLines {max : UInt32} {input : CompileInput} {shader : Shader}
    (h : ((model max).compile input).outcome = .ok shader) :
    shader.fragment.mainLines.filter (mentions "shadowFacs") =
      ("float " ++ Shadow.element "shadowFacs" max.toNat ++ ";")
        :: (List.range max.toNat).flatMap (Shadow.factorLines input.target)
        ++ [radianceLine] := by
  have hmain : shader.fragment.code.main = _ :=
    main_eq_emittedFrom (nodes_wired max) h (order_eq max .fragment)
      (emitsWell input.target max .fragment)
  have hname : (depthTextures max).name = "depthTextures" := rfl
  have hlights : emittedFrom input.target (graphsFrom 0) .fragment 2
      [.texture (.binding "depthTextures" (some max)),
        .light (.shadowFragment max (lightChannel max) (depthTextures max))] =
      Code.block 12 (Shadow.declarationRows input.target max (depthTextures max))
        :: (List.range max.toNat).flatMap
          (Shadow.factorStatements input.target (depthTextures max)) :=
    (List.append_nil _).trans (congrArg Emission.statements
      (emission_shadowFragment { target := input.target, stage := .fragment } max))
  have hconsumers : emittedFrom input.target (graphsFrom 0) .fragment 0 consumerNodes = [] := rfl
  rw [StageProgram.mainLines, hmain, nodes, emittedFrom_append, emittedFrom_append, hconsumers,
    List.nil_append, List.flatMap_append, List.filter_append]
  change ((emittedFrom _ _ .fragment 2 _).flatMap _).filter _
    ++ ((emittedFrom _ _ .fragment 4 shadingNodes).flatMap _).filter _ = _
  rw [hlights, filter_shadingLines, List.flatMap_cons, List.filter_append,
    Shadow.filter_lines_declaration hname, Shadow.filter_lines_factors hname]
  rfl

/-! ## Any Number of Lights -/

/-- Where the matrices of the lights have room, both stages can be set up. -/
theorem exists_performed {max : UInt32} (h : 64 * max.toNat < 2 ^ 32) (input : CompileInput) :
    ∃ nextSlot samplerBinding lightBinding nextBinding matrices lights,
      Performed (model max) input (.start input)
        ((model max).setupSteps .vertex ++ (model max).setupSteps .fragment)
        (((Progress.start input).withRegistry
          (vertexRegistry max nextSlot matrices) .vertex).withRegistry
          (fragmentRegistry max samplerBinding lightBinding nextBinding lights) .fragment) ∧
      nextSlot.toNat = max.toNat + 2 ∧ samplerBinding.toNat = max.toNat + 2 ∧
      lightBinding.toNat = max.toNat + 3 := by
  have hlocations : (Shadow.interfaceVar max).locations = max.toNat := Nat.one_mul _
  obtain ⟨nextSlot, hslot⟩ := @exists_slotAfter? meshRegistry (Shadow.interfaceVar max)
    (by rw [hlocations]; change 2 + max.toNat < 2 ^ 32; omega)
  have hnextSlot : nextSlot.toNat = 2 + (Shadow.interfaceVar max).locations := slotAfter?_eq_some hslot
  obtain ⟨matrices, hmatrices⟩ := exists_matrixLayout h
  obtain ⟨lights, hlights⟩ := exists_lightLayout h
  have hword {n : Nat} (hn : n < 2 ^ 32) : n.toUInt32.toNat = n := Nat.mod_eq_of_lt hn
  have hsamplerNat := @hword (max.toNat + 2) (by omega)
  have hlightNat := @hword (max.toNat + 3) (by omega)
  have hnextNat := @hword (max.toNat + 4) (by omega)
  -- Bindings follow each other: the textures, their sampler, the block of the lights.
  have hsampler : Word.add? 2 max = some (max.toNat + 2).toUInt32 :=
    Word.add?_eq_some_iff.2 (hsamplerNat.trans (Nat.add_comm _ _))
  have hlight : Word.add? (max.toNat + 2).toUInt32 1 = some (max.toNat + 3).toUInt32 :=
    Word.add?_eq_some_iff.2 (by rw [hsamplerNat, hlightNat]; rfl)
  have hnext : Word.add? (max.toNat + 3).toUInt32 1 = some (max.toNat + 4).toUInt32 :=
    Word.add?_eq_some_iff.2 (by rw [hlightNat, hnextNat]; rfl)
  have hbindings : consumerRegistry.samplerBindings? max =
      some ((max.toNat + 2).toUInt32, (max.toNat + 3).toUInt32) := by
    rw [Registry.samplerBindings?]
    change (Word.add? 2 max).bind _ = _
    rw [hsampler, Option.bind_some, hlight]
    rfl
  refine ⟨nextSlot, _, _, _, matrices, lights,
    (performed_vertex input hslot hmatrices).append
      (performed_fragment input hbindings hlights hnext), ?_, hsamplerNat, hlightNat⟩
  rw [hnextSlot, hlocations, Nat.add_comm]

/-- For any number of lights whose matrices have room, a mesh with shadowed lights compiles. The stages
hand over positions, normals and one array of positions for the lights, which takes as many locations as
there are lights. The bindings of the depth textures follow those of the camera and of the matrices, and
their sampler and the lights follow them. In the main routine of the vertex stage, one line for each
light, in increasing order, mentions that array: it assigns one element. In that of the fragment stage,
the shadow factors are declared, each of them is set to zero, added to nine times and divided, in
increasing order, and they are read by diffuse lighting. -/
theorem compiles_for_any_lights (config : Config) (h : 64 * config.maxLights.toNat < 2 ^ 32)
    (input : CompileInput) :
    let ws := Preset.build .shadowedLights config
    let count := config.maxLights.toNat
    ∃ shader, (ws.design.model.compile input).outcome = .ok shader ∧
      shader.interface = [{ slot := 0, var := { name := "ifFragPos", ty := .vec3 } },
        { slot := 1, var := { name := "ifNormal", ty := .vec3 } },
        { slot := 2, var := { name := "ifPosLightSpace", ty := .vec4,
                              arrayLen := some config.maxLights } }] ∧
      shader.interfaceSlotCount.toNat = count + 2 ∧
      shader.blocks.map (fun b => (b.block.name, b.block.stage, b.block.binding.toNat)) =
        [("CameraUniforms", .vertex, 0), ("ShadowLightSpace", .vertex, 1),
          ("Lights", .fragment, count + 3)] ∧
      shader.samplers.map (fun s => (s.name, s.stage, s.dim, s.arrayLen,
          (Target.separateTextures s).map Prod.snd, s.samplerBinding.toNat)) =
        [("depthTextures", .fragment, .tex2d, some config.maxLights, List.range' 2 count,
          count + 2)] ∧
      shader.pushConstants = [] ∧
      Shadow.offsets.length = 9 ∧
      (∀ target : Target, ∀ s ∈ shader.samplers, target.samplerFits s = true) ∧
      shader.vertex.mainLines.filter (mentions "ifPosLightSpace") =
        (List.range count).map
          (Shadow.projectionLine "uModel" "vec4(attrib_positions, 1.0)") ∧
      shader.fragment.mainLines.filter (mentions "shadowFacs") =
        ("float " ++ Shadow.element "shadowFacs" count ++ ";")
          :: (List.range count).flatMap (Shadow.factorLines input.target) ++ [radianceLine] := by
  intro ws count
  have hmodel : ws.design.model = model config.maxLights := model_build config
  obtain ⟨nextSlot, samplerBinding, lightBinding, nextBinding, matrices, lights, hsetup, hslot,
    hsampler, hlight⟩ := exists_performed h input
  have hlink : verifyLink (vertexRegistry config.maxLights nextSlot matrices)
      (fragmentRegistry config.maxLights samplerBinding lightBinding nextBinding lights) = .ok () :=
    verifyLink_of_inputs_eq rfl (by decide : ([0, 1, 2] : List UInt32).Nodup)
  obtain ⟨shader, hcompile, hregistry⟩ := exists_compile_of_emissions
    (nodes_wired config.maxLights) hsetup hlink (emitsWell input.target config.maxLights)
  have hvertex : shader.vertex.registry = vertexRegistry config.maxLights nextSlot matrices :=
    hregistry .vertex
  have hfragment : shader.fragment.registry =
      fragmentRegistry config.maxLights samplerBinding lightBinding nextBinding lights :=
    hregistry .fragment
  refine ⟨shader, by rw [hmodel]; exact hcompile, ?_, ?_, ?_, ?_, ?_, rfl, fun target => ?_,
    filter_vertexLines hcompile, filter_fragmentLines hcompile⟩
  · rw [Shader.interface, hvertex]
    rfl
  · rw [Shader.interfaceSlotCount, hvertex]
    exact hslot
  · rw [Shader.blocks, hvertex, hfragment, ← hlight]
    rfl
  · have htextures : List.range' 2 count = (List.range count).map (2 + ·) :=
      List.range'_eq_map_range
    rw [Shader.samplers, hvertex, hfragment, htextures, ← hsampler]
    change [(_, _, _, _, ((List.range count).map _).map Prod.snd, _)] = _
    rw [List.map_map]
    rfl
  · rw [Shader.pushConstants, hvertex, hfragment]
    rfl
  · rw [Shader.samplers, hvertex, hfragment]
    intro s hs
    obtain rfl := List.mem_singleton.1 hs
    have hfits : 2 + config.maxLights.toNat ≤ 2 ^ 32 := by omega
    cases target with
    | vulkan => exact decide_eq_true hfits
    | opengl => rfl
    | webgl2 => rfl

/-- Three lights take three of five slots, and each of them is projected to. -/
theorem threeLights_compile :
    64 * ({ maxLights := 3 } : Config).maxLights.toNat < 2 ^ 32 ∧
      let ws := Preset.build .shadowedLights { maxLights := 3 }
      ∀ target : Target, ∃ shader,
        (ws.design.model.compile { target, parameters := ws.parameters }).outcome = .ok shader ∧
        shader.interfaceSlotCount.toNat = 5 ∧
        shader.vertex.mainLines.filter (mentions "ifPosLightSpace") =
          ["ifPosLightSpace[0] = lightMvp[0] * (uModel * vec4(attrib_positions, 1.0));",
            "ifPosLightSpace[1] = lightMvp[1] * (uModel * vec4(attrib_positions, 1.0));",
            "ifPosLightSpace[2] = lightMvp[2] * (uModel * vec4(attrib_positions, 1.0));"] := by
  refine ⟨by decide, ?_⟩
  intro ws target
  obtain ⟨shader, hcompile, -, hslots, -, -, -, -, -, hvertex, -⟩ :=
    compiles_for_any_lights { maxLights := 3 } (by decide) { target, parameters := ws.parameters }
  refine ⟨shader, hcompile, hslots, ?_⟩
  rw [hvertex]
  decide +kernel

end ShadowedMesh

end ShaderWeave
