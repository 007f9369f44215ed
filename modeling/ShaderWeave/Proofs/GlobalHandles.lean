import ShaderWeave.Proofs.Resources

/-!
# Handles and Global Declarations

A handle that a node offers says how its value is declared: by name, by type and, for an array, by
length. Uniforms and inputs of a stage are declared by the section of the source that comes before all
routines, and where the target has no push constants their declarations can be compared with the
handles word for word. They agree but for one kind of handle: a push constant is registered by name and
type alone, so that one with a length is declared as a single value.

## Main definitions

* `OnLines item text`: the item stands in the text on lines of its own.
* `GlobalDeclaration var storage text`: the text declares the variable.
* `StageProgram.Declares`: such a declaration stands before the routines of the source.
* `LibraryNode.declaredVariable`: the variable that an output of a node is declared as.

## Main results

* `StageProgram.declares_of_holds`: what is registered is declared.
* `LibraryNode.exists_resource_of_output`: an output that is not computed is registered by its node.
* `output_handles_declared`: the outputs of a compiled model are declared, as they are or, for push
  constants with a length, without it.
-/

namespace ShaderWeave

/-! ## Lines -/

/-- The item stands in the text on lines of its own. -/
def OnLines (item text : String) : Prop :=
  ∃ before after, text = before ++ item ++ after ∧
    (before = "" ∨ ∃ head, before = head ++ "\n") ∧ (after = "" ∨ ∃ tail, after = "\n" ++ tail)

namespace OnLines

theorem refl (text : String) : OnLines text text :=
  ⟨"", "", by simp, .inl rfl, .inl rfl⟩

theorem trans {item middle text : String} (hitem : OnLines item middle)
    (hmiddle : OnLines middle text) : OnLines item text := by
  obtain ⟨before, after, rfl, hbefore, hafter⟩ := hitem
  obtain ⟨first, last, rfl, hfirst, hlast⟩ := hmiddle
  refine ⟨first ++ before, after ++ last, by simp only [String.append_assoc], ?_, ?_⟩
  · -- What comes right before the item ends a line, or there is nothing and the outer text decides.
    rcases hbefore with rfl | ⟨head, rfl⟩
    · simpa using hfirst
    · exact .inr ⟨first ++ head, (String.append_assoc ..).symm⟩
  · rcases hafter with rfl | ⟨tail, rfl⟩
    · simpa using hlast
    · exact .inr ⟨tail ++ last, String.append_assoc ..⟩

theorem after_lines {item text : String} (h : OnLines item text) (head : String) :
    OnLines item (head ++ "\n" ++ text) :=
  h.trans ⟨head ++ "\n", "", by simp, .inr ⟨head, rfl⟩, .inl rfl⟩

theorem before_lines {item text : String} (h : OnLines item text) (tail : String) :
    OnLines item (text ++ ("\n" ++ tail)) :=
  h.trans ⟨"", "\n" ++ tail, by simp, .inl rfl, .inr ⟨tail, rfl⟩⟩

/-- Items that are put together line by line, or with an empty line between them, stand on lines of
their own. -/
theorem of_mem_intercalate {separator item : String} {items : List String}
    (hseparator : separator = "\n" ∨ separator = "\n\n") (hmem : item ∈ items) :
    OnLines item (String.intercalate separator items) := by
  -- A separator both begins and ends with the end of a line.
  obtain ⟨rest, hbegins⟩ : ∃ rest, separator = "\n" ++ rest := by
    rcases hseparator with rfl | rfl
    exacts [⟨"", rfl⟩, ⟨"\n", rfl⟩]
  obtain ⟨start, hends⟩ : ∃ start, separator = start ++ "\n" := by
    rcases hseparator with rfl | rfl
    exacts [⟨"", rfl⟩, ⟨"\n", rfl⟩]
  induction items with
  | nil => cases hmem
  | cons first others ih =>
    cases others with
    | nil =>
      rw [List.mem_singleton.1 hmem, String.intercalate_singleton]
      exact refl first
    | cons second others =>
      rw [String.intercalate_cons_cons]
      rcases List.mem_cons.1 hmem with rfl | hmem
      · rw [hbegins, String.append_assoc, String.append_assoc]
        exact (refl item).before_lines _
      · have hlater := (ih hmem).after_lines (first ++ start)
        have hassoc : first ++ start ++ "\n" = first ++ separator := by
          rw [String.append_assoc, ← hends]
        rwa [hassoc] at hlater

theorem subset {item text : String} (h : OnLines item text) : item.toList ⊆ text.toList := by
  obtain ⟨before, after, rfl, -, -⟩ := h
  intro c hc
  simp [hc]

end OnLines

/-! ## Declarations -/

/-- How a value that is not computed enters a stage. -/
inductive Storage where
  /-- Per vertex or fragment. -/
  | input
  /-- Per draw. -/
  | uniform
deriving DecidableEq

/-- How a value of the kind enters its stage; literals and local variables do not. -/
def ValueKind.storage? : ValueKind → Option Storage
  | constant | computed => none
  | uniform => some .uniform
  | stageInput => some .input

/-- The text declares the variable, where uniforms have no bindings. -/
inductive GlobalDeclaration (var : Variable) : Storage → String → Prop where
  /-- An input, with its location where inputs have one, and with the qualifier that keeps it from being
  interpolated. -/
  | input (location : Option UInt32) (flat : Bool) :
    GlobalDeclaration var .input
      ((location.map Target.location).getD "" ++ (if flat then "flat " else "") ++ "in "
        ++ var.declaration ++ ";")
  /-- A uniform on its own. -/
  | uniform : GlobalDeclaration var .uniform ("uniform " ++ var.declaration ++ ";")
  /-- A member of a block without an instance name, whose members are global. -/
  | member (block : String) (members : List Variable) (hmem : var ∈ members) :
    GlobalDeclaration var .uniform
      (Target.braced ("layout(std140) uniform " ++ block)
        (members.map fun member => "    " ++ member.declaration ++ ";"))

/-- A declaration shows the name, the type and the length of the variable. -/
theorem GlobalDeclaration.subset {var : Variable} {storage : Storage} {text : String}
    (h : GlobalDeclaration var storage text) : var.declaration.toList ⊆ text.toList := by
  intro c hc
  cases h with
  | input location flat => simp [hc]
  | uniform => simp [hc]
  | member block members hmem =>
    have hline : OnLines ("    " ++ var.declaration ++ ";") (String.intercalate "\n"
        (members.map fun member => "    " ++ member.declaration ++ ";")) :=
      .of_mem_intercalate (.inl rfl) (List.mem_map_of_mem hmem)
    have hlines := hline.subset (show c ∈ ("    " ++ var.declaration ++ ";").toList by simp [hc])
    simp only [Target.braced, String.toList_append]
    exact List.mem_append_left _ (List.mem_append_right _ hlines)

namespace StageProgram

/-- The source up to the first routine. -/
def globalText (target : Target) (program : StageProgram) : String :=
  String.intercalate "\n\n"
    (target.preamble
      :: declarations (target.attributeSection program.registry)
      ++ declarations (target.interfaceSection program.registry)
      ++ declarations (target.bindingSection program.registry))

/-- The routines of the source. -/
def routineText (program : StageProgram) : String :=
  String.intercalate "\n\n"
    (program.code.helpers.map (fun helper => trimIndent helper.2) ++ [program.mainRoutine])

theorem source_eq_globalText (target : Target) (program : StageProgram) :
    program.source target =
      program.globalText target ++ "\n\n" ++ program.routineText ++ "\n" := by
  have hsections : program.sections target =
      (target.preamble
        :: declarations (target.attributeSection program.registry)
        ++ declarations (target.interfaceSection program.registry)
        ++ declarations (target.bindingSection program.registry))
      ++ (program.code.helpers.map (fun helper => trimIndent helper.2)
        ++ [program.mainRoutine]) := by
    simp only [sections, List.append_assoc, List.cons_append]
  rw [source, hsections, String.intercalate_append_of_ne_nil (by simp) (by simp)]
  rfl

/-- The variable is declared before the routines of the source, on lines of its own. -/
def Declares (target : Target) (program : StageProgram) (storage : Storage) (var : Variable) : Prop :=
  ∃ item, OnLines item (program.globalText target) ∧ GlobalDeclaration var storage item

/-- A declaration of a section stands on lines of its own. -/
theorem onLines_globalText {target : Target} {program : StageProgram} {lines : List String}
    {item : String}
    (hlines : lines ∈ [target.attributeSection program.registry,
      target.interfaceSection program.registry, target.bindingSection program.registry])
    (hmem : item ∈ lines) : OnLines item (program.globalText target) := by
  refine (OnLines.of_mem_intercalate (.inl rfl) hmem).trans (.of_mem_intercalate (.inr rfl) ?_)
  have hsection : String.intercalate "\n" lines ∈ declarations lines := by
    rw [declarations, if_neg]
    · exact List.mem_singleton_self _
    · rw [List.isEmpty_iff]
      exact List.ne_nil_of_mem hmem
  simp only [List.mem_cons, List.not_mem_nil, or_false] at hlines
  rcases hlines with rfl | rfl | rfl <;> simp [hsection]

end StageProgram

/-! ## Registered Resources -/

/-- The variables that the declaration of a resource brings into scope, outputs apart. -/
def Resource.globals : Resource → List (Storage × Variable)
  | vertexAttribute a => [(.input, { name := a.name, ty := a.ty })]
  | input var => [(.input, var)]
  | block _ members => members.map (Prod.mk .uniform)
  | pushConstant name ty => [(.uniform, { name, ty })]
  | sampler name dim arrayLen => [(.uniform, { name, ty := .sampler dim, arrayLen })]
  | output _ | color _ => []

namespace StageProgram

variable {target : Target} {program : StageProgram}

theorem declares_attribute {bound : BoundAttribute} (hmem : bound ∈ program.registry.attributes) :
    program.Declares target .input { name := bound.name, ty := bound.ty } := by
  have hline : target.vertexInput bound ∈ target.attributeSection program.registry :=
    List.mem_map_of_mem hmem
  refine ⟨_, onLines_globalText (by simp) hline, ?_⟩
  have hdeclares : GlobalDeclaration { name := bound.name, ty := bound.ty } .input _ :=
    .input (some bound.location) false
  simpa [Target.vertexInput, Variable.declaration, String.append_assoc] using hdeclares

theorem declares_input {slot : InterfaceSlot} (hmem : slot ∈ program.registry.inputs) :
    program.Declares target .input slot.var := by
  -- Inputs are sorted by slot before they are declared.
  have hline : target.interfaceVariable slot .input ∈ target.interfaceSection program.registry :=
    List.mem_append_left _ (List.mem_append_left _
      (List.mem_map_of_mem (List.mem_mergeSort.2 hmem)))
  refine ⟨_, onLines_globalText (by simp) hline, ?_⟩
  cases target with
  | vulkan | opengl =>
    have hdeclares : GlobalDeclaration slot.var .input _ := .input (some slot.slot) slot.var.isFlat
    simpa [Target.interfaceVariable, Direction.keyword, String.append_assoc] using hdeclares
  | webgl2 =>
    have hdeclares : GlobalDeclaration slot.var .input _ := .input none slot.var.isFlat
    simpa [Target.interfaceVariable, Direction.keyword, String.append_assoc] using hdeclares

theorem declares_member {registered : RegisteredBlock} {member : Member}
    (htarget : target ≠ .vulkan) (hmem : registered ∈ program.registry.blocks)
    (hmember : member ∈ registered.block.layout.members) :
    program.Declares target .uniform member.toVariable := by
  have hline : target.uniformBlock registered.block ∈ target.bindingSection program.registry :=
    List.mem_append_left _ (List.mem_append_left _ (List.mem_map_of_mem hmem))
  refine ⟨_, onLines_globalText (by simp) hline, ?_⟩
  have hdeclares := GlobalDeclaration.member registered.block.name
    (registered.block.layout.members.map (·.toVariable)) (List.mem_map_of_mem hmember)
  rw [List.map_map] at hdeclares
  cases target with
  | vulkan => exact absurd rfl htarget
  | opengl | webgl2 => simpa [Target.uniformBlock, Function.comp_def] using hdeclares

theorem declares_pushConstant {constant : RegisteredPushConstant}
    (htarget : target ≠ .vulkan) (hmem : constant ∈ program.registry.pushConstants) :
    program.Declares target .uniform { name := constant.slot.name, ty := constant.slot.ty } := by
  let uniform (slot : PushConstantSlot) : String :=
    "uniform " ++ slot.ty.glsl ++ " " ++ slot.name ++ ";"
  have hconstants : target.pushConstants program.registry.stage.mask
      (program.registry.pushConstants.map (·.slot)) =
        String.intercalate "\n" ((program.registry.pushConstants.map (·.slot)).map uniform) := by
    cases target with
    | vulkan => exact absurd rfl htarget
    | opengl | webgl2 => rfl
  -- All push constants are one item of the section, with a line for each.
  have hitem : target.pushConstants program.registry.stage.mask
      (program.registry.pushConstants.map (·.slot)) ∈ target.bindingSection program.registry := by
    refine List.mem_append_left _ (List.mem_append_right _ ?_)
    rw [if_neg]
    · exact List.mem_singleton_self _
    · rw [List.isEmpty_iff]
      exact List.ne_nil_of_mem hmem
  have hline : OnLines (uniform constant.slot)
      (String.intercalate "\n" ((program.registry.pushConstants.map (·.slot)).map uniform)) :=
    .of_mem_intercalate (.inl rfl) (List.mem_map_of_mem (List.mem_map_of_mem hmem))
  rw [hconstants] at hitem
  refine ⟨_, hline.trans (onLines_globalText (by simp) hitem), ?_⟩
  have hdeclares :
      GlobalDeclaration { name := constant.slot.name, ty := constant.slot.ty } .uniform _ := .uniform
  simpa [uniform, Variable.declaration, String.append_assoc] using hdeclares

theorem declares_sampler {s : SamplerBinding} (htarget : target ≠ .vulkan)
    (hmem : s ∈ program.registry.samplers) :
    program.Declares target .uniform
      { name := s.name, ty := .sampler s.dim, arrayLen := s.arrayLen } := by
  have hline : target.sampler s ∈ target.bindingSection program.registry :=
    List.mem_append_right _ (List.mem_map_of_mem hmem)
  refine ⟨_, onLines_globalText (by simp) hline, ?_⟩
  cases target with
  | vulkan => exact absurd rfl htarget
  | opengl | webgl2 => exact .uniform

/-- What is registered is declared. -/
theorem declares_of_holds {resource : Resource} {storage : Storage} {var : Variable}
    (htarget : target ≠ .vulkan) (h : program.registry.Holds resource)
    (hmem : (storage, var) ∈ resource.globals) : program.Declares target storage var := by
  cases resource with
  | vertexAttribute a =>
    obtain ⟨bound, hbound, rfl⟩ := h
    cases List.mem_singleton.1 hmem
    exact declares_attribute hbound
  | output var => cases hmem
  | input var =>
    obtain ⟨slot, hslot, rfl⟩ := h
    cases List.mem_singleton.1 hmem
    exact declares_input hslot
  | color name => cases hmem
  | block name members =>
    obtain ⟨registered, hregistered, rfl, rfl⟩ := h
    obtain ⟨var, hvar, heq⟩ := List.mem_map.1 hmem
    obtain ⟨member, hmember, rfl⟩ := List.mem_map.1 hvar
    cases heq
    exact declares_member htarget hregistered hmember
  | pushConstant name ty =>
    obtain ⟨constant, hconstant, rfl, rfl⟩ := h
    cases List.mem_singleton.1 hmem
    exact declares_pushConstant htarget hconstant
  | sampler name dim arrayLen =>
    obtain ⟨s, hs, rfl, rfl, rfl⟩ := h
    cases List.mem_singleton.1 hmem
    exact declares_sampler htarget hs

end StageProgram

/-! ## Outputs of Nodes -/

theorem CameraNode.exists_member_of_output {id : NodeId} {label : String} {handle : Handle}
    (hmem : (label, handle) ∈ CameraNode.outputs id) :
    ∃ var ∈ CameraNode.block.members, handle = .uniform id var := by
  simp only [CameraNode.outputs, List.mem_cons, Prod.mk.injEq, List.not_mem_nil, or_false] at hmem
  rcases hmem with ⟨-, rfl⟩ | ⟨-, rfl⟩ | ⟨-, rfl⟩ | ⟨-, rfl⟩ <;> exact ⟨_, by decide, rfl⟩

theorem OcclusionUniforms.exists_member_of_output {u : OcclusionUniforms} {label : String}
    {handle : Handle} (hmem : (label, handle) ∈ u.outputs) :
    ∃ var ∈ members u.inverse, handle = .uniform u.node var := by
  have hhandles : u.outputs.map Prod.snd =
      ([kernelVar, projVar, noiseScaleVar, radiusVar, strengthVar, powerVar, biasVar, kernelRangeVar]
        ++ if u.inverse then [invProjVar] else []).map (.uniform u.node) := by
    obtain ⟨node, inverse⟩ := u
    cases inverse <;> rfl
  have hhandle : handle ∈ u.outputs.map Prod.snd := List.mem_map_of_mem hmem
  rw [hhandles] at hhandle
  obtain ⟨var, hvar, rfl⟩ := List.mem_map.1 hhandle
  -- The outputs name the inverse projection last, while the block has it second.
  have hmembers : ∀ inverse, ∀ v ∈ [kernelVar, projVar, noiseScaleVar, radiusVar, strengthVar, powerVar,
      biasVar, kernelRangeVar] ++ (if inverse then [invProjVar] else []), v ∈ members inverse := by
    decide
  exact ⟨var, hmembers u.inverse var hvar, rfl⟩

namespace LibraryNode

/-- The variable that an output of the node is declared as: push constants lose their length. -/
def declaredVariable (node : LibraryNode) (var : Variable) : Variable :=
  match node with
  | endpoint (.pushConstant _) => { var with arrayLen := none }
  | _ => var

/-- The node exposes a push constant that is an array. -/
def IsConstantArray : LibraryNode → Prop
  | endpoint (.pushConstant constant) => constant.var.arrayLen.isSome
  | _ => False

instance (node : LibraryNode) : Decidable node.IsConstantArray := by
  unfold IsConstantArray
  split <;> infer_instance

/-- An output that is declared outside the routines is registered by the node that offers it, unless the
node only passes an input on. -/
theorem exists_resource_of_output {id : NodeId} {node : LibraryNode} {label : String}
    {handle : Handle} {storage : Storage} (hmem : (label, handle) ∈ node.outputs id)
    (hinput : handle ∉ node.inputs) (hstorage : handle.value.kind.storage? = some storage) :
    ∃ resource ∈ node.resources,
      (storage, node.declaredVariable handle.value.toVariable) ∈ resource.globals := by
  cases node with
  | endpoint node =>
    obtain ⟨output, houtput, heq⟩ := Option.map_eq_some_iff.1 (Option.mem_toList.1 hmem)
    cases heq
    cases node <;> cases houtput <;> cases hstorage <;>
      exact ⟨_, List.mem_cons_self, List.mem_cons_self⟩
  | arithmetic node =>
    cases List.mem_singleton.1 hmem
    cases node <;> cases hstorage
  | camera =>
    obtain ⟨var, hvar, rfl⟩ := CameraNode.exists_member_of_output hmem
    cases hstorage
    exact ⟨_, List.mem_cons_self, List.mem_map_of_mem hvar⟩
  | texture node =>
    cases List.mem_singleton.1 hmem
    cases node <;> cases hstorage
    exact ⟨_, List.mem_cons_self, List.mem_cons_self⟩
  | light node =>
    have hcount (max : UInt32) :
        (Storage.uniform, LightArray.count) ∈ (LightArray.block max).resource.globals := by
      simp [BlockRequest.resource, Resource.globals, LightArray.block]
    cases node with
    | lights max =>
      cases List.mem_singleton.1 hmem
      cases hstorage
      exact ⟨_, List.mem_cons_self, hcount max⟩
    | shadowVertex max channel position matrix => cases hmem
    | shadowFragment max channel depthTextures =>
      rcases List.mem_pair.1 hmem with heq | heq <;> cases heq
      · cases hstorage
        exact ⟨_, List.mem_cons_self, hcount max⟩
      · exact absurd List.mem_cons_self hinput
    | lambert calls inner lightCount fragPos normal albedo =>
      cases List.mem_singleton.1 hmem
      cases hstorage
  | occlusion node =>
    cases node with
    | uniforms inverse settings =>
      obtain ⟨var, hvar, rfl⟩ := OcclusionUniforms.exists_member_of_output hmem
      cases hstorage
      exact ⟨_, List.mem_cons_self, List.mem_map_of_mem hvar⟩
    | unproject u depth screenPos =>
      cases List.mem_singleton.1 hmem
      cases hstorage
    | occlusion u component noiseTex depthTex screenPos origin normal =>
      cases List.mem_singleton.1 hmem
      cases hstorage

/-- Only a push constant with a length is declared as something else than its handle says. -/
theorem declaredVariable_eq_iff {id : NodeId} {node : LibraryNode} {label : String} {handle : Handle}
    (hmem : (label, handle) ∈ node.outputs id) :
    node.declaredVariable handle.value.toVariable = handle.value.toVariable ↔
      ¬ node.IsConstantArray := by
  unfold declaredVariable IsConstantArray
  split
  · rename_i constant
    cases List.mem_singleton.1 hmem
    change { constant.var with arrayLen := none } = constant.var ↔ _
    constructor
    · intro heq
      rw [← heq]
      simp
    · intro hlen
      rw [← Option.not_isSome_iff_eq_none.1 hlen]
  · simp

end LibraryNode

/-! ## Compiled Models -/

section Compile

variable {name : String} {graph : Stage → Nat} {nodes : Stage → List LibraryNode}
  {input : CompileInput} {shader : Shader} {stage : Stage} {index : Nat} {node : LibraryNode}
  {handle : Handle}

/-- A node of a compiled model owns none of its inputs: it would have to come before itself. -/
theorem not_mem_inputs_of_owner
    (h : ((libraryModel name graph nodes).compile input).outcome = .ok shader)
    (hnode : (nodes stage)[index]? = some node)
    (howner : handle.owner = some { stage, graph := graph stage, index }) : handle ∉ node.inputs := by
  intro hinput
  obtain ⟨p, finish, hperformed, -, -⟩ := exists_setupSteps_of_compile h stage
  have hschedule := schedule_of_performed hperformed
  obtain ⟨before, after, hsplit⟩ := List.append_of_mem (mem_order_of_getElem? hschedule hnode)
  rw [hsplit] at hschedule
  obtain ⟨earlier, hearlier, heq⟩ := owner_before hschedule hnode hinput howner
  have hnodup := (StageGraph.schedule_perm hschedule).nodup_iff.2 List.nodup_range
  obtain rfl : index = earlier := congrArg NodeId.index heq
  exact List.disjoint_of_nodup_append hnodup hearlier List.mem_cons_self

/-- Handles and declarations. In every model of library nodes that compiles, take an output of a node
that the node owns and that is a uniform or an input of its stage. Where the target has no push
constants, the source of the stage declares it before all routines, with the name, the type and the
length of the handle; only a push constant with a length is declared without it. -/
theorem output_handles_declared
    (h : ((libraryModel name graph nodes).compile input).outcome = .ok shader)
    (htarget : input.target ≠ .vulkan) (hnode : (nodes stage)[index]? = some node)
    {label : String} (hmem : (label, handle) ∈ node.outputs { stage, graph := graph stage, index })
    (howner : handle.owner = some { stage, graph := graph stage, index }) {storage : Storage}
    (hstorage : handle.value.kind.storage? = some storage) :
    shader.source stage.mask = (shader.program stage).globalText input.target ++ "\n\n"
        ++ (shader.program stage).routineText ++ "\n" ∧
      (shader.program stage).Declares input.target storage
        (node.declaredVariable handle.value.toVariable) ∧
      (node.declaredVariable handle.value.toVariable = handle.value.toVariable ↔
        ¬ node.IsConstantArray) := by
  refine ⟨?_, ?_, LibraryNode.declaredVariable_eq_iff hmem⟩
  · have hsource : shader.source stage.mask = (shader.program stage).source input.target := by
      rw [← target_of_compile h]
      cases stage <;> rfl
    rw [hsource, StageProgram.source_eq_globalText]
  · have hinput := not_mem_inputs_of_owner h hnode howner
    obtain ⟨resource, hresource, hglobal⟩ :=
      LibraryNode.exists_resource_of_output hmem hinput hstorage
    have hholds : (shader.program stage).registry.Holds resource :=
      (resources_of_compile h stage resource).2 ⟨node, List.mem_of_getElem? hnode, hresource⟩
    exact StageProgram.declares_of_holds htarget hholds hglobal

end Compile

/-- Handles of every kind that the nodes of the library offer: an attribute; then an interface input of
integers, the number of lights, textures as an array, a push constant without a length, and a uniform of
ambient occlusion. -/
def handlesOfAllKinds : Stage → List LibraryNode
  | .vertex =>
    [.endpoint (.meshAttribute { name := "joints", ty := .ivec4 }),
      .endpoint (.producer { id := 0, var := { name := "ifJoints", ty := .ivec4 } }
        (.stageInput { stage := .vertex, graph := 0, index := 0 }
          { name := "joints", ty := .ivec4 }))]
  | .fragment =>
    [.endpoint (.consumer { id := 0, var := { name := "ifJoints", ty := .ivec4 } }
        { name := "ifJoints", ty := .ivec4 }),
      .light (.lights 2), .texture (.binding "tLayers" (some 2)),
      .endpoint (.pushConstant { var := { name := "uTint", ty := .vec4 }, cell := 0 }),
      .occlusion (.uniforms true 0)]

/-- They are declared as they are. -/
theorem handlesOfAllKinds_declared :
    ∃ shader, ((libraryModel "handles" (graphsFrom 0) handlesOfAllKinds).compile
        { target := .webgl2 }).outcome = .ok shader ∧
      shader.vertex.Declares .webgl2 .input { name := "joints", ty := .ivec4 } ∧
      shader.fragment.Declares .webgl2 .input { name := "ifJoints", ty := .ivec4 } ∧
      shader.fragment.Declares .webgl2 .uniform LightArray.count ∧
      shader.fragment.Declares .webgl2 .uniform
        { name := "tLayers", ty := .sampler .tex2d, arrayLen := some 2 } ∧
      shader.fragment.Declares .webgl2 .uniform { name := "uTint", ty := .vec4 } ∧
      shader.fragment.Declares .webgl2 .uniform OcclusionUniforms.kernelVar := by
  have hcompiles : ((libraryModel "handles" (graphsFrom 0) handlesOfAllKinds).compile
      { target := .webgl2 }).outcome.toOption.map (fun _ => ()) = some () := by
    decide +kernel
  obtain ⟨shader, hshader, -⟩ := exists_ok_of_map_eq hcompiles
  have htarget : Target.webgl2 ≠ .vulkan := by decide
  have hattribute : (handlesOfAllKinds .vertex)[0]? = some _ := rfl
  have hinput : (handlesOfAllKinds .fragment)[0]? = some _ := rfl
  have hlights : (handlesOfAllKinds .fragment)[1]? = some _ := rfl
  have htextures : (handlesOfAllKinds .fragment)[2]? = some _ := rfl
  have hconstant : (handlesOfAllKinds .fragment)[3]? = some _ := rfl
  have huniforms : (handlesOfAllKinds .fragment)[4]? = some _ := rfl
  exact ⟨shader, hshader,
    (output_handles_declared hshader htarget hattribute List.mem_cons_self rfl rfl).2.1,
    (output_handles_declared hshader htarget hinput List.mem_cons_self rfl rfl).2.1,
    (output_handles_declared hshader htarget hlights List.mem_cons_self rfl rfl).2.1,
    (output_handles_declared hshader htarget htextures List.mem_cons_self rfl rfl).2.1,
    (output_handles_declared hshader htarget hconstant List.mem_cons_self rfl rfl).2.1,
    (output_handles_declared hshader htarget huniforms List.mem_cons_self rfl rfl).2.1⟩

/-- A push constant that is an array. -/
def weightConstants : Stage → List LibraryNode
  | .vertex => []
  | .fragment =>
    [.endpoint (.pushConstant
      { var := { name := "uWeights", ty := .float, arrayLen := some 4 }, cell := 0 })]

/-- The model compiles, and its node offers a handle of four weights. The source declares one weight, and
no declaration of four stands before its routines. -/
theorem weightConstants_declared_without_length :
    ∃ shader, ((libraryModel "weights" (graphsFrom 0) weightConstants).compile
        { target := .opengl }).outcome = .ok shader ∧
      (∀ node ∈ weightConstants .fragment,
        node.outputs { stage := .fragment, graph := 1, index := 0 } =
          [("output", .uniform { stage := .fragment, graph := 1, index := 0 }
            { name := "uWeights", ty := .float, arrayLen := some 4 })]) ∧
      shader.source .fragment =
        "#version 410 core\n\nuniform float uWeights;\n\nvoid main() \x7b\n\x7d\n" ∧
      ¬ shader.fragment.Declares .opengl .uniform
        { name := "uWeights", ty := .float, arrayLen := some 4 } := by
  have hcompiles : ((libraryModel "weights" (graphsFrom 0) weightConstants).compile
      { target := .opengl }).outcome.toOption.map
      (fun shader => (shader.source .fragment, shader.fragment.globalText .opengl)) =
        some ("#version 410 core\n\nuniform float uWeights;\n\nvoid main() \x7b\n\x7d\n",
          "#version 410 core\n\nuniform float uWeights;") := by
    decide +kernel
  obtain ⟨shader, hshader, htexts⟩ := exists_ok_of_map_eq hcompiles
  obtain ⟨hsource, hglobal⟩ := Prod.mk.inj htexts
  refine ⟨shader, hshader, by decide, hsource, ?_⟩
  rintro ⟨item, hitem, hdeclares⟩
  -- A declaration with a length would bring a bracket into the text.
  rw [hglobal] at hitem
  have hbracket : '[' ∈ (Variable.declaration
      { name := "uWeights", ty := .float, arrayLen := some 4 }).toList := by
    decide
  exact absurd (hitem.subset (hdeclares.subset hbracket)) (by decide)

end ShaderWeave
