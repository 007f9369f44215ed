import ShaderWeave.Model.Manifest
import ShaderWeave.Proofs.CodeContents
import ShaderWeave.Proofs.GlobalIdentifiers
import ShaderWeave.Proofs.Indentation
import ShaderWeave.Proofs.PipelineLayout
import ShaderWeave.Proofs.PrintedDeclarations
import ShaderWeave.Proofs.StageInterface
import ShaderWeave.Proofs.Std140

/-!
# The Manifest Can Be Read off the Sources

What a compiled shader says about its attributes, interface, blocks, push constants and samplers is what
its two sources for the target with explicit bindings declare: reading the declarations back gives the
same lists, and the std140 rules give the places of the members of blocks.

## Main definitions

* `IsIdentifier`: a name of the shading language.
* `IdentifierNames`: the names that nodes give to what they register are identifiers.
* `Source.Facts.ofShader`: what a compiled shader says about a model.
* `Source.Facts.manifest`: the manifest that declarations and layouts of blocks give.

## Main results

* `readDeclarations_source`: the declarations of a stage are read back from its source.
* `sources_determine_manifest`: the manifest of a compiled shader is read back from its sources.
-/

namespace ShaderWeave

open Source

/-- A block as its declaration shows it. -/
def Source.DeclaredBlock.ofRegistered (registered : RegisteredBlock) : DeclaredBlock where
  name := registered.block.name
  stage := registered.block.stage
  binding := registered.block.binding
  members := registered.block.layout.members.map (·.toVariable)

/-- A push constant as its declaration shows it. -/
def Source.DeclaredConstant.ofRegistered (constant : RegisteredPushConstant) : DeclaredConstant where
  name := constant.slot.name
  stage := constant.slot.stage
  ty := constant.slot.ty
  offset := constant.slot.offset

/-! ## What Is Read of a Stage -/

theorem locatedIn_input_declared (r : Registry) : locatedIn .input (declared r) =
    r.attributes.map (fun a => { slot := a.location, var := { name := a.name, ty := a.ty } })
      ++ r.inputs.mergeSort (·.slot ≤ ·.slot) := by
  unfold locatedIn declared
  split <;>
    simp [List.filterMap_map, samplerDeclarations, List.filterMap_flatMap, Function.comp_def]

theorem locatedIn_output_declared (r : Registry) : locatedIn .output (declared r) =
    r.outputs ++ r.colorOutputs.map fun color =>
      { slot := color.location, var := { name := color.name, ty := .vec4 } } := by
  unfold locatedIn declared
  split <;>
    simp [List.filterMap_map, samplerDeclarations, List.filterMap_flatMap, Function.comp_def]

theorem blocksOf_declared (stage : Stage) (r : Registry) : blocksOf stage (declared r) =
    r.blocks.map fun registered =>
      { name := registered.block.name, stage, binding := registered.block.binding,
        members := registered.block.layout.members.map (·.toVariable) } := by
  unfold blocksOf declared
  split <;>
    simp [List.filterMap_map, samplerDeclarations, List.filterMap_flatMap, Function.comp_def]

theorem constantsOf_declared (stage : Stage) (r : Registry) : constantsOf stage (declared r) =
    r.pushConstants.map fun constant =>
      { name := constant.slot.name, stage, ty := constant.slot.ty,
        offset := constant.slot.offset } := by
  have hnone {β : Type} (list : List β) : list.flatMap (fun _ => ([] : List DeclaredConstant)) = [] :=
    List.flatMap_eq_nil_iff.2 fun _ _ => rfl
  unfold constantsOf declared
  split
  · rename_i hempty
    simp [List.flatMap_map, samplerDeclarations, List.flatMap_assoc, hnone,
      List.isEmpty_iff.1 hempty]
  · simp [List.flatMap_map, samplerDeclarations, List.flatMap_assoc, hnone, Function.comp_def]

/-- Declarations of other things are passed over. -/
theorem samplersFrom?_append {stage : Stage} {textures : List TextureObject}
    {others rest : List Declaration}
    (hothers : ∀ d ∈ others, (∀ binding dim name, d ≠ .texture binding dim name) ∧
      ∀ binding name, d ≠ .sampler binding name) :
    samplersFrom? stage textures (others ++ rest) = samplersFrom? stage textures rest := by
  induction others with
  | nil => rfl
  | cons d others ih =>
    obtain ⟨htexture, hsampler⟩ := hothers d List.mem_cons_self
    have hrest := ih fun other hother => hothers other (List.mem_cons_of_mem d hother)
    cases d with
    | texture binding dim name => exact absurd rfl (htexture binding dim name)
    | sampler binding name => exact absurd rfl (hsampler binding name)
    | located | block | pushConstants => exact hrest

theorem samplersFrom?_declared {stage : Stage} {r : Registry}
    (h : ∀ s ∈ r.samplers, s.stage = stage ∧ SamplerFollows s ∧
      (s.arrayLen = some 0 → s.dim = .tex2d)) :
    samplersFrom? stage [] (declared r) = some r.samplers := by
  unfold declared
  rw [samplersFrom?_append, samplersFrom?_samplers h]
  intro d hd
  split at hd <;> simp only [List.mem_append, List.mem_map, List.mem_singleton, List.not_mem_nil,
    or_false] at hd
  · rcases hd with (((⟨_, -, rfl⟩ | ⟨_, -, rfl⟩) | ⟨_, -, rfl⟩) | ⟨_, -, rfl⟩) | ⟨_, -, rfl⟩ <;> simp
  · rcases hd with ((((⟨_, -, rfl⟩ | ⟨_, -, rfl⟩) | ⟨_, -, rfl⟩) | ⟨_, -, rfl⟩) | ⟨_, -, rfl⟩) | rfl <;>
      simp

/-! ## What Is Read of a Source -/

/-- Whether tokens begin like a routine. -/
def startsRoutine : List Token → Bool
  | .word _ :: .word _ :: .symbol '(' :: _ => true
  | _ => false

/-- The first statement of a routine begins like it, however far it goes. -/
theorem exists_statement_of_startsRoutine {tokens : List Token} (h : startsRoutine tokens = true) :
    ∃ kind name body others,
      statements tokens = (.word kind :: .word name :: .symbol '(' :: body) :: others := by
  unfold startsRoutine at h
  split at h
  · rename_i kind name more
    have hflat : Flat [.word kind, .word name, .symbol '('] := by
      intro token hmem
      simp only [List.mem_cons, List.not_mem_nil, or_false] at hmem
      rcases hmem with rfl | rfl | rfl <;> simp
    have hcut : statements (.word kind :: .word name :: .symbol '(' :: more) =
        cut 0 [.word kind, .word name, .symbol '('] more := cut_flat hflat
    obtain ⟨body, others, hbody⟩ : ∃ body others, cut 0 [.word kind, .word name, .symbol '('] more =
        ([.word kind, .word name, .symbol '('] ++ body) :: others := cut_eq_cons (by simp)
    exact ⟨kind, name, body, others, hcut.trans hbody⟩
  · cases h

/-- Nothing is read of a routine. -/
theorem readWhile_routine {tokens : List Token} (h : startsRoutine tokens = true) :
    readWhile declaration (statements tokens) = [] := by
  obtain ⟨kind, name, body, others, hstatements⟩ := exists_statement_of_startsRoutine h
  rw [hstatements]
  rfl

theorem lex_declarations (lines : List String) :
    (StageProgram.declarations lines).flatMap lex = lines.flatMap lex := by
  unfold StageProgram.declarations
  split
  · rename_i hempty
    rw [List.isEmpty_iff.1 hempty]
  · rw [List.flatMap_singleton, lex_intercalate (by decide) (by decide) (by decide) (by decide)]

/-- The declarations of a source come after the version, and the routines after them. -/
theorem lex_source (target : Target) (program : StageProgram) :
    lex (program.source target) = lex target.preamble
      ++ ((target.attributeSection program.registry ++ target.interfaceSection program.registry
          ++ target.bindingSection program.registry).flatMap lex
        ++ (program.code.helpers.flatMap (fun helper => lex (trimIndent helper.2))
          ++ lex program.mainRoutine)) := by
  have hend : startsApart "\n" = true := by decide
  unfold StageProgram.source StageProgram.sections
  -- An empty line parts the sections, so that no word runs from one into the next.
  rw [lex_append (.inr hend), lex_intercalate (by decide) (by decide) (by decide) (by decide)]
  simp only [List.flatMap_append, List.flatMap_cons, List.flatMap_nil, List.flatMap_map,
    lex_declarations, List.append_assoc]
  rw [show lex "\n" = [] by decide]
  simp

theorem startsRoutine_append {tokens more : List Token} (h : startsRoutine tokens = true) :
    startsRoutine (tokens ++ more) = true := by
  unfold startsRoutine at h
  split at h
  · rfl
  · cases h

theorem startsRoutine_mainRoutine (program : StageProgram) :
    startsRoutine (lex program.mainRoutine) = true := by
  have hhead : endsApart "void main() \x7b\n" = true := by decide
  unfold StageProgram.mainRoutine
  rw [String.append_assoc, lex_append (.inl hhead)]
  exact startsRoutine_append (by decide)

/-- Cutting indentation off keeps the first line of a routine. -/
theorem startsRoutine_trimIndent {first : String} {line : List Char}
    (hfirst : first = String.ofList line) (htight : Text.Tight line)
    (hends : line.getLast?.all (!isWordChar ·) = true)
    (hroutine : startsRoutine (lexFrom [] line) = true) (rest : String) :
    startsRoutine (lex (trimIndent (first ++ "\n" ++ rest))) = true := by
  obtain ⟨more, hmore⟩ :=
    Text.trimIndent_of_tight (Text.of_ofList hfirst htight) rest.toList
  have htext : trimIndent (first ++ "\n" ++ rest) = first ++ String.ofList more := by
    unfold trimIndent
    rw [String.append_assoc, String.toList_append, String.toList_append]
    have hfeed : first.toList ++ ("\n".toList ++ rest.toList) = first.toList ++ '\n' :: rest.toList :=
      rfl
    rw [hfeed, hmore, String.ofList_append, String.ofList_toList]
  have hapart : endsApart first = true :=
    Text.of_ofList (P := (·.getLast?.all (!isWordChar ·) = true)) hfirst hends
  rw [htext, lex_append (.inl hapart)]
  exact startsRoutine_append
    (Text.of_ofList (P := fun chars => startsRoutine (lexFrom [] chars) = true) hfirst hroutine)

/-- What comes first after the declarations of a source is a routine. -/
theorem startsRoutine_routines {program : StageProgram}
    (hhelpers : ∀ helper ∈ program.code.helpers, startsRoutine (lex (trimIndent helper.2)) = true) :
    startsRoutine (program.code.helpers.flatMap (fun helper => lex (trimIndent helper.2))
      ++ lex program.mainRoutine) = true := by
  cases hcode : program.code.helpers with
  | nil => exact startsRoutine_mainRoutine program
  | cons helper rest =>
    rw [hcode] at hhelpers
    rw [List.flatMap_cons, List.append_assoc]
    exact startsRoutine_append (hhelpers helper List.mem_cons_self)

/-- The declarations of a stage are read back from its source. -/
theorem readDeclarations_source {program : StageProgram} (hnames : WordNames program.registry)
    (hfollows : ∀ s ∈ program.registry.samplers, SamplerFollows s)
    (hhelpers : ∀ helper ∈ program.code.helpers, startsRoutine (lex (trimIndent helper.2)) = true) :
    readDeclarations (program.source .vulkan) = some (declared program.registry) := by
  have hversion : Reads Target.vulkan.preamble (phrase "#version 450") () := reads_phrase rfl
  rw [readDeclarations, lex_source, hversion, Option.map_some]
  simp only
  rw [(lists_declared hnames hfollows).readWhile_append,
    readWhile_routine (startsRoutine_routines hhelpers), List.append_nil]

/-! ## What Is Kept About Resources -/

/-- What a stage has registered is marked with the stage, and blocks are laid out by the rules. -/
structure OwnResources (stage : Stage) (r : Registry) : Prop where
  /-- The stage that registers. -/
  stage_eq : r.stage = stage
  /-- Blocks. -/
  blocks : ∀ registered ∈ r.blocks, registered.block.stage = stage ∧
    BlockLayout.std140? (registered.block.layout.members.map (·.toVariable)) =
      some registered.block.layout
  /-- Push constants. -/
  pushConstants : ∀ constant ∈ r.pushConstants, constant.slot.stage = stage
  /-- Samplers. -/
  samplers : ∀ s ∈ r.samplers, s.stage = stage

theorem Registration.ownResources {stage : Stage} {r r' : Registry} (h : Registration r r')
    (hr : OwnResources stage r) : OwnResources stage r' := by
  obtain ⟨hstage, hblocks, hconstants, hsamplers⟩ := hr
  cases h with
  | block name members update layout nextBinding hname hmembers hlayout hnext =>
    refine ⟨hstage, fun registered hmem => ?_, hconstants, hsamplers⟩
    rcases List.mem_append.1 hmem with hmem | hmem
    · exact hblocks registered hmem
    · rw [List.mem_singleton.1 hmem]
      refine ⟨hstage, ?_⟩
      rw [members_of_std140? hlayout]
      exact hlayout
  | pushConstant constant align size offset finish hname hty hextent =>
    refine ⟨hstage, hblocks, fun registered hmem => ?_, hsamplers⟩
    rcases List.mem_append.1 hmem with hmem | hmem
    · exact hconstants registered hmem
    · rw [List.mem_singleton.1 hmem]
      exact hstage
  | sampler name dim arrayLen samplerBinding nextBinding hname hbindings =>
    refine ⟨hstage, hblocks, hconstants, fun s hmem => ?_⟩
    rcases List.mem_append.1 hmem with hmem | hmem
    · exact hsamplers s hmem
    · rw [List.mem_singleton.1 hmem]
      exact hstage
  | output | channel | input | vertexAttribute | colorOutput =>
    exact ⟨hstage, hblocks, hconstants, hsamplers⟩

theorem ownResources_of_compile {m : Model} {input : CompileInput} {shader : Shader}
    (h : (m.compile input).outcome = .ok shader) (stage : Stage) :
    OwnResources stage (shader.program stage).registry := by
  obtain ⟨_, _, _, hregistrations⟩ := registrations_of_compile h stage
  refine hregistrations.keep (fun _ _ hstep => hstep.ownResources) ⟨rfl, ?_, ?_, ?_⟩ <;>
    exact fun _ hmem => absurd hmem List.not_mem_nil

theorem OwnResources.blocksOf {stage : Stage} {r : Registry} (h : OwnResources stage r) :
    blocksOf stage (declared r) = r.blocks.map .ofRegistered := by
  rw [blocksOf_declared]
  refine List.map_congr_left fun registered hmem => ?_
  rw [DeclaredBlock.ofRegistered, (h.blocks registered hmem).1]

theorem OwnResources.constantsOf {stage : Stage} {r : Registry} (h : OwnResources stage r) :
    constantsOf stage (declared r) = r.pushConstants.map .ofRegistered := by
  rw [constantsOf_declared]
  refine List.map_congr_left fun constant hmem => ?_
  rw [DeclaredConstant.ofRegistered, h.pushConstants constant hmem]

theorem samplerFollows_of_compile {m : Model} {input : CompileInput} {shader : Shader}
    (h : (m.compile input).outcome = .ok shader) {stage : Stage} :
    ∀ s ∈ (shader.program stage).registry.samplers, SamplerFollows s := by
  obtain ⟨nextBinding, _, _, hregistrations⟩ := registrations_of_compile h stage
  have hbindings : WellFormedBindings nextBinding.toNat (shader.program stage).registry :=
    hregistrations.keep (fun _ _ hstep => hstep.wellFormedBindings)
      (wellFormedBindings_of_empty rfl rfl rfl rfl)
  exact hbindings.samplers

/-! ## Compiled Models -/

/-- A name of the shading language: letters, digits and underscores, and no digit to begin with. -/
def IsIdentifier (text : String) : Prop :=
  IsWord text ∧ ∀ c ∈ text.toList.head?, c.isDigit = false

instance (text : String) : Decidable (IsIdentifier text) :=
  decidable_of_iff (IsWord text ∧ text.toList.head?.all (!·.isDigit) = true) (by
    simp [IsIdentifier, Option.all_eq_true])

/-- The name that a node gives to a resource. Uniform blocks have names of their own. -/
def Resource.givenName? : Resource → Option String
  | vertexAttribute a => some a.name
  | output var => some var.name
  | input var => some var.name
  | color name => some name
  | block _ _ => none
  | pushConstant name _ => some name
  | sampler name _ _ => some name

/-- The names that nodes give to what they register are identifiers. -/
def IdentifierNames (nodes : Stage → List LibraryNode) : Prop :=
  ∀ stage, ∀ node ∈ nodes stage, ∀ resource ∈ node.resources, ∀ name ∈ resource.givenName?,
    IsIdentifier name

section Compile

variable {name : String} {graph : Stage → Nat} {nodes : Stage → List LibraryNode}
  {input : CompileInput} {shader : Shader}

theorem LibraryBlock.wordNames (block : LibraryBlock) :
    IsWord block.name ∧ ∀ member ∈ block.memberNames, IsWord member := by
  have hall : ∀ block ∈ all, IsWord block.name ∧ ∀ member ∈ block.memberNames, IsWord member := by
    decide +kernel
  exact hall block block.mem_all

/-- In a compiled stage, names are words if those that nodes give are identifiers. -/
theorem wordNames_of_compile (hnames : IdentifierNames nodes)
    (h : ((libraryModel name graph nodes).compile input).outcome = .ok shader) (stage : Stage) :
    WordNames (shader.program stage).registry := by
  have hgiven (resource : Resource) (hholds : (shader.program stage).registry.Holds resource)
      (given : String) (hname : given ∈ resource.givenName?) : IsWord given := by
    obtain ⟨node, hnode, hresource⟩ := (resources_of_compile h stage resource).1 hholds
    exact (hnames stage node hnode resource hresource given hname).1
  constructor
  · exact fun a ha => hgiven (.vertexAttribute a.toAttribute) ⟨a, ha, rfl⟩ _ rfl
  · exact fun input hinput => hgiven (.input input.var) ⟨input, hinput, rfl⟩ _ rfl
  · exact fun output houtput => hgiven (.output output.var) ⟨output, houtput, rfl⟩ _ rfl
  · exact fun color hcolor => hgiven (.color color.name) ⟨color, hcolor, rfl⟩ _ rfl
  · -- Blocks and their members have names that no node chooses.
    intro registered hmem
    obtain ⟨-, -, block, -, hblock, hmembers⟩ := exists_libraryBlock h hmem
    obtain ⟨hword, hwords⟩ := block.wordNames
    rw [hblock]
    refine ⟨hword, fun member hmember => hwords member.name ?_⟩
    rw [← hmembers]
    exact List.mem_map_of_mem hmember
  · exact fun constant hconstant =>
      hgiven (.pushConstant constant.slot.name constant.slot.ty) ⟨constant, hconstant, rfl, rfl⟩ _ rfl
  · exact fun s hs => hgiven (.sampler s.name s.dim s.arrayLen) ⟨s, hs, rfl, rfl, rfl⟩ _ rfl

theorem startsRoutine_premultiplyAlpha :
    startsRoutine (lex (trimIndent TextureNode.premultiplyAlpha)) = true := by
  have hfirst : "vec4 premultiplyAlpha(vec4 color) \x7b\n" =
      "vec4 premultiplyAlpha(vec4 color) \x7b" ++ "\n" := by decide +kernel
  have htext : TextureNode.premultiplyAlpha = "vec4 premultiplyAlpha(vec4 color) \x7b" ++ "\n"
      ++ ("    return vec4(color.rgb * color.a, color.a);\n" ++ "\x7d") := by
    rw [← hfirst, ← String.append_assoc]
    rfl
  rw [htext]
  exact startsRoutine_trimIndent rfl (by decide) (by decide) (by decide) _

theorem startsRoutine_fragToLight :
    startsRoutine (lex (trimIndent LightArray.fragToLightBody)) = true := by
  rw [LightArray.fragToLightBody, String.intercalate_cons_cons]
  exact startsRoutine_trimIndent rfl (by decide) (by decide) (by decide) _

theorem startsRoutine_radiance :
    startsRoutine (lex (trimIndent LightArray.radianceBody)) = true := by
  rw [LightArray.radianceBody, String.intercalate_cons_cons]
  exact startsRoutine_trimIndent rfl (by decide) (by decide) (by decide) _

/-- The helper routines of the library are routines. -/
theorem LibraryNode.startsRoutine_helpers {node : LibraryNode} {helper : String × String}
    (h : helper ∈ node.helpers) : startsRoutine (lex (trimIndent helper.2)) = true := by
  have hmem : helper ∈ ("premultiplyAlpha", TextureNode.premultiplyAlpha) :: LightArray.routines := by
    unfold LibraryNode.helpers TextureNode.helpers LightNode.helpers at h
    split at h
    · split at h
      · exact List.mem_append_left _ h
      · cases h
    · split at h
      · exact List.mem_cons_of_mem _ h
      · exact List.mem_cons_of_mem _ h
      · cases h
    · cases h
  rw [LightArray.routines, List.mem_cons, List.mem_cons, List.mem_singleton] at hmem
  rcases hmem with rfl | rfl | rfl
  · exact startsRoutine_premultiplyAlpha
  · exact startsRoutine_fragToLight
  · exact startsRoutine_radiance

/-- The declarations of a compiled stage are read back from its source. -/
theorem readDeclarations_of_compile (hnames : IdentifierNames nodes)
    (h : ((libraryModel name graph nodes).compile input).outcome = .ok shader) (stage : Stage) :
    readDeclarations ((shader.program stage).source .vulkan) =
      some (declared (shader.program stage).registry) := by
  refine readDeclarations_source (wordNames_of_compile hnames h stage)
    (samplerFollows_of_compile h) fun helper hmem => ?_
  obtain ⟨node, -, hhelper⟩ := helpers_of_compile h hmem
  exact node.startsRoutine_helpers hhelper

/-- The samplers of a compiled stage are put together from its declarations. -/
theorem samplersFrom?_of_compile
    (h : ((libraryModel name graph nodes).compile input).outcome = .ok shader) (stage : Stage) :
    samplersFrom? stage [] (declared (shader.program stage).registry) =
      some (shader.program stage).registry.samplers := by
  refine samplersFrom?_declared fun s hs => ?_
  refine ⟨(ownResources_of_compile h stage).samplers s hs, samplerFollows_of_compile h s hs, fun _ => ?_⟩
  -- The declaration of an empty array does not show its dimension, but the library has one only.
  have hholds : (shader.program stage).registry.Holds (.sampler s.name s.dim s.arrayLen) :=
    ⟨s, hs, rfl, rfl, rfl⟩
  obtain ⟨node, -, hresource⟩ := (resources_of_compile h stage _).1 hholds
  exact (eq_binding_of_sampler_mem hresource).2

/-- The vertex stage has neither interface inputs nor color outputs. -/
theorem vertex_of_compile
    (h : ((libraryModel name graph nodes).compile input).outcome = .ok shader) :
    shader.vertex.registry.inputs = [] ∧ shader.vertex.registry.colorOutputs = [] := by
  have hbelongs {resource : Resource} (hholds : shader.vertex.registry.Holds resource) :
      resource.Belongs .vertex := belongs_of_compile h hholds
  constructor
  · refine List.eq_nil_iff_forall_not_mem.2 fun input hinput => ?_
    have hinput : Resource.Belongs .vertex (.input input.var) := hbelongs ⟨input, hinput, rfl⟩
    cases hinput
  · refine List.eq_nil_iff_forall_not_mem.2 fun color hcolor => ?_
    have hcolor : Resource.Belongs .vertex (.color color.name) := hbelongs ⟨color, hcolor, rfl⟩
    cases hcolor

end Compile

/-! ## The Manifest -/

/-- A declared block with the layout of its members. -/
def Source.DeclaredBlock.laidOut (block : DeclaredBlock) (layout : BlockLayout) : UniformBlock where
  name := block.name
  stage := block.stage
  binding := block.binding
  layout := layout

/-- A declared push constant with the size of its type. -/
def Source.DeclaredConstant.slot (constant : DeclaredConstant) : PushConstantSlot where
  name := constant.name
  stage := constant.stage
  ty := constant.ty
  offset := constant.offset
  size := (constant.ty.std430.map Prod.snd).getD 0

/-- The push constants of a model with their sizes. -/
def Source.Facts.slots (facts : Facts) : List PushConstantSlot :=
  facts.pushConstants.map (·.slot)

/-- The manifest of a model by its declarations and the layouts of its blocks. -/
def Source.Facts.manifest (facts : Facts) (name : String) (layouts : List BlockLayout) : Json :=
  .record [
    ("name", .str name),
    ("backend", .str Target.vulkan.label),
    ("attributes", .array (facts.attributes.map (·.toJson))),
    ("interface", .array (facts.interface.map (·.toJson))),
    ("interface_slot_count", .word (.ofNat (facts.interface.map (·.var.locations)).sum)),
    ("bindings", .record [
      ("uniform_blocks", .array (List.zipWith (fun block layout => (block.laidOut layout).toJson)
        facts.blocks layouts)),
      ("push_constants", .array (facts.slots.map (·.toJson))),
      ("push_constant_size", .word (.ofNat (pushConstantEnd facts.slots))),
      ("samplers", .array (facts.samplers.map (·.toJson)))])]

/-- What a compiled shader says about a model. -/
def Source.Facts.ofShader (shader : Shader) : Facts where
  attributes := shader.attributes
  interface := shader.interface
  blocks := shader.blocks.map .ofRegistered
  pushConstants := shader.pushConstants.map .ofRegistered
  samplers := shader.samplers

section Compile

variable {m : Model} {name : String} {graph : Stage → Nat} {nodes : Stage → List LibraryNode}
  {input : CompileInput} {shader : Shader}

/-- Reading both sources back gives what the shader says. -/
theorem readSources_of_compile (hnames : IdentifierNames nodes)
    (h : ((libraryModel name graph nodes).compile input).outcome = .ok shader)
    (htarget : shader.target = .vulkan) :
    readSources (shader.source .vertex) (shader.source .fragment) =
      some (.ofShader shader) := by
  have hvertex : OwnResources .vertex shader.vertex.registry := ownResources_of_compile h .vertex
  have hfragment : OwnResources .fragment shader.fragment.registry :=
    ownResources_of_compile h .fragment
  have hvertexRead : readDeclarations (shader.source .vertex) =
      some (declared shader.vertex.registry) := by
    rw [shader.source_vertex, htarget]
    exact readDeclarations_of_compile hnames h .vertex
  have hfragmentRead : readDeclarations (shader.source .fragment) =
      some (declared shader.fragment.registry) := by
    rw [shader.source_fragment, htarget]
    exact readDeclarations_of_compile hnames h .fragment
  have hvertexSamplers : samplersFrom? .vertex [] (declared shader.vertex.registry) =
      some shader.vertex.registry.samplers := samplersFrom?_of_compile h .vertex
  have hfragmentSamplers : samplersFrom? .fragment [] (declared shader.fragment.registry) =
      some shader.fragment.registry.samplers := samplersFrom?_of_compile h .fragment
  -- What the vertex stage takes in are attributes, and what it puts out is the interface.
  obtain ⟨hinputs, hcolors⟩ := vertex_of_compile h
  have hattributes : (locatedIn .input (declared shader.vertex.registry)).map
      (fun slot => ({ name := slot.var.name, ty := slot.var.ty, location := slot.slot } :
        BoundAttribute)) = shader.attributes := by
    rw [locatedIn_input_declared, hinputs, List.mergeSort_nil, List.append_nil, List.map_map]
    exact List.map_id _
  have hinterface : locatedIn .output (declared shader.vertex.registry) = shader.interface := by
    rw [locatedIn_output_declared, hcolors, List.map_nil, List.append_nil]
    rfl
  unfold readSources
  simp only [hvertexRead, hfragmentRead, hvertexSamplers, hfragmentSamplers, Option.bind_eq_bind,
    Option.bind_some, hattributes, hinterface, hvertex.blocksOf, hfragment.blocksOf,
    hvertex.constantsOf, hfragment.constantsOf]
  rw [Facts.ofShader, Shader.blocks, Shader.pushConstants, List.map_append, List.map_append]
  rfl

/-- The layouts of blocks are the only ones that follow the rules. -/
theorem forall₂_isStd140_iff (h : (m.compile input).outcome = .ok shader)
    {layouts : List BlockLayout} :
    List.Forall₂ (fun block layout => layout.IsStd140 block.members) (Facts.ofShader shader).blocks
      layouts ↔ layouts = shader.blocks.map (·.block.layout) := by
  have hlayout (registered : RegisteredBlock) (hmem : registered ∈ shader.blocks)
      (layout : BlockLayout) : layout.IsStd140 (DeclaredBlock.ofRegistered registered).members ↔
        registered.block.layout = layout := by
    rw [eq_comm]
    apply isStd140_iff_eq
    rcases List.mem_append.1 hmem with hmem | hmem
    · exact ((ownResources_of_compile h .vertex).blocks registered hmem).2
    · exact ((ownResources_of_compile h .fragment).blocks registered hmem).2
  -- Both sides compare the lists element by element.
  rw [Facts.ofShader, eq_comm, ← List.forall₂_eq_eq_eq, List.forall₂_map_left_iff,
    List.forall₂_map_left_iff, List.forall₂_iff_zip, List.forall₂_iff_zip]
  refine and_congr_right fun _ => forall_congr' fun registered => forall_congr' fun layout => ?_
  exact forall_congr' fun hzip => hlayout registered (List.of_mem_zip hzip).1 layout

/-- Push constants of both stages are placed one after another. -/
theorem packed_of_compile (h : (m.compile input).outcome = .ok shader) :
    Packed 0 (shader.pushConstants.map (·.slot)) shader.pushConstantSize.toNat := by
  obtain ⟨hvertex, hfragment, -⟩ := compile_registrations h
  have hvertexPacked : PackedConstants 0 shader.vertex.registry :=
    hvertex.keep (fun _ _ hstep => hstep.packedConstants) rfl
  have hfragmentPacked :
      PackedConstants shader.vertex.registry.pushConstantSize.toNat shader.fragment.registry :=
    hfragment.keep (fun _ _ hstep => hstep.packedConstants) rfl
  rw [Shader.pushConstants, List.map_append]
  exact packed_append_iff.2 ⟨_, hvertexPacked, hfragmentPacked⟩

/-- A push constant has the size of its type, so that its declaration shows all of it. -/
theorem slots_of_compile (h : (m.compile input).outcome = .ok shader) :
    (Facts.ofShader shader).slots = shader.pushConstants.map (·.slot) := by
  rw [Facts.slots, Facts.ofShader, List.map_map]
  refine List.map_congr_left fun constant hmem => ?_
  -- Where a push constant is placed after others, its size is that of its type.
  obtain ⟨before, after, hsplit⟩ := List.append_of_mem (List.mem_map_of_mem (f := (·.slot)) hmem)
  have hpacked := packed_of_compile h
  rw [hsplit] at hpacked
  obtain ⟨align, size, hty, hsize, -⟩ := hpacked.placedAfter
  have hslot : ((constant.slot.ty.std430.map Prod.snd).getD 0) = constant.slot.size := by
    rw [hty, hsize]
    rfl
  rw [Function.comp_apply, DeclaredConstant.slot, DeclaredConstant.ofRegistered, hslot]

/-- The locations of the interface are counted by its variables. -/
theorem interfaceSlotCount_of_compile (h : (m.compile input).outcome = .ok shader) :
    shader.interfaceSlotCount = .ofNat (shader.interface.map (·.var.locations)).sum := by
  obtain ⟨hvertex, -, -⟩ := compile_registrations h
  have hinterface : WellFormedInterface shader.vertex.registry :=
    hvertex.wellFormedInterface (wellFormedInterface_of_empty rfl rfl rfl)
  have hcount := hinterface.tiles.finish_eq
  rw [Nat.zero_add] at hcount
  rw [Shader.interface, ← hcount]
  exact UInt32.ofNat_toNat.symm

/-- The manifest shows nothing but the declarations and the layouts of blocks. -/
theorem manifest_of_compile (h : (m.compile input).outcome = .ok shader)
    (htarget : shader.target = .vulkan) :
    (Facts.ofShader shader).manifest shader.name (shader.blocks.map (·.block.layout)) =
      shader.manifest := by
  have hsize : UInt32.ofNat (pushConstantEnd (shader.pushConstants.map (·.slot))) =
      shader.pushConstantSize := by
    have hfinish : shader.pushConstantSize.toNat =
        pushConstantEnd (shader.pushConstants.map (·.slot)) := (packed_of_compile h).finish_eq
    rw [← hfinish]
    exact UInt32.ofNat_toNat
  have hblocks : List.zipWith (fun block layout => (block.laidOut layout).toJson)
      (Facts.ofShader shader).blocks (shader.blocks.map (·.block.layout)) =
        shader.uniformBlocks.map (·.toJson) := by
    rw [Facts.ofShader, List.zipWith_map, List.zipWith_self, Shader.uniformBlocks, List.map_map]
    rfl
  unfold Facts.manifest Shader.manifest Shader.bindings
  rw [slots_of_compile h, hsize, hblocks, interfaceSlotCount_of_compile h, htarget]
  rfl

/-- The manifest from the sources. In every model of library nodes that compiles for Vulkan, if the names
that nodes give are identifiers, reading the declarations of both sources back gives the attributes with
their types and locations, the interface with its slots, the blocks with their bindings and members, the
push constants with their offsets, and the samplers with their bindings, in order. The std140 rules give
the layouts of the blocks from the members that are read back, and together this is the manifest. -/
theorem sources_determine_manifest (hnames : IdentifierNames nodes) (htarget : input.target = .vulkan)
    (h : ((libraryModel name graph nodes).compile input).outcome = .ok shader) :
    readSources (shader.source .vertex) (shader.source .fragment) =
        some (.ofShader shader) ∧
      (∀ layouts, List.Forall₂ (fun block layout => layout.IsStd140 block.members)
          (Facts.ofShader shader).blocks layouts ↔ layouts = shader.blocks.map (·.block.layout)) ∧
      (Facts.ofShader shader).manifest shader.name (shader.blocks.map (·.block.layout)) =
        shader.manifest :=
  have hvulkan : shader.target = .vulkan := (target_of_compile h).trans htarget
  ⟨readSources_of_compile hnames h hvulkan, fun _ => forall₂_isStd140_iff h,
    manifest_of_compile h hvulkan⟩

end Compile

/-- Declarations of every form: in the vertex stage an attribute, an interface output, a block and a push
constant; in the fragment stage an input, a block with an array, a push constant, textures as an array,
as an empty array and alone, and a color output. -/
def everyForm : Stage → List LibraryNode
  | .vertex =>
    [.endpoint (.meshAttribute { name := "position", ty := .vec3 }),
      .endpoint (.producer coordinateChannel { value := .ofVec2 .zero .zero }), .camera,
      .endpoint (.pushConstant { var := { name := "uTime", ty := .float }, cell := 0 })]
  | .fragment =>
    [.endpoint (.consumer coordinateChannel coordinateChannel.var), .light (.lights 4),
      .endpoint (.pushConstant { var := { name := "uTint", ty := .vec3 }, cell := 1 }),
      .texture (.binding "tLayers" (some 2)), .texture (.binding "tNone" (some 0)),
      .texture (.binding "tBase" none), .endpoint (.newColorOutput "outColor")]

/-- All of them are read back. -/
theorem everyForm_manifest_read : IdentifierNames everyForm ∧
    ∃ shader, ((libraryModel "everyForm" (graphsFrom 0) everyForm).compile
        { target := .vulkan }).outcome = .ok shader ∧
      shader.blocks.map (·.block.binding) = [0, 1] ∧
      shader.pushConstants.map (·.slot.offset) = [0, 16] ∧
      shader.samplers.map (·.samplerBinding) = [4, 5, 7] ∧
      readSources (shader.source .vertex) (shader.source .fragment) =
        some (.ofShader shader) := by
  have hnames : IdentifierNames everyForm := by
    intro stage
    cases stage <;> decide +kernel
  have hcompiles : ((libraryModel "everyForm" (graphsFrom 0) everyForm).compile
      { target := .vulkan }).outcome.toOption.map
      (fun shader => (shader.blocks.map (·.block.binding), shader.pushConstants.map (·.slot.offset),
        shader.samplers.map (·.samplerBinding))) = some ([0, 1], [0, 16], [4, 5, 7]) := by
    decide +kernel
  obtain ⟨shader, hshader, hresources⟩ := exists_ok_of_map_eq hcompiles
  simp only [Prod.mk.injEq] at hresources
  obtain ⟨hblocks, hconstants, hsamplers⟩ := hresources
  exact ⟨hnames, shader, hshader, hblocks, hconstants, hsamplers,
    (sources_determine_manifest hnames rfl hshader).1⟩

end ShaderWeave
