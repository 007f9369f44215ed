import ShaderWeave.Proofs.CodeContents

/-!
# Texture Operands and Sampler Declarations

A node that samples a texture uses nothing but the name of its input, and nothing compares that name
with what the stage declares. So the operands of a main routine refer to declared textures exactly if
the names that the nodes sample are those of texture nodes in the same stage: single textures where a
whole texture is sampled, and arrays that are long enough where an element is.

## Main definitions

* `TextureOperand.Fits`: an operand without an element needs a single texture, and one with an element
  an array with more elements.
* `Target.samplerLines`: the lines by which a target declares a sampled texture.
* `Target.Declares`: these lines declare what an operand refers to.

## Main results

* `declares_of_fits`: on every target, a texture declares what an operand that fits it and is written for
  the target refers to.
* `texture_operands_declared_iff`: when all operands of a compiled stage are declared.
-/

namespace ShaderWeave

/-! ## Declared Operands -/

/-- An operand without an element needs a single texture, and one with an element an array that has the
element. -/
def TextureOperand.Fits (operand : TextureOperand) (arrayLen : Option UInt32) : Prop :=
  match operand.index, arrayLen with
  | none, none => True
  | some i, some len => i < len
  | _, _ => False

instance (operand : TextureOperand) (arrayLen : Option UInt32) :
    Decidable (operand.Fits arrayLen) := by
  unfold TextureOperand.Fits
  split <;> infer_instance

namespace Target

/-- The lines by which a target declares a sampled texture. -/
def samplerLines (target : Target) (s : SamplerBinding) : List String :=
  match target with
  | vulkan =>
    (separateTextures s).map (fun (name, binding) => boundUniform binding s.dim.textureType name)
      ++ [boundUniform s.samplerBinding.toNat "sampler" (samplerObjectName s.name)]
  | _ =>
    ["uniform "
      ++ Variable.declaration { name := s.name, ty := .sampler s.dim, arrayLen := s.arrayLen } ++ ";"]

theorem sampler_eq_samplerLines (target : Target) (s : SamplerBinding) :
    target.sampler s = String.intercalate "\n" (target.samplerLines s) := by
  cases target with
  | vulkan => rfl
  | opengl | webgl2 => simp [sampler, samplerLines]

/-- The declaration of a sampled texture declares what an operand, as it is written, refers to.

Where textures and samplers are separate objects, the operand names a declared image and a declared
sampler. Elsewhere it names the declared texture, or an element within the length of the declared
array. -/
def Declares (target : Target) (s : SamplerBinding) (operand : TextureOperand) : Prop :=
  match target with
  | vulkan => ∃ image,
    operand.text = "sampler2D(" ++ image ++ ", " ++ samplerObjectName s.name ++ ")" ∧
      (∃ binding, boundUniform binding "texture2D" image ∈ target.samplerLines s) ∧
      ∃ binding, boundUniform binding "sampler" (samplerObjectName s.name) ∈ target.samplerLines s
  | _ =>
    match operand.index with
    | none =>
      operand.text = s.name ∧
        target.samplerLines s = ["uniform sampler2D " ++ s.name ++ ";"]
    | some i => ∃ len : UInt32, i < len ∧
      operand.text = s.name ++ "[" ++ toString i ++ "]" ∧
        target.samplerLines s = ["uniform sampler2D " ++ s.name ++ "[" ++ toString len ++ "];"]

/-- The elements of an array of textures are declared one by one. -/
theorem element_mem_samplerLines {s : SamplerBinding} {i len : UInt32}
    (hlen : s.arrayLen = some len) (hi : i < len) :
    boundUniform (s.binding.toNat + i.toNat) s.dim.textureType (textureElementName s.name i) ∈
      vulkan.samplerLines s := by
  refine List.mem_append_left _ (List.mem_map.2
    ⟨(textureElementName s.name i, s.binding.toNat + i.toNat), ?_, rfl⟩)
  rw [separateTextures, hlen]
  refine List.mem_map.2 ⟨i.toNat, List.mem_range.2 (UInt32.lt_iff_toNat_lt.1 hi), ?_⟩
  rw [Nat.toUInt32, UInt32.ofNat_toNat]

theorem uniform_sampler2D_eq (rest : String) :
    "uniform " ++ ((ValueType.sampler .tex2d).glsl ++ (" " ++ rest)) =
      "uniform sampler2D " ++ rest := by
  have hhead : "uniform sampler2D " = "uniform " ++ ((ValueType.sampler .tex2d).glsl ++ " ") := rfl
  rw [hhead, String.append_assoc, String.append_assoc]

/-- On every target, a texture declares what an operand that fits it and is written for the target refers
to. -/
theorem declares_of_fits {target : Target} {s : SamplerBinding} {operand : TextureOperand}
    (htarget : operand.target = target) (hname : s.name = operand.name) (hdim : s.dim = .tex2d)
    (hfits : operand.Fits s.arrayLen) : target.Declares s operand := by
  obtain ⟨target, name, index⟩ := operand
  subst htarget hname
  unfold TextureOperand.Fits at hfits
  split at hfits
  · rename_i hindex hlen
    cases hindex
    cases target with
    | vulkan =>
      refine ⟨s.name, rfl, ⟨s.binding.toNat, ?_⟩, s.samplerBinding.toNat, ?_⟩
      · simp [samplerLines, separateTextures, hlen, hdim, TextureDim.textureType]
      · simp [samplerLines]
    | opengl | webgl2 =>
      refine ⟨rfl, ?_⟩
      simp only [samplerLines, Variable.declaration, hlen, hdim, String.append_assoc,
        uniform_sampler2D_eq]
  · rename_i i len hindex hlen
    cases hindex
    cases target with
    | vulkan =>
      refine ⟨textureElementName s.name i, rfl, ⟨s.binding.toNat + i.toNat, ?_⟩,
        s.samplerBinding.toNat, ?_⟩
      · have hmem := element_mem_samplerLines hlen hfits
        rw [hdim] at hmem
        exact hmem
      · simp [samplerLines]
    | opengl | webgl2 =>
      refine ⟨len, hfits, rfl, ?_⟩
      simp only [samplerLines, Variable.declaration, hlen, hdim, String.append_assoc,
        uniform_sampler2D_eq]
      rfl
  · exact hfits.elim

/-- A stage declares what an operand refers to: it has a sampled texture of that name and of a length
that the operand fits, whose lines stand among the declarations of the stage and declare it. -/
def DeclaresOperand (target : Target) (r : Registry) (operand : TextureOperand) : Prop :=
  ∃ s ∈ r.samplers, s.name = operand.name ∧ operand.Fits s.arrayLen ∧
    String.intercalate "\n" (target.samplerLines s) ∈ target.bindingSection r ∧
    target.Declares s operand

end Target

/-! ## Operands of a Compiled Stage -/

/-- The node declares a texture that the operand fits. -/
def LibraryNode.Offers (operand : TextureOperand) : LibraryNode → Prop
  | texture (.binding name arrayLen) => name = operand.name ∧ operand.Fits arrayLen
  | _ => False

instance (operand : TextureOperand) (node : LibraryNode) : Decidable (node.Offers operand) := by
  unfold LibraryNode.Offers
  split <;> infer_instance

section Compile

variable {name : String} {graph : Stage → Nat} {nodes : Stage → List LibraryNode}
  {input : CompileInput} {shader : Shader}

/-- A stage declares what an operand refers to if and only if one of its nodes offers it. -/
theorem declaresOperand_iff
    (h : ((libraryModel name graph nodes).compile input).outcome = .ok shader)
    (stage : Stage) (operand : TextureOperand) :
    operand.target.DeclaresOperand (shader.program stage).registry operand ↔
      ∃ source ∈ nodes stage, source.Offers operand := by
  constructor
  · rintro ⟨s, hs, hname, hfits, -, -⟩
    -- What is registered was asked for, and only texture nodes ask for textures.
    have hholds : (shader.program stage).registry.Holds (.sampler s.name s.dim s.arrayLen) :=
      ⟨s, hs, rfl, rfl, rfl⟩
    obtain ⟨node, hnode, hresource⟩ := (resources_of_compile h stage _).1 hholds
    obtain ⟨rfl, -⟩ := eq_binding_of_sampler_mem hresource
    exact ⟨_, hnode, hname, hfits⟩
  · rintro ⟨source, hsource, hoffers⟩
    obtain ⟨arrayLen, rfl, hfits⟩ :
        ∃ arrayLen, source = .texture (.binding operand.name arrayLen) ∧ operand.Fits arrayLen := by
      unfold LibraryNode.Offers at hoffers
      split at hoffers
      · obtain ⟨rfl, hfits⟩ := hoffers
        exact ⟨_, rfl, hfits⟩
      · exact hoffers.elim
    have hholds := (resources_of_compile h stage (.sampler operand.name .tex2d arrayLen)).2
      ⟨_, hsource, List.mem_singleton_self _⟩
    obtain ⟨s, hs, hname, hdim, rfl⟩ := hholds
    refine ⟨s, hs, hname, hfits, ?_, Target.declares_of_fits rfl hname hdim hfits⟩
    rw [← Target.sampler_eq_samplerLines]
    exact List.mem_append_right _ (List.mem_map_of_mem hs)

/-- Texture operands and sampler declarations. In every model of library nodes that compiles for a target,
the main routine of a stage samples what its nodes sample, in generation order and as the target writes
it. All of these operands refer to what the stage declares on the target if and only if each of them is
offered by a texture node of the stage: by a single texture of its name where a whole texture is sampled,
and by an array of its name that has the element where an element is. -/
theorem texture_operands_declared_iff
    (h : ((libraryModel name graph nodes).compile input).outcome = .ok shader)
    (stage : Stage) :
    operands (shader.program stage).code.main =
        ((libraryModel name graph nodes).order stage).flatMap
          (operandsAt input.target nodes stage) ∧
      (∀ operand ∈ operands (shader.program stage).code.main, operand.target = input.target) ∧
      ((∀ operand ∈ operands (shader.program stage).code.main,
          input.target.DeclaresOperand (shader.program stage).registry operand) ↔
        ∀ node ∈ nodes stage, ∀ operand ∈ node.operands input.target,
          ∃ source ∈ nodes stage, source.Offers operand) := by
  have htarget : ∀ operand ∈ operands (shader.program stage).code.main,
      operand.target = input.target := by
    intro operand hoperand
    obtain ⟨node, -, hmem⟩ := (mem_operands_of_compile h).1 hoperand
    exact target_of_mem_operands hmem
  refine ⟨operands_of_compile h stage, htarget, ?_⟩
  constructor
  · intro hdeclared node hnode operand hoperand
    have hmem := (mem_operands_of_compile h).2 ⟨node, hnode, hoperand⟩
    refine (declaresOperand_iff h stage operand).1 ?_
    rw [htarget operand hmem]
    exact hdeclared operand hmem
  · intro hoffered operand hmem
    obtain ⟨node, hnode, hoperand⟩ := (mem_operands_of_compile h).1 hmem
    rw [← htarget operand hmem]
    exact (declaresOperand_iff h stage operand).2 (hoffered node hnode operand hoperand)

end Compile

/-- The channel of shadows for two lights. -/
def shadowChannel : Channel := { id := 0, var := Shadow.interfaceVar 2 }

/-- Shadows of two lights, with an array of depth textures of the given length. -/
def shadowedLights (arrayLen : UInt32) : Stage → List LibraryNode
  | .vertex =>
    let model : Handle :=
      .uniform { stage := .vertex, graph := 0, index := 0 } CameraNode.modelMatrix
    [.camera, .light (.shadowVertex 2 shadowChannel { value := .ofVec3 .zero .zero .zero } model)]
  | .fragment =>
    let depths : TextureNode := .binding "tDepth" (some arrayLen)
    [.texture depths, .light (.shadowFragment 2 shadowChannel
      (depths.output { stage := .fragment, graph := 1, index := 0 }))]

/-- Two depth textures are enough for two lights: the size of the first and nine samples of each are
offered, and so they are declared. -/
theorem shadowedLights_operands_declared :
    (∀ target : Target, ∀ node ∈ shadowedLights 2 .fragment, ∀ operand ∈ node.operands target,
      ∃ source ∈ shadowedLights 2 .fragment, source.Offers operand) ∧
    ∀ target : Target, ∃ shader,
      ((libraryModel "shadows" (graphsFrom 0) (shadowedLights 2)).compile
        { target }).outcome = .ok shader ∧
      (operands shader.fragment.code.main).length = 19 ∧
      ∀ operand ∈ operands shader.fragment.code.main,
        target.DeclaresOperand shader.fragment.registry operand := by
  have hoffered (target : Target) : ∀ node ∈ shadowedLights 2 .fragment,
      ∀ operand ∈ node.operands target,
        ∃ source ∈ shadowedLights 2 .fragment, source.Offers operand := by
    cases target <;> decide +kernel
  have hcompiles (target : Target) :
      ((libraryModel "shadows" (graphsFrom 0) (shadowedLights 2)).compile
        { target }).outcome.toOption.map
          (fun shader => (operands shader.fragment.code.main).length) = some 19 := by
    cases target <;> decide +kernel
  refine ⟨hoffered, fun target => ?_⟩
  obtain ⟨shader, hshader, hlength⟩ := exists_ok_of_map_eq (hcompiles target)
  exact ⟨shader, hshader, hlength,
    (texture_operands_declared_iff hshader .fragment).2.2.2 (hoffered target)⟩

/-- An array of textures that is sampled as a whole. -/
def sampledArray : Stage → List LibraryNode
  | .vertex => []
  | .fragment =>
    let layers : TextureNode := .binding "tLayers" (some 2)
    [.texture layers, .texture (.newSample
      (layers.output { stage := .fragment, graph := 1, index := 0 }) false)]

/-- A sample of a texture that belongs to no node. -/
def sampledElsewhere : Stage → List LibraryNode
  | .vertex => []
  | .fragment =>
    let elsewhere : Variable := { name := "tElsewhere", ty := .sampler .tex2d }
    [.texture (.newSample { value := .uniform elsewhere } false)]

/-- For every target the model compiles, and in the fragment stage an operand refers to nothing that the
stage declares. -/
def SamplesUndeclared (nodes : Stage → List LibraryNode) : Prop :=
  ∀ target : Target, ∃ shader,
    ((libraryModel "undeclared" (graphsFrom 0) nodes).compile { target }).outcome = .ok shader ∧
      ∃ operand ∈ operands shader.fragment.code.main,
        ¬ target.DeclaresOperand shader.fragment.registry operand

/-- If no node of the fragment stage offers an operand that one of them samples, the model compiles to
an operand that is not declared. -/
theorem samplesUndeclared {nodes : Stage → List LibraryNode} (name : String) (index : Option UInt32)
    (hcompiles : ∀ target : Target, ((libraryModel "undeclared" (graphsFrom 0) nodes).compile
      { target }).outcome.toOption.map (fun _ => ()) = some ())
    (hsampled : ∀ target : Target, ∃ node ∈ nodes .fragment,
      { target, name, index } ∈ node.operands target)
    (hnone : ∀ target : Target, ¬ ∃ source ∈ nodes .fragment, source.Offers { target, name, index }) :
    SamplesUndeclared nodes := by
  intro target
  obtain ⟨shader, hshader, -⟩ := exists_ok_of_map_eq (hcompiles target)
  have hmem : { target, name, index } ∈ operands (shader.program .fragment).code.main :=
    (mem_operands_of_compile hshader).2 (hsampled target)
  refine ⟨shader, hshader, _, hmem, fun hdeclares => hnone target ?_⟩
  exact (declaresOperand_iff hshader .fragment _).1 hdeclares

/-- Models compile although a texture operand refers to nothing that the stage declares, whatever the
target: an array that is sampled as a whole, a texture that no node of the stage declares, and an array of
depth textures that is shorter than the number of lights. -/
theorem undeclared_texture_operands :
    SamplesUndeclared sampledArray ∧ SamplesUndeclared sampledElsewhere ∧
      SamplesUndeclared (shadowedLights 1) := by
  refine ⟨samplesUndeclared "tLayers" none ?_ ?_ ?_, samplesUndeclared "tElsewhere" none ?_ ?_ ?_,
    samplesUndeclared "tDepth" (some 1) ?_ ?_ ?_⟩
  all_goals
    intro target
    cases target <;> decide +kernel

end ShaderWeave
