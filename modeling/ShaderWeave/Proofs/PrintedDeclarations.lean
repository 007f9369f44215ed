import ShaderWeave.Proofs.SourceReader

/-!
# Printed Declarations Are Read Back

Every declaration that is printed for the target with explicit bindings is read back as what it
declares, if names are words. The texture and sampler objects of a sampler are put together again.

## Main definitions

* `samplerDeclarations`: the texture and sampler objects of a sampler.
* `declared`: the declarations of a stage.
* `WordNames`: what a stage declares has words as names.

## Main results

* `lists_declared`: the sections of declarations of a stage are read back.
* `samplersFrom?_samplers`: samplers are put together from their objects.
-/

namespace ShaderWeave.Source

/-! ## Flat Texts -/

theorem flatText_toString (n : Nat) : FlatText (toString n) :=
  (isWord_toString n).flatText

theorem flatText_word32 (n : UInt32) : FlatText (toString n) :=
  flatText_toString n.toNat

theorem flatText_contract {var : Variable} (hname : IsWord var.name) : FlatText var.declaration := by
  have hty := (isWord_glsl var.ty).flatText
  have hblank : FlatText " " := by decide
  have hopen : FlatText "[" := by decide
  have hclose : FlatText "]" := by decide
  unfold Variable.declaration
  split
  · simp only [flatText_append]
    exact ⟨⟨⟨⟨⟨hty, hblank⟩, hname.flatText⟩, hopen⟩, flatText_word32 _⟩, hclose⟩
  · simp only [flatText_append]
    exact ⟨⟨hty, hblank⟩, hname.flatText⟩

/-! ## Located Variables -/

/-- A variable at a location is read back, whatever its direction. -/
theorem lists_located (location : UInt32) (flat : Bool) (direction : Direction) {var : Variable}
    (hname : IsWord var.name) :
    Lists (lex (Target.location location ++ ((if flat then "flat " else "") ++ direction.keyword
      ++ " " ++ var.declaration ++ ";"))) declaration [.located location direction var] := by
  have hflow := reads_flow flat direction
  have hflat : FlatText ((if flat then "flat " else "") ++ direction.keyword) := by
    cases flat <;> cases direction <;> decide
  generalize (if flat then "flat " else "") ++ direction.keyword = flow at hflow hflat ⊢
  have htext : Target.location location ++ (flow ++ " " ++ var.declaration ++ ";") =
      "layout(location = " ++ (toString location ++ (") " ++ (flow ++ (" " ++ var.declaration))))
        ++ ";" := by
    unfold Target.location
    simp only [String.append_assoc]
  have hreads : ReadsAll
      ("layout(location = " ++ (toString location ++ (") " ++ (flow ++ (" " ++ var.declaration)))))
      located (.located location direction var) :=
    .bind (.inl (by decide +kernel)) (reads_phrase (by decide +kernel)) <|
      .bind (.inr (startsApart_append (by decide) rfl)) (reads_word32 location) <|
        .bind (.inl (by decide +kernel)) (reads_phrase (by decide +kernel)) <|
          .bind (.inr (startsApart_append (by decide) rfl)) hflow <|
            (ReadsAll.after_blank rfl rfl (readsAll_contract hname)).map
  -- The first word in the parentheses tells which form this is.
  have hdeclaration := hreads.declaration "location" (by decide +kernel) (by decide +kernel) rfl
  rw [htext]
  refine Lists.statement (FlatText.closed ?_) hdeclaration
  simp only [flatText_append]
  exact ⟨by decide, flatText_word32 location, by decide, hflat, by decide, flatText_contract hname⟩

theorem lists_vertexInput {a : BoundAttribute} (hname : IsWord a.name) :
    Lists (lex (Target.vulkan.vertexInput a)) declaration
      [.located a.location .input { name := a.name, ty := a.ty }] := by
  have htext : Target.vulkan.vertexInput a = Target.location a.location ++
      ((if false then "flat " else "") ++ Direction.input.keyword ++ " "
        ++ Variable.declaration { name := a.name, ty := a.ty } ++ ";") := by
    have hin : "in " = "" ++ "in" ++ " " := by decide
    unfold Target.vertexInput Variable.declaration
    rw [hin]
    simp only [String.append_assoc]
    rfl
  rw [htext]
  exact lists_located a.location false .input hname

theorem lists_interfaceVariable (direction : Direction) {slot : InterfaceSlot}
    (hname : IsWord slot.var.name) :
    Lists (lex (Target.vulkan.interfaceVariable slot direction)) declaration
      [.located slot.slot direction slot.var] :=
  lists_located slot.slot slot.var.isFlat direction hname

theorem lists_colorOutput {output : ColorOutput} (hname : IsWord output.name) :
    Lists (lex (Target.vulkan.colorOutput output)) declaration
      [.located output.location .output { name := output.name, ty := .vec4 }] := by
  have htext : Target.vulkan.colorOutput output = Target.location output.location ++
      ((if false then "flat " else "") ++ Direction.output.keyword ++ " "
        ++ Variable.declaration { name := output.name, ty := .vec4 } ++ ";") := by
    have hout : "out vec4 " = "" ++ "out" ++ " " ++ ("vec4" ++ " ") := by decide
    unfold Target.colorOutput Variable.declaration
    rw [hout]
    simp only [String.append_assoc]
    rfl
  rw [htext]
  exact lists_located output.location false .output hname

/-! ## Blocks -/

/-- A declaration with braces is a statement. -/
theorem lists_braced {α : Type} {item : Reader α} {head : String} {lines : List String} {value : α}
    (hhead : FlatText head) (hlines : ∀ line ∈ lines, ∀ c ∈ line.toList, c ≠ '\x7b' ∧ c ≠ '\x7d')
    (hreads : ReadsAll (head ++ bracedText lines) item value) :
    Lists (lex (Target.braced head lines)) item [value] := by
  have htext : Target.braced head lines = head ++ bracedText lines ++ ";" := by
    have hend : "\n\x7d;" = "\n\x7d" ++ ";" := by decide
    unfold Target.braced bracedText
    rw [hend]
    simp only [String.append_assoc]
  rw [htext]
  exact Lists.statement (closed_braced hhead hlines) hreads

/-- A flat text with a semicolon has no braces. -/
theorem FlatText.no_brace {text : String} (h : FlatText text) :
    ∀ c ∈ (text ++ ";").toList, c ≠ '\x7b' ∧ c ≠ '\x7d' := by
  intro c hc
  rw [String.toList_append, List.mem_append] at hc
  rcases hc with hc | hc
  · exact (h c hc).2
  · rw [List.mem_singleton.1 hc]
    decide

/-- The printed members of a block are read back. -/
theorem lists_members {members : List Member} (hnames : ∀ member ∈ members, IsWord member.name) :
    Lists ((members.map fun member => "    " ++ member.declaration ++ ";").flatMap lex) contract
      (members.map (·.toVariable)) := by
  refine Lists.map fun member hmember => Lists.statement (FlatText.closed ?_) ?_
  · rw [flatText_append]
    exact ⟨by decide, flatText_contract (hnames member hmember)⟩
  · exact .after_blank rfl rfl (readsAll_contract (hnames member hmember))

theorem readsAll_block {binding : UInt32} {name : String} {lines : List String}
    {members : List Variable} (hname : IsWord name)
    (hlines : Lists (lines.flatMap lex) contract members) :
    ReadsAll ("layout(std140, set = 0, binding = " ++ (toString binding ++ (") uniform "
      ++ (name ++ bracedText lines)))) declaration (.block binding name members) := by
  have hreads : ReadsAll ("layout(std140, set = 0, binding = " ++ (toString binding
      ++ (") uniform " ++ (name ++ bracedText lines)))) block (.block binding name members) :=
    .bind (.inl (by decide +kernel)) (reads_phrase (by decide +kernel)) <|
      .bind (.inr (startsApart_append (by decide) rfl)) (reads_word32 binding) <|
        .bind (.inl (by decide +kernel)) (reads_phrase (by decide +kernel)) <|
          .bind (.inr (startsApart_bracedText lines)) (reads_word hname) <|
            (readsAll_braced hlines).map
  exact hreads.declaration "std140" (by decide +kernel) (by decide +kernel) rfl

theorem lists_uniformBlock {block : UniformBlock} (hname : IsWord block.name)
    (hmembers : ∀ member ∈ block.layout.members, IsWord member.name) :
    Lists (lex (Target.vulkan.uniformBlock block)) declaration
      [.block block.binding block.name (block.layout.members.map (·.toVariable))] := by
  have hclose : ")" ++ " uniform " = ") uniform " := by decide
  have htext : Target.vulkan.uniformBlock block = Target.braced
      ("layout(std140, set = 0, binding = " ++ (toString block.binding ++ (") uniform "
        ++ block.name)))
      (block.layout.members.map fun member => "    " ++ member.declaration ++ ";") := by
    unfold Target.uniformBlock
    rw [← hclose]
    simp only [String.append_assoc]
  rw [htext]
  refine lists_braced ?_ ?_ ?_
  · simp only [flatText_append]
    exact ⟨by decide, flatText_word32 _, by decide, hname.flatText⟩
  · intro line hline
    obtain ⟨member, hmember, rfl⟩ := List.mem_map.1 hline
    refine FlatText.no_brace ?_
    rw [flatText_append]
    exact ⟨by decide, flatText_contract (hmembers member hmember)⟩
  · simp only [String.append_assoc]
    exact readsAll_block hname (lists_members hmembers)

/-! ## Push Constants -/

/-- A printed push constant is read back. -/
theorem readsAll_pushConstant {offset : UInt32} {ty : ValueType} {name : String}
    (hname : IsWord name) :
    ReadsAll ("    layout(offset = " ++ (toString offset ++ (") " ++ (ty.glsl ++ (" " ++ name)))))
      pushConstant (offset, ty, name) :=
  .bind (.inl (by decide +kernel)) (reads_phrase (by decide +kernel)) <|
    .bind (.inr (startsApart_append (by decide) rfl)) (reads_word32 offset) <|
      .bind (.inl (by decide +kernel)) (reads_phrase (by decide +kernel)) <|
        .bind (.inr (startsApart_append (by decide) rfl)) (reads_typeName ty) <|
          .bind_last (.after_blank rfl rfl (reads_word hname)) rfl

theorem lists_pushConstants (stage : StageMask) {slots : List PushConstantSlot}
    (hnames : ∀ slot ∈ slots, IsWord slot.name) :
    Lists (lex (Target.vulkan.pushConstants stage slots)) declaration
      [.pushConstants (slots.map fun slot => (slot.offset, slot.ty, slot.name))] := by
  let line (slot : PushConstantSlot) : String :=
    "    layout(offset = " ++ (toString slot.offset ++ (") " ++ (slot.ty.glsl ++ (" " ++ slot.name))))
  have hflat (slot : PushConstantSlot) (hslot : slot ∈ slots) : FlatText (line slot) := by
    simp only [line, flatText_append]
    exact ⟨by decide, flatText_word32 _, by decide, (isWord_glsl _).flatText, by decide,
      (hnames slot hslot).flatText⟩
  have hlines : Lists ((slots.map fun slot => line slot ++ ";").flatMap lex) pushConstant
      (slots.map fun slot => (slot.offset, slot.ty, slot.name)) :=
    Lists.map fun slot hslot =>
      Lists.statement (hflat slot hslot).closed (readsAll_pushConstant (hnames slot hslot))
  have hblock : IsWord (Target.pushConstantBlock stage) := by
    unfold Target.pushConstantBlock
    split <;> decide
  have hreads : ReadsAll ("layout(push_constant) uniform " ++ (Target.pushConstantBlock stage
      ++ bracedText (slots.map fun slot => line slot ++ ";"))) pushConstants
      (.pushConstants (slots.map fun slot => (slot.offset, slot.ty, slot.name))) :=
    .bind (.inl (by decide +kernel)) (reads_phrase (by decide +kernel)) <|
      .bind (.inr (startsApart_bracedText _)) (reads_word hblock) <| (readsAll_braced hlines).map
  have htext : Target.vulkan.pushConstants stage slots = Target.braced
      ("layout(push_constant) uniform " ++ Target.pushConstantBlock stage)
      (slots.map fun slot => line slot ++ ";") := by
    unfold Target.pushConstants
    simp only [line, String.append_assoc]
  rw [htext]
  refine lists_braced ?_ ?_ ?_
  · rw [flatText_append]
    exact ⟨by decide, hblock.flatText⟩
  · intro line hline
    obtain ⟨slot, hslot, rfl⟩ := List.mem_map.1 hline
    exact (hflat slot hslot).no_brace
  · rw [String.append_assoc]
    exact hreads.declaration "push_constant" (by decide +kernel) (by decide +kernel) rfl

/-! ## Textures and Samplers -/

/-- A printed texture or sampler object is read back. -/
theorem lists_boundUniform {binding : Nat} {binding' : UInt32} {ty name : String}
    {kind : Option TextureDim} (hbinding : Word.ofNat? binding = some binding') (hty : IsWord ty)
    (hkind : objectKind? ty = some kind) (hname : IsWord name) :
    Lists (lex (Target.boundUniform binding ty name)) declaration
      [objectOf binding' name kind] := by
  have htext : Target.boundUniform binding ty name =
      "layout(set = 0, binding = " ++ (toString binding ++ (") uniform " ++ (ty ++ (" " ++ name))))
        ++ ";" := by
    unfold Target.boundUniform
    simp only [String.append_assoc]
  have hreads : ReadsAll
      ("layout(set = 0, binding = " ++ (toString binding ++ (") uniform " ++ (ty ++ (" " ++ name)))))
      object (objectOf binding' name kind) :=
    .bind (.inl (by decide +kernel)) (reads_phrase (by decide +kernel)) <|
      .bind (.inr (startsApart_append (by decide) rfl)) (reads_number hbinding) <|
        .bind (.inl (by decide +kernel)) (reads_phrase (by decide +kernel)) <|
          .bind (.inr (startsApart_append (by decide) rfl)) (reads_wordAs (lex_word hty) hkind) <|
            .bind_last (.after_blank rfl rfl (reads_word hname)) rfl
  -- The first word in the parentheses tells which form this is.
  have hdeclaration := hreads.declaration "set" (by decide +kernel) (by decide +kernel) rfl
  rw [htext]
  refine Lists.statement (FlatText.closed ?_) hdeclaration
  simp only [flatText_append]
  exact ⟨by decide, flatText_toString binding, by decide, hty.flatText, by decide, hname.flatText⟩

theorem IsWord.append {left right : String} (hleft : IsWord left) (hright : IsWord right) :
    IsWord (left ++ right) := by
  refine ⟨fun hempty => hleft.1 (String.append_eq_empty_iff.1 hempty).1, fun c hc => ?_⟩
  rw [String.toList_append, List.mem_append] at hc
  exact hc.elim (hleft.2 c) (hright.2 c)

theorem isWord_textureElementName {name : String} (hname : IsWord name) (i : UInt32) :
    IsWord (Target.textureElementName name i) :=
  (hname.append (by decide)).append (isWord_toString i.toNat)

theorem isWord_samplerObjectName {name : String} (hname : IsWord name) :
    IsWord (Target.samplerObjectName name) :=
  hname.append (by decide)

theorem isWord_textureType (dim : TextureDim) : IsWord dim.textureType := by
  cases dim <;> decide

/-- The objects that a sampler is declared by. -/
def samplerObjects (s : SamplerBinding) : List TextureObject :=
  (Target.separateTextures s).map fun (name, binding) =>
    { binding := binding.toUInt32, dim := s.dim, name }

/-- The declarations of a sampler. -/
def samplerDeclarations (s : SamplerBinding) : List Declaration :=
  (samplerObjects s).map (fun texture => .texture texture.binding texture.dim texture.name)
    ++ [.sampler s.samplerBinding (Target.samplerObjectName s.name)]

/-- The sampler has the binding after those of its textures. -/
def SamplerFollows (s : SamplerBinding) : Prop :=
  s.samplerBinding.toNat = s.binding.toNat + (s.arrayLen.getD 1).toNat

theorem isWord_separateTextures {s : SamplerBinding} (hname : IsWord s.name) {texture : String × Nat}
    (hmem : texture ∈ Target.separateTextures s) : IsWord texture.1 := by
  unfold Target.separateTextures at hmem
  split at hmem
  · rw [List.mem_singleton.1 hmem]
    exact hname
  · obtain ⟨i, -, rfl⟩ := List.mem_map.1 hmem
    exact isWord_textureElementName hname _

/-- The textures of a sampler have bindings that fit a word. -/
theorem separateTextures_fit {s : SamplerBinding} (hfollows : SamplerFollows s)
    {texture : String × Nat} (hmem : texture ∈ Target.separateTextures s) :
    Word.ofNat? texture.2 = some texture.2.toUInt32 := by
  have hfits (n : Nat) (h : n < Word.limit) : Word.ofNat? n = some n.toUInt32 := if_pos h
  have hlimit : s.samplerBinding.toNat < Word.limit := s.samplerBinding.toNat_lt
  unfold SamplerFollows at hfollows
  unfold Target.separateTextures at hmem
  split at hmem
  · rw [List.mem_singleton.1 hmem]
    exact hfits _ s.binding.toNat_lt
  · rename_i len hlen
    obtain ⟨i, hi, rfl⟩ := List.mem_map.1 hmem
    rw [List.mem_range] at hi
    rw [hlen, Option.getD_some] at hfollows
    exact hfits _ (by simp only; omega)

/-- The declaration of a sampler consists of those of its objects. -/
theorem lex_sampler (s : SamplerBinding) : lex (Target.vulkan.sampler s) =
    ((Target.separateTextures s).map fun (name, binding) =>
      Target.boundUniform binding s.dim.textureType name).flatMap lex
      ++ lex (Target.boundUniform s.samplerBinding.toNat "sampler"
        (Target.samplerObjectName s.name)) := by
  unfold Target.sampler
  rw [lex_intercalate (by decide) (by decide) (by decide) (by decide), List.flatMap_append,
    List.flatMap_singleton]

theorem lists_sampler {s : SamplerBinding} (hname : IsWord s.name) (hfollows : SamplerFollows s) :
    Lists (lex (Target.vulkan.sampler s)) declaration (samplerDeclarations s) := by
  have htextures : Lists (((Target.separateTextures s).map fun (name, binding) =>
      Target.boundUniform binding s.dim.textureType name).flatMap lex) declaration
      ((samplerObjects s).map fun texture =>
        .texture texture.binding texture.dim texture.name) := by
    rw [samplerObjects, List.map_map]
    refine Lists.map fun texture hmem => ?_
    have hkind : objectKind? s.dim.textureType = some (some s.dim) := by
      cases s.dim <;> decide
    exact lists_boundUniform (separateTextures_fit hfollows hmem) (isWord_textureType s.dim) hkind
      (isWord_separateTextures hname hmem)
  have hsampler : Lists (lex (Target.boundUniform s.samplerBinding.toNat "sampler"
      (Target.samplerObjectName s.name))) declaration
      [.sampler s.samplerBinding (Target.samplerObjectName s.name)] := by
    have hword : IsWord "sampler" := by decide
    have hkind : objectKind? "sampler" = some none := by decide
    exact lists_boundUniform (Word.ofNat?_eq_some_iff.2 rfl) hword hkind
      (isWord_samplerObjectName hname)
  rw [lex_sampler]
  exact htextures.append hsampler

/-- The name of a texture is read back from that of its sampler object. -/
theorem textureOf?_samplerObjectName (name : String) :
    textureOf? (Target.samplerObjectName name) = some name := by
  unfold textureOf? Target.samplerObjectName
  have hname : String.ofList ((name ++ "Sampler").toList.take
      ((name ++ "Sampler").toList.length - "Sampler".length)) = name := by
    have hlength : "Sampler".toList.length = "Sampler".length := by decide
    rw [String.toList_append, List.length_append, hlength, Nat.add_sub_cancel, List.take_left,
      String.ofList_toList]
  simp only [hname, if_true]

/-- The textures of an array are its elements. -/
theorem samplerObjects_eq_elements {s : SamplerBinding} {len : UInt32} (hlen : s.arrayLen = some len) :
    samplerObjects s = elements s.name s.dim s.binding.toNat len.toNat := by
  unfold samplerObjects elements Target.separateTextures
  rw [hlen]
  simp only [List.map_map]
  refine List.map_congr_left fun i hi => ?_
  rw [List.mem_range] at hi
  have hi' : i < UInt32.size := Nat.lt_trans hi len.toNat_lt
  -- A number that fits a word is printed as that word is.
  have hprinted : toString i.toUInt32 = toString i := by
    have hnat : i.toUInt32.toNat = i := by
      rw [Nat.toUInt32_eq, UInt32.toNat_ofNat_of_lt' hi']
    exact congrArg (fun n : Nat => toString n) hnat
  simp only [Function.comp_apply, Target.textureElementName, hprinted]

/-- The first element of an array, and how many follow it. -/
theorem first_of_elements {name : String} {dim : TextureDim} {binding : UInt32} {len : Nat}
    {first : TextureObject} {rest : List TextureObject}
    (h : elements name dim binding.toNat len = first :: rest) :
    first = { binding, dim, name := name ++ "_" ++ toString 0 } ∧ rest.length + 1 = len := by
  have hlength : rest.length + 1 = len := by
    simpa [elements] using (congrArg List.length h).symm
  refine ⟨?_, hlength⟩
  have hhead := congrArg List.head? h
  rw [← hlength, elements, List.range_succ_eq_map] at hhead
  simpa using hhead.symm

/-- A sampler is put together from its objects. -/
theorem joined?_samplerObjects {s : SamplerBinding} (hfollows : SamplerFollows s)
    (hdim : s.arrayLen = some 0 → s.dim = .tex2d) :
    joined? s.stage (samplerObjects s) s.samplerBinding (Target.samplerObjectName s.name) =
      some s := by
  unfold joined?
  rw [textureOf?_samplerObjectName]
  unfold SamplerFollows at hfollows
  rcases s with ⟨name, stage, dim, arrayLen, binding, samplerBinding⟩
  simp only [Option.bind_eq_bind, Option.bind_some] at *
  cases arrayLen with
  | none => simp [samplerObjects, Target.separateTextures]
  | some len =>
    rw [samplerObjects_eq_elements rfl]
    cases helements : elements name dim binding.toNat len.toNat with
    | nil =>
      -- Without elements, the sampler has the first binding.
      have hzero : len.toNat = 0 := by
        simpa [elements] using congrArg List.length helements
      have hlen : len = 0 := UInt32.toNat_inj.1 hzero
      have hbinding : samplerBinding = binding := by
        apply UInt32.toNat_inj.1
        rw [hfollows, Option.getD_some, hzero, Nat.add_zero]
      rw [hbinding, hlen, hdim (by rw [hlen])]
      rfl
    | cons first rest =>
      obtain ⟨hfirst, hlength⟩ := first_of_elements helements
      -- An element is numbered in its name, so it is not taken for a single texture.
      have hname : first.name ≠ name := by
        rw [hfirst]
        intro heq
        have hchars := congrArg (fun text => text.toList.length) heq
        simp at hchars
      have harray : first :: rest = elements name first.dim first.binding.toNat (rest.length + 1) := by
        rw [hlength, ← helements, hfirst]
      have hlen : Word.ofNat? (rest.length + 1) = some len := by
        rw [hlength]
        exact Word.ofNat?_eq_some_iff.2 rfl
      simp only [hname, and_false, if_false, if_pos harray, hlen, Option.bind_some]
      rw [hfirst]
      rfl

theorem samplersFrom?_textures (stage : Stage) (textures more : List TextureObject)
    (rest : List Declaration) :
    samplersFrom? stage textures
        (more.map (fun texture => .texture texture.binding texture.dim texture.name) ++ rest) =
      samplersFrom? stage (textures ++ more) rest := by
  induction more generalizing textures with
  | nil => rw [List.map_nil, List.nil_append, List.append_nil]
  | cons texture more ih =>
    rw [List.map_cons, List.cons_append, samplersFrom?, ih, List.append_assoc,
      List.singleton_append]

/-- Samplers are put together one after another. -/
theorem samplersFrom?_samplers {stage : Stage} {samplers : List SamplerBinding}
    (h : ∀ s ∈ samplers, s.stage = stage ∧ SamplerFollows s ∧
      (s.arrayLen = some 0 → s.dim = .tex2d)) :
    samplersFrom? stage [] (samplers.flatMap samplerDeclarations) = some samplers := by
  induction samplers with
  | nil => rfl
  | cons s rest ih =>
    obtain ⟨rfl, hfollows, hdim⟩ := h s List.mem_cons_self
    rw [List.flatMap_cons, samplerDeclarations, List.append_assoc, samplersFrom?_textures,
      List.nil_append, List.singleton_append, samplersFrom?, joined?_samplerObjects hfollows hdim,
      ih fun other hother => h other (List.mem_cons_of_mem s hother)]
    rfl

/-! ## A Stage -/

/-- The declarations of a stage, in the order in which they are printed. -/
def declared (r : Registry) : List Declaration :=
  r.attributes.map (fun a => .located a.location .input { name := a.name, ty := a.ty })
    ++ (r.inputs.mergeSort (·.slot ≤ ·.slot)).map (fun input => .located input.slot .input input.var)
    ++ r.outputs.map (fun output => .located output.slot .output output.var)
    ++ r.colorOutputs.map (fun color =>
      .located color.location .output { name := color.name, ty := .vec4 })
    ++ r.blocks.map (fun registered => .block registered.block.binding registered.block.name
      (registered.block.layout.members.map (·.toVariable)))
    ++ (if r.pushConstants.isEmpty then []
        else [.pushConstants ((r.pushConstants.map (·.slot)).map fun slot =>
          (slot.offset, slot.ty, slot.name))])
    ++ r.samplers.flatMap samplerDeclarations

/-- What a stage declares has words as names. -/
structure WordNames (r : Registry) : Prop where
  /-- Vertex attributes. -/
  attributes : ∀ a ∈ r.attributes, IsWord a.name
  /-- Interface inputs. -/
  inputs : ∀ input ∈ r.inputs, IsWord input.var.name
  /-- Interface outputs. -/
  outputs : ∀ output ∈ r.outputs, IsWord output.var.name
  /-- Color outputs. -/
  colorOutputs : ∀ color ∈ r.colorOutputs, IsWord color.name
  /-- Uniform blocks and their members. -/
  blocks : ∀ registered ∈ r.blocks, IsWord registered.block.name ∧
    ∀ member ∈ registered.block.layout.members, IsWord member.name
  /-- Push constants. -/
  pushConstants : ∀ constant ∈ r.pushConstants, IsWord constant.slot.name
  /-- Samplers. -/
  samplers : ∀ s ∈ r.samplers, IsWord s.name

/-- The sections of declarations of a stage are read back. -/
theorem lists_declared {r : Registry} (hnames : WordNames r)
    (hfollows : ∀ s ∈ r.samplers, SamplerFollows s) :
    Lists ((Target.vulkan.attributeSection r ++ Target.vulkan.interfaceSection r
      ++ Target.vulkan.bindingSection r).flatMap lex) declaration (declared r) := by
  have hattributes : Lists ((Target.vulkan.attributeSection r).flatMap lex) declaration _ :=
    Lists.map fun a ha => lists_vertexInput (hnames.attributes a ha)
  have hinputs : Lists (((r.inputs.mergeSort (·.slot ≤ ·.slot)).map
      (Target.vulkan.interfaceVariable · .input)).flatMap lex) declaration _ :=
    Lists.map fun input hinput => lists_interfaceVariable .input
      (hnames.inputs input (List.mem_mergeSort.1 hinput))
  have houtputs : Lists ((r.outputs.map (Target.vulkan.interfaceVariable · .output)).flatMap lex)
      declaration _ :=
    Lists.map fun output houtput => lists_interfaceVariable .output (hnames.outputs output houtput)
  have hcolors : Lists ((r.colorOutputs.map Target.vulkan.colorOutput).flatMap lex) declaration _ :=
    Lists.map fun color hcolor => lists_colorOutput (hnames.colorOutputs color hcolor)
  have hblocks : Lists ((r.blocks.map fun registered =>
      Target.vulkan.uniformBlock registered.block).flatMap lex) declaration _ :=
    Lists.map fun registered hmem => lists_uniformBlock (hnames.blocks registered hmem).1
      (hnames.blocks registered hmem).2
  have hconstants : Lists ((if r.pushConstants.isEmpty then []
      else [Target.vulkan.pushConstants r.stage.mask (r.pushConstants.map (·.slot))]).flatMap lex)
      declaration (if r.pushConstants.isEmpty then []
        else [.pushConstants ((r.pushConstants.map (·.slot)).map fun slot =>
          (slot.offset, slot.ty, slot.name))]) := by
    split
    · exact Lists.nil
    · rw [List.flatMap_singleton]
      refine lists_pushConstants _ fun slot hslot => ?_
      obtain ⟨constant, hconstant, rfl⟩ := List.mem_map.1 hslot
      exact hnames.pushConstants constant hconstant
  have hsamplers : Lists ((r.samplers.map Target.vulkan.sampler).flatMap lex) declaration
      (r.samplers.flatMap samplerDeclarations) := by
    rw [List.flatMap_map]
    exact Lists.flatMap fun s hs => lists_sampler (hnames.samplers s hs) (hfollows s hs)
  unfold Target.interfaceSection Target.bindingSection declared
  simp only [List.flatMap_append, ← List.append_assoc]
  exact (((((hattributes.append hinputs).append houtputs).append hcolors).append hblocks).append
    hconstants).append hsamplers

end ShaderWeave.Source
