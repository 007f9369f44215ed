import Mathlib.Data.List.Nodup
import ShaderWeave.Design
import ShaderWeave.Proofs.Registration

/-!
# The Layout of the Pipeline

Both stages of a model draw binding numbers and push-constant bytes from the same counters, the vertex
stage first. Registrations keep what a stage has drawn a contiguous part of each, so in a model that
compiles nothing is used twice, nothing is left out, and one layout serves both stages.

## Main definitions

* `Registry.bindingNumbers`: the binding numbers that blocks and samplers of a stage take.
* `Packed start slots finish`: push constants follow each other at the least offsets of their
  alignments, from `start` to `finish`.
* `WellFormedBindings`, `PackedConstants`: what holds of one stage after any registrations.

## Main results

* `Registration.wellFormedBindings`, `Registration.packedConstants`: a registration keeps them.
* `compile_pipeline_layout`: the layout of a compiled shader.
-/

namespace ShaderWeave

/-! ## Push Constants -/

/-- A push constant has the size of its type and the least offset of its alignment that is not below
`start`. -/
def PushConstantSlot.PlacedAfter (slot : PushConstantSlot) (start : Nat) : Prop :=
  ∃ align size, slot.ty.std430 = some (align, size) ∧ slot.size = size ∧
    align.toNat ∣ slot.offset.toNat ∧ start ≤ slot.offset.toNat ∧
    ∀ k, align.toNat ∣ k → start ≤ k → slot.offset.toNat ≤ k

/-- The first byte after a push constant. -/
def PushConstantSlot.finish (slot : PushConstantSlot) : Nat :=
  slot.offset.toNat + slot.size.toNat

/-- The first byte after the last of some push constants. -/
def pushConstantEnd (slots : List PushConstantSlot) : Nat :=
  (slots.getLast?.map PushConstantSlot.finish).getD 0

/-- Push constants are placed one after another, from `start` to `finish`. -/
def Packed : Nat → List PushConstantSlot → Nat → Prop
  | start, [], finish => finish = start
  | start, slot :: rest, finish => slot.PlacedAfter start ∧ Packed slot.finish rest finish

section Packed

variable {start finish : Nat} {slots more before after : List PushConstantSlot}
  {slot : PushConstantSlot}

theorem packed_append_iff :
    Packed start (slots ++ more) finish ↔
      ∃ middle, Packed start slots middle ∧ Packed middle more finish := by
  induction slots generalizing start with
  | nil => simp [Packed]
  | cons slot rest ih => simp [Packed, ih, and_assoc]

/-- Push constants end where the last of them ends. -/
theorem Packed.finish_eq (h : Packed start slots finish) :
    finish = (slots.getLast?.map PushConstantSlot.finish).getD start := by
  induction slots generalizing start with
  | nil => exact h
  | cons slot rest ih =>
    rw [ih h.2, List.getLast?_cons]
    cases rest.getLast? <;> rfl

theorem Packed.start_le (h : Packed start slots finish) (hmem : slot ∈ slots) :
    start ≤ slot.offset.toNat := by
  induction slots generalizing start with
  | nil => cases hmem
  | cons first rest ih =>
    obtain ⟨align, size, -, -, -, hstart, -⟩ := h.1
    rcases List.mem_cons.1 hmem with rfl | hmem
    · exact hstart
    · have hlater := ih h.2 hmem
      unfold PushConstantSlot.finish at hlater
      omega

/-- Push constants do not overlap. -/
theorem Packed.pairwise (h : Packed start slots finish) :
    slots.Pairwise fun a b => a.finish ≤ b.offset.toNat := by
  induction slots generalizing start with
  | nil => exact .nil
  | cons slot rest ih => exact .cons (fun other hmem => h.2.start_le hmem) (ih h.2)

/-- Each push constant is placed after the one before it. -/
theorem Packed.placedAfter (h : Packed 0 (before ++ slot :: after) finish) :
    slot.PlacedAfter (pushConstantEnd before) := by
  obtain ⟨middle, hbefore, hslot, -⟩ := packed_append_iff.1 h
  rw [hbefore.finish_eq] at hslot
  exact hslot

end Packed

/-- The push constants of a stage are placed one after another from `start` on. -/
def PackedConstants (start : Nat) (r : Registry) : Prop :=
  Packed start (r.pushConstants.map (·.slot)) r.pushConstantSize.toNat

/-- Types that can be push constants have an alignment. -/
theorem align_ne_zero_of_std430 {ty : ValueType} {align size : UInt32}
    (h : ty.std430 = some (align, size)) : align ≠ 0 := by
  unfold ValueType.std430 at h
  split at h <;> cases h <;> decide

/-- A push constant is placed after the bytes that are taken, and ends where the next can begin. -/
theorem pushConstantExtent?_eq_some {r : Registry} {align size offset finish : UInt32}
    (halign : align ≠ 0) (h : r.pushConstantExtent? align size = some (offset, finish)) :
    finish.toNat = offset.toNat + size.toNat ∧ align.toNat ∣ offset.toNat ∧
      r.pushConstantSize.toNat ≤ offset.toNat ∧
      ∀ k, align.toNat ∣ k → r.pushConstantSize.toNat ≤ k → offset.toNat ≤ k := by
  obtain ⟨rounded, hrounded, h⟩ := Option.bind_eq_some_iff.1 h
  obtain ⟨sum, hsum, h⟩ := Option.bind_eq_some_iff.1 h
  cases h
  exact ⟨Word.add?_eq_some_iff.1 hsum, Word.roundUp?_least halign hrounded⟩

/-- A registration keeps push constants placed one after another. -/
theorem Registration.packedConstants {start : Nat} {r r' : Registry} (h : Registration r r')
    (hr : PackedConstants start r) : PackedConstants start r' := by
  cases h with
  | pushConstant constant align size offset finish hname hty hextent =>
    obtain ⟨hfinish, hplaced⟩ :=
      pushConstantExtent?_eq_some (align_ne_zero_of_std430 hty) hextent
    unfold PackedConstants
    rw [List.map_append, packed_append_iff]
    exact ⟨_, hr, ⟨align, size, hty, rfl, hplaced⟩, hfinish⟩
  | output | channel | input | vertexAttribute | colorOutput | block | sampler => exact hr

/-! ## Bindings -/

/-- The binding numbers of a sampled texture, from that of its first texture to that of its sampler. -/
def SamplerBinding.numbers (sampler : SamplerBinding) : List Nat :=
  List.range' sampler.binding.toNat (sampler.samplerBinding.toNat + 1 - sampler.binding.toNat)

/-- The binding numbers that a stage takes: one for each uniform block, and those of each sampled
texture. -/
def Registry.bindingNumbers (r : Registry) : List Nat :=
  r.blocks.map (·.block.binding.toNat) ++ r.samplers.flatMap SamplerBinding.numbers

/-- The names of the blocks, push constants and samplers of a stage. -/
def Registry.bindingNames (r : Registry) : List String :=
  r.blocks.map (·.block.name) ++ (r.pushConstants.map (·.slot.name) ++ r.samplers.map (·.name))

/-- The bindings of a stage that began to register at binding `start` are well-formed: each number from
`start` to the next free one is taken once, a sampled texture has a binding for each of its textures and
one for its sampler, and names are different. -/
structure WellFormedBindings (start : Nat) (r : Registry) : Prop where
  /-- Bindings are given out upwards. -/
  start_le : start ≤ r.nextBinding.toNat
  /-- Each number that has been given out is taken once. -/
  numbers : r.bindingNumbers.Perm (List.range' start (r.nextBinding.toNat - start))
  /-- The sampler comes right after the textures. -/
  samplers : ∀ sampler ∈ r.samplers,
    sampler.samplerBinding.toNat = sampler.binding.toNat + (sampler.arrayLen.getD 1).toNat
  /-- Blocks, push constants and samplers have different names. -/
  names : r.bindingNames.Nodup

theorem bindingNameTaken_eq_false_iff {r : Registry} {name : String} :
    r.bindingNameTaken name = false ↔ name ∉ r.bindingNames := by
  simp [Registry.bindingNameTaken, Registry.bindingNames, and_assoc]

/-- Names stay different when one that is not taken is put among them, wherever it is put. -/
theorem nodup_of_bindingName {r : Registry} {name : String} {names : List String}
    (hname : r.bindingNameTaken name = false) (hr : r.bindingNames.Nodup)
    (hperm : names.Perm (name :: r.bindingNames)) : names.Nodup :=
  hperm.nodup_iff.2 (List.nodup_cons.2 ⟨bindingNameTaken_eq_false_iff.1 hname, hr⟩)

/-- The sampler comes right after its textures, and the next free binding right after it. -/
theorem samplerBindings?_eq_some {r : Registry} {textures samplerBinding nextBinding : UInt32}
    (h : r.samplerBindings? textures = some (samplerBinding, nextBinding)) :
    samplerBinding.toNat = r.nextBinding.toNat + textures.toNat ∧
      nextBinding.toNat = samplerBinding.toNat + 1 := by
  obtain ⟨binding, hbinding, h⟩ := Option.bind_eq_some_iff.1 h
  obtain ⟨next, hnext, h⟩ := Option.bind_eq_some_iff.1 h
  cases h
  exact ⟨Word.add?_eq_some_iff.1 hbinding, Word.add?_eq_some_iff.1 hnext⟩

/-- Numbers that are taken from the next free one on continue those that were taken before. -/
theorem range'_perm_of_taken {start next count : Nat} {numbers : List Nat} (hstart : start ≤ next)
    (hnumbers : numbers.Perm (List.range' start (next - start))) :
    (numbers ++ List.range' next count).Perm (List.range' start (next + count - start)) := by
  have hrange : List.range' start (next + count - start) =
      List.range' start (next - start) ++ List.range' next count := by
    have hnext : next = start + (next - start) := by omega
    have hcount : next + count - start = (next - start) + count := by omega
    rw [hcount, ← List.range'_append_1]
    rw [← hnext]
  rw [hrange]
  exact hnumbers.append_right _

/-- A registration keeps the bindings of its stage well-formed. -/
theorem Registration.wellFormedBindings {start : Nat} {r r' : Registry} (h : Registration r r')
    (hr : WellFormedBindings start r) : WellFormedBindings start r' := by
  cases h with
  | block name members update layout nextBinding hname hmembers hlayout hnext =>
    have hnextNat : nextBinding.toNat = r.nextBinding.toNat + 1 := Word.add?_eq_some_iff.1 hnext
    have hgrows : r.nextBinding.toNat ≤ nextBinding.toNat := by omega
    refine ⟨Nat.le_trans hr.start_le hgrows, ?_, hr.samplers, ?_⟩
    · -- The new number stands among those of the blocks.
      have hmoved : (r.blocks.map (·.block.binding.toNat) ++ [r.nextBinding.toNat]
          ++ r.samplers.flatMap SamplerBinding.numbers).Perm
            (r.bindingNumbers ++ List.range' r.nextBinding.toNat 1) := by
        rw [List.append_assoc, Registry.bindingNumbers, List.append_assoc]
        exact List.perm_append_comm.append_left _
      have hall := hmoved.trans (range'_perm_of_taken hr.start_le hr.numbers)
      simpa [Registry.bindingNumbers, hnextNat] using hall
    · have hmoved : (r.blocks.map (·.block.name) ++ [name]
          ++ (r.pushConstants.map (·.slot.name) ++ r.samplers.map (·.name))).Perm
            (name :: r.bindingNames) := by
        rw [List.append_assoc, List.singleton_append]
        exact List.perm_middle
      have hall := nodup_of_bindingName hname hr.names hmoved
      simpa [Registry.bindingNames] using hall
  | pushConstant constant align size offset finish hname hty hextent =>
    refine ⟨hr.start_le, hr.numbers, hr.samplers, ?_⟩
    have hmoved : (r.blocks.map (·.block.name)
        ++ (r.pushConstants.map (·.slot.name) ++ [constant.var.name] ++ r.samplers.map (·.name))).Perm
          (constant.var.name :: r.bindingNames) := by
      rw [List.append_assoc, List.singleton_append, ← List.append_assoc, Registry.bindingNames,
        ← List.append_assoc]
      exact List.perm_middle
    have hall := nodup_of_bindingName hname hr.names hmoved
    simpa [Registry.bindingNames] using hall
  | sampler name dim arrayLen samplerBinding nextBinding hname hbindings =>
    obtain ⟨hsampler, hnext⟩ := samplerBindings?_eq_some hbindings
    have hgrows : r.nextBinding.toNat ≤ nextBinding.toNat := by omega
    refine ⟨Nat.le_trans hr.start_le hgrows, ?_, ?_, ?_⟩
    · -- The range of the sampled texture ends with its sampler, so it holds one number more than there
      -- are textures.
      have hcount : samplerBinding.toNat + 1 - r.nextBinding.toNat = (arrayLen.getD 1).toNat + 1 := by
        omega
      have hend : nextBinding.toNat = r.nextBinding.toNat + ((arrayLen.getD 1).toNat + 1) := by omega
      have hall : (r.bindingNumbers
          ++ List.range' r.nextBinding.toNat ((arrayLen.getD 1).toNat + 1)).Perm
            (List.range' start (nextBinding.toNat - start)) := by
        rw [hend]
        exact range'_perm_of_taken hr.start_le hr.numbers
      simpa [Registry.bindingNumbers, SamplerBinding.numbers, hcount] using hall
    · intro sampler hmem
      rcases List.mem_append.1 hmem with hmem | hmem
      · exact hr.samplers sampler hmem
      · obtain rfl := List.mem_singleton.1 hmem
        exact hsampler
    · have hall : (r.bindingNames ++ [name]).Nodup :=
        nodup_of_bindingName hname hr.names (List.perm_append_singleton _ _)
      simpa [Registry.bindingNames] using hall
  | output | channel | input | vertexAttribute | colorOutput =>
    exact ⟨hr.start_le, hr.numbers, hr.samplers, hr.names⟩

/-- A stage is entered with no bindings. -/
theorem wellFormedBindings_of_empty {r : Registry} {start : Nat}
    (hstart : r.nextBinding.toNat = start) (hblocks : r.blocks = [])
    (hconstants : r.pushConstants = []) (hsamplers : r.samplers = []) :
    WellFormedBindings start r := by
  refine ⟨Nat.le_of_eq hstart.symm, ?_, ?_, ?_⟩
  · simp [Registry.bindingNumbers, hblocks, hsamplers, hstart]
  · simp [hsamplers]
  · simp [Registry.bindingNames, hblocks, hconstants, hsamplers]

/-! ## The Layout of a Compiled Shader -/

/-- The two stages of a shader share one layout. -/
structure OneLayout (shader : Shader) : Prop where
  /-- Both stages together take each binding number up to some count, and each of them once. -/
  partition : ∃ count, (shader.vertex.registry.bindingNumbers
    ++ shader.fragment.registry.bindingNumbers).Perm (List.range count)
  /-- The numbers of the vertex stage come before those of the fragment stage. -/
  vertex_lt_fragment : ∀ v ∈ shader.vertex.registry.bindingNumbers,
    ∀ f ∈ shader.fragment.registry.bindingNumbers, v < f
  /-- A sampled texture has a binding for each of its textures, then one for its sampler. -/
  samplers : ∀ sampler ∈ shader.samplers,
    sampler.samplerBinding.toNat = sampler.binding.toNat + (sampler.arrayLen.getD 1).toNat
  /-- Push constants do not overlap. -/
  disjoint : (shader.pushConstants.map (·.slot)).Pairwise fun a b => a.finish ≤ b.offset.toNat
  /-- Each push constant has the size of its type, at the least offset of its alignment that is not
  below the end of the one registered before it. -/
  placed : ∀ before slot after, shader.pushConstants.map (·.slot) = before ++ slot :: after →
    slot.PlacedAfter (pushConstantEnd before)
  /-- The push constants end where the last of them ends. -/
  size_eq : shader.pushConstantSize.toNat = pushConstantEnd (shader.pushConstants.map (·.slot))
  /-- No two blocks, push constants or samplers of a stage have the same name. -/
  names : ∀ program ∈ [shader.vertex, shader.fragment], program.registry.bindingNames.Nodup

/-- One pipeline layout. In every model that compiles, whatever its nodes register and in whatever
order, the bindings of both stages are numbered without gap or repetition, first those of the vertex
stage; push constants of both stages follow each other, each at the first offset that its type allows;
and within a stage names are different. -/
theorem compile_pipeline_layout {m : Model} {input : CompileInput} {shader : Shader}
    (h : (m.compile input).outcome = .ok shader) : OneLayout shader := by
  obtain ⟨hvertex, hfragment, -⟩ := compile_registrations h
  have hvertexBindings : WellFormedBindings 0 shader.vertex.registry :=
    hvertex.keep (fun _ _ hstep => hstep.wellFormedBindings)
      (wellFormedBindings_of_empty rfl rfl rfl rfl)
  have hfragmentBindings :
      WellFormedBindings shader.vertex.registry.nextBinding.toNat shader.fragment.registry :=
    hfragment.keep (fun _ _ hstep => hstep.wellFormedBindings)
      (wellFormedBindings_of_empty rfl rfl rfl rfl)
  have hvertexPacked : PackedConstants 0 shader.vertex.registry :=
    hvertex.keep (fun _ _ hstep => hstep.packedConstants) rfl
  have hfragmentPacked :
      PackedConstants shader.vertex.registry.pushConstantSize.toNat shader.fragment.registry :=
    hfragment.keep (fun _ _ hstep => hstep.packedConstants) rfl
  -- The fragment stage goes on where the vertex stage ended, so both are packed as one.
  have hpacked : Packed 0 (shader.pushConstants.map (·.slot)) shader.pushConstantSize.toNat := by
    rw [Shader.pushConstants, List.map_append]
    exact packed_append_iff.2 ⟨_, hvertexPacked, hfragmentPacked⟩
  refine ⟨?_, ?_, ?_, hpacked.pairwise, ?_, hpacked.finish_eq, ?_⟩
  · refine ⟨shader.fragment.registry.nextBinding.toNat, ?_⟩
    have hall := (hfragmentBindings.numbers.append_left shader.vertex.registry.bindingNumbers).trans
      (range'_perm_of_taken hvertexBindings.start_le hvertexBindings.numbers)
    rwa [Nat.add_sub_cancel' hfragmentBindings.start_le, Nat.sub_zero, ← List.range_eq_range']
      at hall
  · -- The next free number of the vertex stage parts the two ranges.
    intro v hv f hf
    have hvertexRange := List.mem_range'_1.1 (hvertexBindings.numbers.mem_iff.1 hv)
    have hfragmentRange := List.mem_range'_1.1 (hfragmentBindings.numbers.mem_iff.1 hf)
    omega
  · intro sampler hmem
    rcases List.mem_append.1 hmem with hmem | hmem
    · exact hvertexBindings.samplers sampler hmem
    · exact hfragmentBindings.samplers sampler hmem
  · intro before slot after heq
    rw [heq] at hpacked
    exact hpacked.placedAfter
  · intro program hprogram
    rcases List.mem_pair.1 hprogram with rfl | rfl
    · exact hvertexBindings.names
    · exact hfragmentBindings.names

/-- A block and a float in the vertex stage; in the fragment stage an array of textures, a vector that
has to be aligned, and another texture. -/
def mixedResources : Design where
  name := "mixed"
  vertex :=
    [.library .camera,
      .library (.endpoint (.pushConstant { var := { name := "uTime", ty := .float }, cell := 0 }))]
  fragment :=
    [.library (.texture (.binding "tLayers" (some 3))),
      .library (.endpoint (.pushConstant { var := { name := "uTint", ty := .vec3 }, cell := 1 })),
      .library (.texture (.binding "tBase" none))]

/-- The block takes binding zero, the array takes bindings one to four, and the other texture the two
after them; the vector begins at the next multiple of sixteen. -/
theorem mixedResources_pipeline_layout :
    ∃ shader, (mixedResources.model.compile { target := .vulkan }).outcome = .ok shader ∧
      (shader.vertex.registry.bindingNumbers, shader.fragment.registry.bindingNumbers,
        shader.pushConstants.map (·.slot.offset), shader.pushConstantSize) =
          ([0], [1, 2, 3, 4, 5, 6], [0, 16], 28) ∧
      OneLayout shader := by
  have hcompiles : (mixedResources.model.compile { target := .vulkan }).outcome.toOption.map
      (fun shader => (shader.vertex.registry.bindingNumbers, shader.fragment.registry.bindingNumbers,
        shader.pushConstants.map (·.slot.offset), shader.pushConstantSize)) =
          some ([0], [1, 2, 3, 4, 5, 6], [0, 16], 28) := by
    decide +kernel
  obtain ⟨shader, hshader, hlayout⟩ := exists_ok_of_map_eq hcompiles
  exact ⟨shader, hshader, hlayout, compile_pipeline_layout hshader⟩

end ShaderWeave
