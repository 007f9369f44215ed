import Mathlib.Algebra.GroupWithZero.Nat
import Mathlib.Data.List.Nodup
import ShaderWeave.Design
import ShaderWeave.Proofs.Registration

/-!
# The Interface Between the Stages

Interface outputs are allocated one after another, inputs are registered at slots that may come from
anywhere, and only the link compares the two. Registrations keep the outputs a tiling of the slots given
out so far, so in a model that compiles the outputs tile the interface, the inputs are some of the
outputs, and both sources declare them in the same order.

## Main definitions

* `Variable.locations`: the interface locations that a variable takes.
* `Tiles start outputs finish`: outputs lie side by side and cover the locations from `start` to
  `finish`.
* `WellFormedInterface`: what holds of the interface of one stage after any registrations.

## Main results

* `Registration.wellFormedInterface`: a registration keeps the interface of its stage well-formed.
* `sublist_of_sorted`: elements of a list in strictly increasing order keep the order of the list.
* `compile_interface_agrees`: the interface of a compiled shader.
-/

namespace ShaderWeave

/-! ## Tilings -/

/-- Interface locations that a variable takes. -/
def Variable.locations (var : Variable) : Nat :=
  var.ty.locationCount.toNat * var.elementCount.toNat

/-- The locations of an interface variable, from its slot on. -/
def InterfaceSlot.interval (output : InterfaceSlot) : List Nat :=
  List.range' output.slot.toNat output.var.locations

/-- Outputs lie side by side, in order, from `start` to `finish`. -/
def Tiles : Nat → List InterfaceSlot → Nat → Prop
  | start, [], finish => finish = start
  | start, output :: rest, finish =>
    output.slot.toNat = start ∧ Tiles (start + output.var.locations) rest finish

section Tiles

variable {start middle finish : Nat} {outputs more before after : List InterfaceSlot}
  {output : InterfaceSlot}

/-- Of two lists that tile one after the other, the first ends where the second begins. -/
theorem tiles_append_iff :
    Tiles start (outputs ++ more) finish ↔
      ∃ middle, Tiles start outputs middle ∧ Tiles middle more finish := by
  induction outputs generalizing start with
  | nil => simp [Tiles]
  | cons output rest ih => simp [Tiles, ih, and_assoc]

/-- A tiling ends after as many locations as its outputs take. -/
theorem Tiles.finish_eq (h : Tiles start outputs finish) :
    finish = start + (outputs.map (·.var.locations)).sum := by
  induction outputs generalizing start with
  | nil => simpa [Tiles] using h
  | cons output rest ih =>
    rw [ih h.2, List.map_cons, List.sum_cons, Nat.add_assoc]

/-- The locations of a tiling, one output after another, are those from its start to its end. -/
theorem Tiles.flatMap_interval (h : Tiles start outputs finish) :
    outputs.flatMap InterfaceSlot.interval =
      List.range' start (outputs.map (·.var.locations)).sum := by
  induction outputs generalizing start with
  | nil => rfl
  | cons output rest ih =>
    rw [List.flatMap_cons, ih h.2, InterfaceSlot.interval, h.1, List.map_cons, List.sum_cons,
      List.range'_append_1]

/-- An output of a tiling begins after the locations of those before it. -/
theorem Tiles.slot_eq (h : Tiles start (before ++ output :: after) finish) :
    output.slot.toNat = start + (before.map (·.var.locations)).sum := by
  obtain ⟨middle, hbefore, hslot, -⟩ := tiles_append_iff.1 h
  rw [hslot, hbefore.finish_eq]

theorem Tiles.start_le_slot (h : Tiles start outputs finish) (hmem : output ∈ outputs) :
    start ≤ output.slot.toNat := by
  obtain ⟨before, after, rfl⟩ := List.append_of_mem hmem
  rw [h.slot_eq]
  exact Nat.le_add_right _ _

/-- The slots of a tiling do not decrease. -/
theorem Tiles.pairwise_slot_le (h : Tiles start outputs finish) :
    outputs.Pairwise fun a b => a.slot ≤ b.slot := by
  induction outputs generalizing start with
  | nil => exact .nil
  | cons output rest ih =>
    refine .cons (fun other hmem => ?_) (ih h.2)
    have hother := h.2.start_le_slot hmem
    rw [UInt32.le_iff_toNat_le, h.1]
    exact Nat.le_trans (Nat.le_add_right _ _) hother

end Tiles

/-! ## What Registrations Keep -/

/-- The interface of a stage is well-formed: its outputs tile the slots given out, no two of its
interface variables share a name, and no two of its inputs share a slot. -/
structure WellFormedInterface (r : Registry) : Prop where
  /-- The outputs tile the slots that have been given out. -/
  tiles : Tiles 0 r.outputs r.nextSlot.toNat
  /-- Interface variables have different names. -/
  names : ((r.outputs ++ r.inputs).map (·.var.name)).Nodup
  /-- Inputs have different slots. -/
  slots : (r.inputs.map (·.slot)).Nodup

theorem interfaceNameTaken_eq_false_iff {r : Registry} {name : String} :
    r.interfaceNameTaken name = false ↔ name ∉ (r.outputs ++ r.inputs).map (·.var.name) := by
  simp [Registry.interfaceNameTaken]

/-- The slot after an output is after the locations that the output takes. -/
theorem slotAfter?_eq_some {r : Registry} {var : Variable} {nextSlot : UInt32}
    (h : r.slotAfter? var = some nextSlot) : nextSlot.toNat = r.nextSlot.toNat + var.locations := by
  obtain ⟨count, hcount, hsum⟩ := Option.bind_eq_some_iff.1 h
  rw [Word.add?_eq_some_iff.1 hsum, Word.mul?_eq_some_iff.1 hcount, Variable.locations]

/-- A registration keeps the interface of its stage well-formed. -/
theorem Registration.wellFormedInterface {r r' : Registry} (h : Registration r r')
    (hr : WellFormedInterface r) : WellFormedInterface r' := by
  cases h with
  | output var nextSlot hname hnext =>
    refine ⟨tiles_append_iff.2 ⟨_, hr.tiles, rfl, ?_⟩, ?_, hr.slots⟩
    · exact slotAfter?_eq_some hnext
    · -- The new name stands between those of the outputs and those of the inputs.
      have hfresh := interfaceNameTaken_eq_false_iff.1 hname
      rw [List.append_assoc, List.singleton_append, (List.perm_middle.map _).nodup_iff]
      exact List.nodup_cons.2 ⟨hfresh, hr.names⟩
  | input slot var hslot hname =>
    refine ⟨hr.tiles, ?_, ?_⟩
    · have hfresh := interfaceNameTaken_eq_false_iff.1 hname
      rw [← List.append_assoc, List.map_append]
      exact List.nodup_append_comm.1 (List.nodup_cons.2 ⟨hfresh, hr.names⟩)
    · have hfresh : slot ∉ r.inputs.map (·.slot) := by
        intro hmem
        obtain ⟨input, hinput, rfl⟩ := List.mem_map.1 hmem
        exact absurd (List.find?_eq_none.1 hslot input hinput) (by simp)
      rw [List.map_append]
      exact List.nodup_append_comm.1 (List.nodup_cons.2 ⟨hfresh, hr.slots⟩)
  | channel | vertexAttribute | colorOutput | block | pushConstant | sampler =>
    exact ⟨hr.tiles, hr.names, hr.slots⟩

/-- The interface of a stage that is entered is well-formed after any registrations. -/
theorem Registrations.wellFormedInterface {r r' : Registry} (h : Registrations r r')
    (hr : WellFormedInterface r) : WellFormedInterface r' :=
  h.keep (fun _ _ hstep => hstep.wellFormedInterface) hr

/-- A stage is entered with an empty interface. -/
theorem wellFormedInterface_of_empty {r : Registry} (houtputs : r.outputs = [])
    (hinputs : r.inputs = []) (hslot : r.nextSlot = 0) : WellFormedInterface r := by
  refine ⟨?_, ?_, ?_⟩
  · rw [houtputs, hslot]
    rfl
  · simp [houtputs, hinputs]
  · simp [hinputs]

/-! ## Linking and Declaring -/

/-- Inputs that link are outputs of the producing stage. -/
theorem mem_outputs_of_verifyLink {producer consumer : Registry}
    (h : verifyLink producer consumer = .ok ()) {input : InterfaceSlot}
    (hinput : input ∈ consumer.inputs) : input ∈ producer.outputs := by
  -- The output that is found has the slot of the input, and linking compares the variables.
  have hmatch := forM_eq_ok h input hinput
  split at hmatch
  · cases hmatch
  · rename_i output hfind
    split at hmatch
    · rename_i hvar
      have hslot : output.slot = input.slot := by simpa using List.find?_some hfind
      have heq : output = input := by
        cases output
        cases input
        simp_all
      exact heq ▸ List.mem_of_find?_eq_some hfind
    · cases hmatch

/-- Elements of a list whose keys do not decrease stand in the order of the list once they are put in
strictly increasing order. -/
theorem sublist_of_sorted {outputs inputs : List InterfaceSlot}
    (houtputs : outputs.Pairwise fun a b => a.slot ≤ b.slot)
    (hinputs : inputs.Pairwise fun a b => a.slot < b.slot) (hsubset : inputs ⊆ outputs) :
    inputs.Sublist outputs := by
  induction outputs generalizing inputs with
  | nil => rw [List.subset_nil.1 hsubset]
  | cons output rest ih =>
    obtain ⟨hoverall, hrest⟩ := List.pairwise_cons.1 houtputs
    cases inputs with
    | nil => exact List.nil_sublist _
    | cons input more =>
      obtain ⟨hleast, hmore⟩ := List.pairwise_cons.1 hinputs
      by_cases heq : input = output
      · -- The least input is the first output, and no later input is it again.
        subst heq
        refine (ih hrest hmore fun other hother => ?_).cons_cons input
        rcases List.mem_cons.1 (hsubset (List.mem_cons_of_mem _ hother)) with rfl | hmem
        · exact absurd (hleast _ hother) (UInt32.lt_irrefl _)
        · exact hmem
      · -- The first output is below every input, so none is it.
        refine (ih hrest hinputs fun other hother => ?_).cons output
        have hinput : input ∈ rest :=
          (List.mem_cons.1 (hsubset List.mem_cons_self)).resolve_left heq
        rcases List.mem_cons.1 (hsubset hother) with rfl | hmem
        · rcases List.mem_cons.1 hother with rfl | hlater
          · exact absurd rfl heq
          · exact absurd (hleast _ hlater) (UInt32.not_lt.2 (hoverall _ hinput))
        · exact hmem

/-- Inputs with different slots are declared in strictly increasing order of their slots. -/
theorem pairwise_mergeSort_slot {inputs : List InterfaceSlot}
    (hslots : (inputs.map (·.slot)).Nodup) :
    (inputs.mergeSort (·.slot ≤ ·.slot)).Pairwise fun a b => a.slot < b.slot := by
  have hsorted : (inputs.mergeSort (·.slot ≤ ·.slot)).Pairwise
      fun a b => decide (a.slot ≤ b.slot) = true := by
    refine List.pairwise_mergeSort ?_ ?_ inputs
    · intro a b c hab hbc
      rw [decide_eq_true_eq] at *
      exact UInt32.le_trans hab hbc
    · intro a b
      rw [Bool.or_eq_true, decide_eq_true_eq, decide_eq_true_eq]
      exact UInt32.le_total a.slot b.slot
  have hdistinct : ((inputs.mergeSort (·.slot ≤ ·.slot)).map (·.slot)).Nodup :=
    ((List.mergeSort_perm inputs _).map _).nodup_iff.2 hslots
  refine (hsorted.and (List.pairwise_map.1 hdistinct)).imp ?_
  rintro a b ⟨hle, hne⟩
  exact UInt32.lt_of_le_of_ne (by simpa using hle) hne

/-- The declarations of the interface are a section of the source. -/
theorem sections_eq_interface (target : Target) (program : StageProgram) :
    ∃ before after, program.sections target =
      before ++ StageProgram.declarations (target.interfaceSection program.registry) ++ after :=
  ⟨target.preamble :: StageProgram.declarations (target.attributeSection program.registry),
    StageProgram.declarations (target.bindingSection program.registry)
      ++ program.code.helpers.map (fun helper => trimIndent helper.2)
      ++ [program.mainRoutine],
    by simp [StageProgram.sections]⟩

/-! ## The Interface of a Compiled Shader -/

/-- The two stages of a shader agree on the interface between them. -/
structure InterfaceAgreement (shader : Shader) : Prop where
  /-- Each output begins right after the locations of the outputs before it. -/
  slot_eq : ∀ before output after, shader.interface = before ++ output :: after →
    output.slot.toNat = (before.map (·.var.locations)).sum
  /-- The locations of the outputs, one output after another, are all locations of the interface. -/
  covers : shader.interface.flatMap InterfaceSlot.interval =
    List.range shader.interfaceSlotCount.toNat
  /-- There are as many locations as the outputs take. -/
  slotCount_eq : shader.interfaceSlotCount.toNat = (shader.interface.map (·.var.locations)).sum
  /-- Every input of the fragment stage is an output of the vertex stage, at the same slot and with the
  same name, type and length. -/
  linked : ∀ input ∈ shader.fragment.registry.inputs, input ∈ shader.interface
  /-- No two inputs of the fragment stage have the same slot. -/
  slots : (shader.fragment.registry.inputs.map (·.slot)).Nodup
  /-- No two interface variables of a stage have the same name. -/
  names : ∀ program ∈ [shader.vertex, shader.fragment],
    ((program.registry.outputs ++ program.registry.inputs).map (·.var.name)).Nodup
  /-- The source of the fragment stage declares the inputs in the order in which the source of the
  vertex stage declares the same outputs. -/
  declared : ∀ target : Target, ∃ matched : List InterfaceSlot,
    matched.Sublist shader.interface ∧ matched.Perm shader.fragment.registry.inputs ∧
    (∃ before after, shader.fragment.sections target = before ++ StageProgram.declarations
      (matched.map (target.interfaceVariable · .input)
        ++ shader.fragment.registry.outputs.map (target.interfaceVariable · .output)
        ++ shader.fragment.registry.colorOutputs.map target.colorOutput) ++ after) ∧
    ∃ before inputs after, shader.vertex.sections target = before ++ StageProgram.declarations
      (inputs ++ shader.interface.map (target.interfaceVariable · .output)
        ++ shader.vertex.registry.colorOutputs.map target.colorOutput) ++ after

/-- Stage interface agreement. In every model that compiles, however its nodes allocate outputs and
register inputs, the outputs of the vertex stage tile the interface, the inputs of the fragment stage
are some of them, interface variables of a stage have different names, and both sources declare what
they share in the same order. -/
theorem compile_interface_agrees {m : Model} {input : CompileInput} {shader : Shader}
    (h : (m.compile input).outcome = .ok shader) : InterfaceAgreement shader := by
  obtain ⟨hvertex, hfragment, hlink⟩ := compile_registrations h
  have hproducer : WellFormedInterface shader.vertex.registry :=
    hvertex.wellFormedInterface (wellFormedInterface_of_empty rfl rfl rfl)
  have hconsumer : WellFormedInterface shader.fragment.registry :=
    hfragment.wellFormedInterface (wellFormedInterface_of_empty rfl rfl rfl)
  have hcount := hproducer.tiles.finish_eq
  rw [Nat.zero_add] at hcount
  refine ⟨?_, ?_, hcount, fun input hinput => mem_outputs_of_verifyLink hlink hinput,
    hconsumer.slots, ?_, ?_⟩
  · intro before output after heq
    have htiles := hproducer.tiles
    unfold Shader.interface at heq
    rw [heq] at htiles
    rw [htiles.slot_eq, Nat.zero_add]
  · unfold Shader.interface Shader.interfaceSlotCount
    rw [hproducer.tiles.flatMap_interval, ← hcount, List.range_eq_range']
  · intro program hprogram
    rcases List.mem_pair.1 hprogram with rfl | rfl
    · exact hproducer.names
    · exact hconsumer.names
  · intro target
    have hperm := List.mergeSort_perm shader.fragment.registry.inputs (·.slot ≤ ·.slot)
    refine ⟨shader.fragment.registry.inputs.mergeSort (·.slot ≤ ·.slot), ?_, hperm,
      sections_eq_interface target shader.fragment, ?_⟩
    · refine sublist_of_sorted hproducer.tiles.pairwise_slot_le
        (pairwise_mergeSort_slot hconsumer.slots) fun input hinput => ?_
      exact mem_outputs_of_verifyLink hlink (hperm.mem_iff.1 hinput)
    · obtain ⟨before, after, hsections⟩ := sections_eq_interface target shader.vertex
      exact ⟨before, _, after, hsections⟩

/-- Two channels that the fragment stage reads in another order than the vertex stage allocates them,
one of them an array that is read twice. -/
def crossedChannels : Design :=
  let positions : Channel :=
    { id := 0, var := { name := "positions", ty := .vec4, arrayLen := some 2 } }
  let coordinate : Channel := { id := 1, var := { name := "coordinate", ty := .vec2 } }
  { name := "crossed"
    vertex :=
      [.library (.endpoint (.producer positions default)),
        .library (.endpoint (.producer coordinate { value := .ofVec4 .zero .zero .zero .zero }))]
    fragment :=
      [.library (.endpoint (.consumer coordinate coordinate.var)),
        .library (.endpoint (.consumer positions positions.var)),
        .library (.endpoint (.consumer positions positions.var))] }

/-- The array takes slots zero and one, and the inputs stand the other way round. -/
theorem crossedChannels_interface_agrees :
    ∃ shader, (crossedChannels.model.compile { target := .vulkan }).outcome = .ok shader ∧
      (shader.interfaceSlotCount, shader.fragment.registry.inputs.map (·.slot)) = (3, [2, 0]) ∧
      InterfaceAgreement shader := by
  have hcompiles : (crossedChannels.model.compile { target := .vulkan }).outcome.toOption.map
      (fun shader => (shader.interfaceSlotCount, shader.fragment.registry.inputs.map (·.slot))) =
        some (3, [2, 0]) := by
    decide +kernel
  obtain ⟨shader, hshader, hslots⟩ := exists_ok_of_map_eq hcompiles
  exact ⟨shader, hshader, hslots, compile_interface_agrees hshader⟩

end ShaderWeave
