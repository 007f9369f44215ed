import ShaderWeave.Preset
import ShaderWeave.Proofs.DeclaredBeforeRead
import ShaderWeave.Proofs.StageInterface

/-!
# The Slots of Channels

A model in which values are only carried from the vertex to the fragment stage. Its nodes depend on
nothing, so both stages are set up in order of registration: each producer gets the slot after the
locations of the channels before it, and each consumer is registered at the slot of its channel. A
channel that takes no location leaves its slot to the next one, and the consumers of the two collide.

## Main definitions

* `carryingModel`: the model that results from carrying values, one after another.
* `ChannelsLinked`: every channel has a slot of its own, at which its consumer is registered.

## Main results

* `Tiles.nodup_slots_iff`: side by side, outputs have different slots unless one that is not the last
  takes no location.
* `performed_setups_of_step`: what each setup keeps, the setups of a whole stage keep.
* `channels_linked_iff`: when carrying values succeeds, and how it fails.
-/

namespace ShaderWeave

/-! ## Slots Side by Side -/

/-- Outputs that lie side by side have different slots exactly if each of them, the last one apart,
takes a location. -/
theorem Tiles.nodup_slots_iff {start finish : Nat} {outputs : List InterfaceSlot}
    (h : Tiles start outputs finish) :
    (outputs.map (·.slot)).Nodup ↔ ∀ output ∈ outputs.dropLast, 0 < output.var.locations := by
  induction outputs generalizing start with
  | nil => simp
  | cons output rest ih =>
    cases rest with
    | nil => simp
    | cons next more =>
      have hnext : next.slot.toNat = start + output.var.locations := h.2.1
      rw [List.map_cons, List.nodup_cons, ih h.2, List.dropLast_cons_cons, List.forall_mem_cons]
      refine and_congr_left fun _ => ⟨fun hfresh => ?_, fun hlocations hmem => ?_⟩
      · -- Without a location of its own, the output would have the slot of the next one.
        refine Nat.pos_of_ne_zero fun hzero => hfresh ?_
        have hslot : output.slot = next.slot := by
          rw [← UInt32.toNat_inj, hnext, h.1, hzero, Nat.add_zero]
        rw [hslot]
        exact List.mem_map_of_mem List.mem_cons_self
      · obtain ⟨other, hother, hslot⟩ := List.mem_map.1 hmem
        have hle := h.2.start_le_slot hother
        rw [hslot, h.1] at hle
        omega

/-- An output that takes no location leaves its slot to the next one. -/
theorem Tiles.slot_eq_of_empty {start finish : Nat} {before after : List InterfaceSlot}
    {empty next : InterfaceSlot} (h : Tiles start (before ++ empty :: next :: after) finish)
    (hempty : empty.var.locations = 0) : next.slot = empty.slot := by
  have hnext := h
  rw [List.append_cons] at hnext
  rw [← UInt32.toNat_inj, hnext.slot_eq, h.slot_eq, List.map_append, List.sum_append,
    List.map_singleton, List.sum_singleton, hempty, Nat.add_zero]

/-- Up to the first output that takes no location, slots are different. -/
theorem Tiles.nodup_slots_of_first {start finish : Nat} {before after : List InterfaceSlot}
    {output : InterfaceSlot} (h : Tiles start (before ++ output :: after) finish)
    (hbefore : ∀ other ∈ before, 0 < other.var.locations) :
    ((before ++ [output]).map (·.slot)).Nodup := by
  rw [List.append_cons] at h
  obtain ⟨middle, hfirst, -⟩ := tiles_append_iff.1 h
  rw [hfirst.nodup_slots_iff, List.dropLast_concat]
  exact hbefore

/-! ## Setting a Stage Up -/

/-- What the setup of each node keeps, the setups of all nodes in order of registration keep. -/
theorem performed_setups_of_step {m : Model} {input : CompileInput} {p : Progress}
    {stage : Stage} {count : Nat} (keeps : Nat → Registry → Prop) (hstart : keeps 0 (p.registry stage))
    (hstep : ∀ index < count, ∀ r, keeps index r →
      ∃ r', (m.graph stage).setupOutcome r index = .ok r' ∧ keeps (index + 1) r') :
    ∃ registry, keeps count registry ∧
      Performed m input p (callSteps (.setup stage) (List.range count))
        (p.withRegistry registry stage) := by
  induction count with
  | zero => exact ⟨p.registry stage, hstart, by cases stage <;> rfl⟩
  | succ count ih =>
    obtain ⟨registry, hregistry, hperformed⟩ :=
      ih fun index hindex => hstep index (Nat.lt_succ_of_lt hindex)
    obtain ⟨registry', hsetup, hkeeps⟩ := hstep count (Nat.lt_succ_self count) registry hregistry
    refine ⟨registry', hkeeps, ?_⟩
    have hlast : CompileStep.perform m input (p.withRegistry registry stage)
        (.call (.setup stage count)) = .ok (p.withRegistry registry' stage) := by
      simp only [CompileStep.perform, Progress.registry_withRegistry, hsetup]
      cases stage <;> rfl
    rw [List.range_succ, callSteps, List.map_append]
    exact hperformed.append (performed_cons_iff.2 ⟨_, hlast, rfl⟩)

/-- What a registration at the setup of a node means for the compilation. -/
def registeredOutcome (node : Node) (stage : Stage) :
    EStateM.Result RegisterFailure Registry UInt32 → Except CompileFailure Registry
  | .ok _ registry => .ok registry
  | .error (.refused error) _ => .error (.graph (error.leaveNode node.name stage))
  | .error .overflow _ => .error .overflow

/-- The setup of a node that makes one registration succeeds or fails with it. -/
theorem setupOutcome_of_register {g : StageGraph} {index : Nat} {node : Node}
    {operation : Registering UInt32} (hnode : g.nodes[index]? = some node)
    (hsetup : node.setup.run =
      (SetupState.register operation).bind fun answer => (Setup.checked answer).run)
    (r : Registry) :
    g.setupOutcome r index = registeredOutcome node g.stage (operation r) := by
  rw [StageGraph.setupOutcome, hnode]
  simp only [hsetup, EStateM.run, EStateM.bind, SetupState.register]
  cases operation r with
  | ok value registry => rfl
  | error failure registry => cases failure <;> rfl

/-! ## Carrying Values -/

/-- Carry values to the fragment stage, one after another; returns the values there. -/
def Designing.stageInterfaces (carried : List (Variable × Handle)) : Designing (List Handle) :=
  carried.mapM fun (var, input) => stageInterface var input

/-- The model that results from carrying values. -/
def carryingModel (name : String) (graph : Nat) (carried : List (Variable × Handle)) : Model :=
  ((Designing.stageInterfaces carried).run (.blank name graph)).2.design.model

/-- The node that carries a value by the channel of a number, at either end. -/
def carryingNode (id : Nat) (var : Variable) (input : Handle) : Stage → LibraryNode
  | .vertex => .endpoint (.producer { id, var } input)
  | .fragment => .endpoint (.consumer { id, var } var)

/-- The nodes that carry values by channels that are numbered from `first` on. -/
def carryingNodes (first : Nat) (carried : List (Variable × Handle)) (stage : Stage) :
    List LibraryNode :=
  (carried.zipIdx first).map fun ((var, input), id) => carryingNode id var input stage

/-- Carrying values adds a producer and a consumer for each. -/
theorem run_stageInterfaces (carried : List (Variable × Handle)) (ws : Workspace) :
    ((Designing.stageInterfaces carried).run ws).2.design =
      { ws.design with
        vertex := ws.design.vertex ++ (carryingNodes ws.channels carried .vertex).map .library
        fragment := ws.design.fragment
          ++ (carryingNodes ws.channels carried .fragment).map .library } := by
  induction carried generalizing ws with
  | nil =>
    simp only [carryingNodes, List.zipIdx_nil, List.map_nil, List.append_nil]
    rfl
  | cons first rest ih =>
    obtain ⟨var, input⟩ := first
    have hrun : ((Designing.stageInterfaces ((var, input) :: rest)).run ws).2 =
        ((Designing.stageInterfaces rest).run ((Designing.stageInterface var input).run ws).2).2 := by
      rw [Designing.stageInterfaces, List.mapM_cons]
      rfl
    have hstep : ((Designing.stageInterface var input).run ws).2.design =
        { ws.design with
          vertex := ws.design.vertex
            ++ [.library (.endpoint (.producer { id := ws.channels, var } input))]
          fragment := ws.design.fragment
            ++ [.library (.endpoint (.consumer { id := ws.channels, var } var))] } := rfl
    have hchannels : ((Designing.stageInterface var input).run ws).2.channels = ws.channels + 1 := rfl
    rw [hrun, ih, hstep, hchannels]
    simp [carryingNodes, carryingNode]

/-- The model that carries values is one of library nodes. -/
theorem carryingModel_eq (name : String) (graph : Nat) (carried : List (Variable × Handle)) :
    carryingModel name graph carried =
      libraryModel name (graphsFrom graph) (carryingNodes 0 carried) := by
  rw [carryingModel, run_stageInterfaces]
  rfl

/-! ## Producers -/

/-- The channels of variables have the slots of a stage, one after another. -/
structure ChannelsAllocated (vars : List Variable) (r : Registry) : Prop where
  /-- The outputs carry the contracts of the channels. -/
  outputs : r.outputs.map (·.var) = vars
  /-- They lie side by side. -/
  tiles : Tiles 0 r.outputs r.nextSlot.toNat
  /-- There are no inputs. -/
  inputs : r.inputs = []
  /-- Each channel has the slot of its output. -/
  slots : ∀ id, r.channelSlots.lookup id = r.outputs[id]?.map (·.slot)
  /-- There are no blocks. -/
  blocks : r.blocks = []

/-- A variable gets a slot as long as its locations fit. -/
theorem exists_slotAfter? {r : Registry} {var : Variable}
    (hfits : r.nextSlot.toNat + var.locations < Word.limit) :
    ∃ nextSlot, r.slotAfter? var = some nextSlot := by
  have hcount : var.locationCount? = some var.locations.toUInt32 :=
    if_pos (Nat.lt_of_le_of_lt (Nat.le_add_left _ _) hfits)
  have hlocations := Word.mul?_eq_some_iff.1 hcount
  refine ⟨(r.nextSlot.toNat + var.locations).toUInt32, ?_⟩
  rw [Registry.slotAfter?, hcount]
  show Word.add? r.nextSlot var.locations.toUInt32 = _
  rw [Word.add?, hlocations]
  exact if_pos hfits

/-- A channel that has no slot gets the next one. -/
theorem Registry.allocateChannel_eq_ok {r : Registry} {channel : Channel} {nextSlot : UInt32}
    (hfree : r.channelSlot? channel = none) (hname : r.interfaceNameTaken channel.var.name = false)
    (hnext : r.slotAfter? channel.var = some nextSlot) :
    allocateChannel channel r = .ok r.nextSlot
      { r with
        outputs := r.outputs ++ [{ slot := r.nextSlot, var := channel.var }], nextSlot
        channelSlots := (channel.id, r.nextSlot) :: r.channelSlots } := by
  rw [allocateChannel, hfree]
  simp only [allocateOutput, hname, hnext, Bool.false_eq_true, if_false]

namespace ChannelsAllocated

variable {vars : List Variable} {r : Registry}

/-- As many slots are given out as the channels take locations. -/
theorem nextSlot_eq (h : ChannelsAllocated vars r) :
    r.nextSlot.toNat = (vars.map Variable.locations).sum := by
  rw [h.tiles.finish_eq, Nat.zero_add, ← h.outputs, List.map_map]
  rfl

/-- The next channel gets the slot after the locations of those before it. -/
theorem allocateChannel (h : ChannelsAllocated vars r) {var : Variable}
    (hname : var.name ∉ vars.map (·.name))
    (hfits : (vars.map Variable.locations).sum + var.locations < Word.limit) :
    ∃ slot r', Registry.allocateChannel { id := vars.length, var } r = .ok slot r' ∧
      ChannelsAllocated (vars ++ [var]) r' := by
  have hlength : r.outputs.length = vars.length := by
    rw [← h.outputs, List.length_map]
  have hfresh : r.channelSlot? { id := vars.length, var } = none := by
    rw [Registry.channelSlot?, h.slots, ← hlength, List.getElem?_eq_none (Nat.le_refl _)]
    rfl
  have htaken : r.interfaceNameTaken var.name = false := by
    rw [interfaceNameTaken_eq_false_iff, h.inputs, List.append_nil]
    rw [← h.outputs, List.map_map] at hname
    exact hname
  obtain ⟨nextSlot, hnext⟩ := exists_slotAfter? (r := r) (by rwa [h.nextSlot_eq])
  have hallocated : Registry.allocateChannel { id := vars.length, var } r = .ok r.nextSlot
      { r with
        outputs := r.outputs ++ [{ slot := r.nextSlot, var }], nextSlot
        channelSlots := (vars.length, r.nextSlot) :: r.channelSlots } :=
    Registry.allocateChannel_eq_ok hfresh htaken hnext
  refine ⟨_, _, hallocated, ?_, ?_, h.inputs, fun id => ?_, h.blocks⟩
  · rw [List.map_append, h.outputs]
    rfl
  · exact tiles_append_iff.2 ⟨_, h.tiles, rfl, slotAfter?_eq_some hnext⟩
  · -- The new channel is looked up first, and its output is the last one.
    rw [List.lookup_cons, h.slots, ← hlength]
    by_cases hid : id = r.outputs.length
    · simp [hid]
    · rw [beq_false_of_ne hid]
      by_cases hlt : id < r.outputs.length
      · simp [List.getElem?_append_left hlt]
      · have hbefore : r.outputs.length ≤ id := by omega
        have hafter : (r.outputs ++ [InterfaceSlot.mk r.nextSlot var]).length ≤ id := by
          rw [List.length_append, List.length_singleton]
          omega
        rw [List.getElem?_eq_none hbefore, List.getElem?_eq_none hafter]

/-- Setting the producers of channels up gives each channel its slot. -/
theorem performed {m : Model} (input : CompileInput) {p : Progress} {stage : Stage}
    (hnodes : ∀ (id : Nat) (var : Variable), vars[id]? = some var →
      ∃ node, (m.graph stage).nodes[id]? = some node ∧ node.setup = .allocateChannel { id, var })
    (hstart : ChannelsAllocated [] (p.registry stage)) (hnames : (vars.map (·.name)).Nodup)
    (hfits : (vars.map Variable.locations).sum < Word.limit) :
    ∃ registry, ChannelsAllocated vars registry ∧
      Performed m input p (callSteps (.setup stage) (List.range vars.length))
        (p.withRegistry registry stage) := by
  have hstep : ∀ id < vars.length, ∀ r, ChannelsAllocated (vars.take id) r →
      ∃ r', (m.graph stage).setupOutcome r id = .ok r' ∧
        ChannelsAllocated (vars.take (id + 1)) r' := by
    intro id hid r hr
    have hsplit : vars.take (id + 1) = vars.take id ++ [vars[id]] :=
      List.take_succ_eq_append_getElem hid
    have hname : vars[id].name ∉ (vars.take id).map (·.name) := by
      have hnodup := hnames.sublist ((List.take_sublist (id + 1) vars).map _)
      rw [hsplit, List.map_append, List.nodup_append_comm] at hnodup
      exact (List.nodup_cons.1 hnodup).1
    have hfit : ((vars.take id).map Variable.locations).sum + vars[id].locations < Word.limit := by
      have hsum := congrArg (fun list => (list.map Variable.locations).sum)
        (List.take_append_drop (id + 1) vars)
      simp only [hsplit, List.map_append, List.sum_append, List.map_singleton,
        List.sum_singleton] at hsum
      omega
    obtain ⟨slot, r', hallocate, hr'⟩ := hr.allocateChannel hname hfit
    rw [List.length_take_of_le (Nat.le_of_lt hid)] at hallocate
    obtain ⟨node, hnode, hsetup⟩ := hnodes id _ (List.getElem?_eq_getElem hid)
    refine ⟨r', ?_, hsplit ▸ hr'⟩
    rw [setupOutcome_of_register hnode (by rw [hsetup]; rfl), hallocate]
    rfl
  obtain ⟨registry, hregistry, hperformed⟩ := performed_setups_of_step _ hstart hstep
  rw [List.take_length] at hregistry
  exact ⟨registry, hregistry, hperformed⟩

end ChannelsAllocated

/-! ## Consumers -/

/-- The first consumers are registered at the slots of the channels that a stage has produced. -/
structure ChannelsRead (produced : List InterfaceSlot) (count : Nat) (r : Registry) : Prop where
  /-- They stand in the fragment stage. -/
  stage_eq : r.stage = .fragment
  /-- There are no outputs. -/
  outputs : r.outputs = []
  /-- The inputs are what has been produced. -/
  inputs : r.inputs = produced.take count
  /-- Each channel has the slot of its output. -/
  slots : ∀ id, r.channelSlots.lookup id = produced[id]?.map (·.slot)
  /-- There are no blocks. -/
  blocks : r.blocks = []

/-- An output is found by its slot among outputs with different slots. -/
theorem find?_slot {outputs : List InterfaceSlot} (hslots : (outputs.map (·.slot)).Nodup)
    {output : InterfaceSlot} (hmem : output ∈ outputs) :
    outputs.find? (·.slot == output.slot) = some output := by
  cases hfind : outputs.find? (·.slot == output.slot) with
  | none => exact absurd (List.find?_eq_none.1 hfind output hmem) (by simp)
  | some found =>
    have hslot : found.slot = output.slot := by
      simpa using List.find?_some hfind
    rw [List.inj_on_of_nodup_map hslots (List.mem_of_find?_eq_some hfind) hmem hslot]

namespace ChannelsRead

variable {produced : List InterfaceSlot} {count : Nat} {r : Registry} {output : InterfaceSlot}

/-- The consumer of a channel asks for the slot of the channel. -/
theorem registerChannelInput_eq (h : ChannelsRead produced count r)
    (houtput : produced[count]? = some output) :
    Registry.registerChannelInput { id := count, var := output.var } output.var r =
      match Registry.registerInput output.slot output.var r with
      | .error error r => .error error r
      | .ok () r => .ok output.slot r := by
  have hslot : r.channelSlot? { id := count, var := output.var } = some output.slot := by
    rw [Registry.channelSlot?, h.slots, houtput]
    rfl
  cases hinput : Registry.registerInput output.slot output.var r with
  | ok value r' => simp only [Registry.registerChannelInput, Registry.channelSlot, hslot, hinput]
  | error failure r' => simp only [Registry.registerChannelInput, Registry.channelSlot, hslot, hinput]

/-- The next consumer is registered at a slot that no input has. -/
theorem registerChannelInput (h : ChannelsRead produced count r)
    (houtput : produced[count]? = some output)
    (hname : output.var.name ∉ (produced.take count).map (·.var.name))
    (hslot : output.slot ∉ (produced.take count).map (·.slot)) :
    ∃ slot r', Registry.registerChannelInput { id := count, var := output.var } output.var r =
        .ok slot r' ∧ ChannelsRead produced (count + 1) r' := by
  have hfree : r.inputs.find? (·.slot == output.slot) = none := by
    refine List.find?_eq_none.2 fun input hinput hbeq => hslot ?_
    rw [h.inputs] at hinput
    rw [← (beq_iff_eq.1 hbeq)]
    exact List.mem_map_of_mem hinput
  have htaken : r.interfaceNameTaken output.var.name = false := by
    rw [interfaceNameTaken_eq_false_iff, h.outputs, h.inputs]
    exact hname
  refine ⟨output.slot, { r with inputs := r.inputs ++ [output] }, ?_, h.stage_eq, h.outputs, ?_,
    h.slots, h.blocks⟩
  · rw [h.registerChannelInput_eq houtput, Registry.registerInput, hfree]
    simp only [htaken, Bool.false_eq_true, if_false]
  · rw [h.inputs, List.take_add_one, houtput]
    rfl

/-- The next consumer is refused at a slot that another input has. -/
theorem registerChannelInput_taken (h : ChannelsRead produced count r)
    (houtput : produced[count]? = some output) {other : InterfaceSlot}
    (hfind : (produced.take count).find? (·.slot == output.slot) = some other)
    (hvar : other.var ≠ output.var) :
    Registry.registerChannelInput { id := count, var := output.var } output.var r =
      .error (.refused (.duplicateInterfaceSlot .fragment output.slot other.var output.var)) r := by
  rw [← h.inputs] at hfind
  rw [h.registerChannelInput_eq houtput, Registry.registerInput, hfind]
  simp only [hvar, if_false, h.stage_eq]

/-- After an output without locations, the consumer of the next one is refused. -/
theorem registerChannelInput_of_empty {before after : List InterfaceSlot}
    {empty next : InterfaceSlot} {start finish : Nat}
    (h : ChannelsRead (before ++ empty :: next :: after) (before.length + 1) r)
    (htiles : Tiles start (before ++ empty :: next :: after) finish)
    (hbefore : ∀ other ∈ before, 0 < other.var.locations) (hempty : empty.var.locations = 0)
    (hvar : empty.var ≠ next.var) :
    Registry.registerChannelInput { id := before.length + 1, var := next.var } next.var r =
      .error (.refused (.duplicateInterfaceSlot .fragment empty.slot empty.var next.var)) r := by
  have hslot : next.slot = empty.slot := htiles.slot_eq_of_empty hempty
  have houtput : (before ++ empty :: next :: after)[before.length + 1]? = some next := by
    rw [List.append_cons, List.getElem?_append_right (by simp)]
    simp
  have hfind : ((before ++ empty :: next :: after).take (before.length + 1)).find?
      (·.slot == next.slot) = some empty := by
    rw [List.append_cons, List.take_left' (by simp), hslot]
    exact find?_slot (htiles.nodup_slots_of_first hbefore) (by simp)
  rw [h.registerChannelInput_taken houtput hfind hvar, hslot]

/-- Setting consumers up registers them, as long as their channels have different slots. -/
theorem performed {m : Model} (input : CompileInput) {p : Progress} {stage : Stage}
    (hnodes : ∀ (id : Nat) (output : InterfaceSlot), produced[id]? = some output →
      ∃ node, (m.graph stage).nodes[id]? = some node ∧
        node.setup = .registerChannelInput { id, var := output.var } output.var)
    (hstart : ChannelsRead produced 0 (p.registry stage)) (hcount : count ≤ produced.length)
    (hnames : (produced.map (·.var.name)).Nodup)
    (hslots : ((produced.take count).map (·.slot)).Nodup) :
    ∃ registry, ChannelsRead produced count registry ∧
      Performed m input p (callSteps (.setup stage) (List.range count))
        (p.withRegistry registry stage) := by
  refine performed_setups_of_step _ hstart fun id hid r hr => ?_
  have hlt : id < produced.length := Nat.lt_of_lt_of_le hid hcount
  have houtput : produced[id]? = some produced[id] := List.getElem?_eq_getElem hlt
  have hsplit : produced.take (id + 1) = produced.take id ++ [produced[id]] :=
    List.take_succ_eq_append_getElem hlt
  have hfresh {α : Type} {f : InterfaceSlot → α}
      (hnodup : ((produced.take (id + 1)).map f).Nodup) :
      f produced[id] ∉ (produced.take id).map f := by
    rw [hsplit, List.map_append, List.nodup_append_comm] at hnodup
    exact (List.nodup_cons.1 hnodup).1
  obtain ⟨slot, r', hregister, hr'⟩ := hr.registerChannelInput houtput
    (hfresh (hnames.sublist ((List.take_sublist _ _).map _)))
    (hfresh (hslots.sublist ((List.take_sublist_take_left hid).map _)))
  obtain ⟨node, hnode, hsetup⟩ := hnodes id _ houtput
  refine ⟨r', ?_, hr'⟩
  rw [setupOutcome_of_register hnode (by rw [hsetup]; rfl), hregister]
  rfl

end ChannelsRead

/-- Inputs that are the outputs of the other stage, at different slots, link. -/
theorem verifyLink_of_inputs_eq {producer consumer : Registry}
    (hinputs : consumer.inputs = producer.outputs)
    (hslots : (producer.outputs.map (·.slot)).Nodup) : verifyLink producer consumer = .ok () := by
  have hmatch : ∀ input ∈ producer.outputs,
      producer.outputs.find? (·.slot == input.slot) = some input := fun _ => find?_slot hslots
  rw [verifyLink, hinputs]
  refine forM_eq_ok_of_forall fun input hinput => ?_
  rw [hmatch input hinput]
  exact if_pos rfl

theorem perform_link_of_ok {m : Model} {input : CompileInput} {p : Progress}
    (h : verifyLink p.vertex.registry p.fragment.registry = .ok ()) :
    CompileStep.link.perform m input p = .ok p := by
  simp only [CompileStep.perform, h]

/-! ## Carrying Values in Both Stages -/

/-- Each channel has a slot of its own, and its consumer is registered there with its contract. -/
structure ChannelsLinked (vars : List Variable) (p : Progress) : Prop where
  /-- The outputs of the vertex stage carry the contracts of the channels. -/
  produced : (p.registry .vertex).outputs.map (·.var) = vars
  /-- Each of them is at the slot that its channel has got. -/
  channels : ∀ id var, vars[id]? = some var → ∃ slot,
    (p.registry .vertex).channelSlot? { id, var } = some slot ∧
      (p.registry .vertex).outputs[id]? = some { slot, var }
  /-- The inputs of the fragment stage are these outputs, slots and contracts included. -/
  consumed : (p.registry .fragment).inputs = (p.registry .vertex).outputs
  /-- No two channels have the same slot. -/
  slots : ((p.registry .vertex).outputs.map (·.slot)).Nodup

/-- A variable takes a location unless it is an array without elements. -/
theorem Variable.locations_pos_iff {var : Variable} :
    0 < var.locations ↔ var.arrayLen ≠ some 0 := by
  have hty : 0 < var.ty.locationCount.toNat := by
    unfold ValueType.locationCount
    split <;> decide
  rw [locations, elementCount, Nat.mul_pos_iff_of_pos_left hty]
  cases var.arrayLen with
  | none => simp
  | some len =>
    rw [Option.getD_some, Ne, Option.some.injEq, ← UInt32.toNat_inj, Nat.pos_iff_ne_zero]
    rfl

/-- If not all elements but the last one have a property, there is a first one that has not, and another
one after it. -/
theorem exists_first_of_dropLast {α : Type} {P : α → Prop} {xs : List α}
    (h : ¬ ∀ x ∈ xs.dropLast, P x) :
    ∃ before x y after, xs = before ++ x :: y :: after ∧ (∀ b ∈ before, P b) ∧ ¬ P x := by
  induction xs with
  | nil => simp at h
  | cons a rest ih =>
    cases rest with
    | nil => simp at h
    | cons b more =>
      by_cases ha : P a
      · rw [List.dropLast_cons_cons, List.forall_mem_cons, not_and] at h
        obtain ⟨before, x, y, after, hrest, hbefore, hx⟩ := ih (h ha)
        exact ⟨a :: before, x, y, after, by rw [hrest, List.cons_append],
          List.forall_mem_cons.2 ⟨ha, hbefore⟩, hx⟩
      · exact ⟨[], a, b, more, rfl, by simp, ha⟩

/-- The outcome of compiling is what comes of the steps of the agenda. -/
theorem compile_outcome_eq (m : Model) (input : CompileInput) :
    (m.compile input).outcome =
      ((m.agenda input).foldlM (CompileStep.perform m input) (.start input)).map
        (·.shader m.name input.target) := by
  rcases compile_cases m input with ⟨finish, hperformed, hok, -⟩ |
    ⟨done, step, rest, reached, failure, hagenda, hdone, hstep, herror, -⟩
  · rw [Performed] at hperformed
    rw [hok, hperformed]
    rfl
  · rw [Performed] at hdone
    rw [herror, hagenda, List.foldlM_append, hdone]
    show _ = Except.map _ ((step :: rest).foldlM (CompileStep.perform m input) reached)
    rw [List.foldlM_cons, hstep]
    rfl

/-- A step that fails after those before it is what compiling fails with. -/
theorem compile_outcome_of_error {m : Model} {input : CompileInput}
    {done rest : List CompileStep} {step : CompileStep} {reached : Progress} {failure : CompileFailure}
    (hagenda : m.agenda input = done ++ step :: rest)
    (hdone : Performed m input (.start input) done reached)
    (hstep : step.perform m input reached = .error failure) :
    (m.compile input).outcome = .error failure := by
  rw [Performed] at hdone
  rw [compile_outcome_eq, hagenda, List.foldlM_append, hdone]
  show Except.map _ ((step :: rest).foldlM (CompileStep.perform m input) reached) = _
  rw [List.foldlM_cons, hstep]
  rfl

/-- A stage whose nodes may stand there and have an order is entered. -/
theorem performed_enter {m : Model} (input : CompileInput) (p : Progress) {stage : Stage}
    {order : List Nat} (hcheck : (m.graph stage).checkStages = .ok ())
    (horder : (m.graph stage).schedule = .ok order) :
    Performed m input p [.checkStages stage, .schedule stage] (p.enter stage) := by
  refine performed_cons_iff.2 ⟨p.enter stage, by simp only [CompileStep.perform, hcheck], ?_⟩
  exact performed_cons_iff.2 ⟨p.enter stage, by simp only [CompileStep.perform, horder], rfl⟩

section Carrying

variable (name : String) (graph : Nat) {carried : List (Variable × Handle)}
  (input : CompileInput)

theorem getElem?_carryingNodes (stage : Stage) (id : Nat) :
    (carryingNodes 0 carried stage)[id]? =
      carried[id]?.map fun (var, input) => carryingNode id var input stage := by
  rw [carryingNodes, List.getElem?_map, List.getElem?_zipIdx, Option.map_map, Nat.zero_add]
  rfl

/-- At the position of a value stands the node that carries it. -/
theorem getElem?_carryingModel {id : Nat} {var : Variable} {input : Handle}
    (h : carried[id]? = some (var, input)) (stage : Stage) :
    ((carryingModel name graph carried).graph stage).nodes[id]? =
      some ((carryingNode id var input stage).toNode
        { stage, graph := graphsFrom graph stage, index := id }) := by
  rw [carryingModel_eq]
  refine getElem?_libraryModel_of_eq_some name (graphsFrom graph) ?_
  rw [getElem?_carryingNodes, h]
  rfl

/-- Every node carries one of the values. -/
theorem exists_carried_of_mem {stage : Stage} {node : Node}
    (h : node ∈ ((carryingModel name graph carried).graph stage).nodes) :
    ∃ id var input, (var, input) ∈ carried ∧
      node = (carryingNode id var input stage).toNode
        { stage, graph := graphsFrom graph stage, index := id } := by
  obtain ⟨id, hid⟩ := List.mem_iff_getElem?.1 h
  rw [carryingModel_eq, getElem?_libraryModel, getElem?_carryingNodes, Option.map_map] at hid
  obtain ⟨⟨var, input⟩, hcarried, rfl⟩ := Option.map_eq_some_iff.1 hid
  exact ⟨id, var, input, List.mem_of_getElem? hcarried, rfl⟩

theorem length_carryingModel (stage : Stage) :
    ((carryingModel name graph carried).graph stage).nodes.length = carried.length := by
  rw [carryingModel_eq]
  cases stage <;>
    simp [libraryDesign, Design.model, Model.graph, Design.stageGraph, Design.nodes, carryingNodes]

/-- Values that belong to no node are carried in order of registration. -/
theorem order_carryingModel (hunowned : ∀ c ∈ carried, c.2.owner = none) (stage : Stage) :
    ((carryingModel name graph carried).graph stage).schedule = .ok (List.range carried.length) := by
  rw [← length_carryingModel name graph stage]
  refine StageGraph.schedule_of_independent fun node hnode => ?_
  obtain ⟨id, var, input, hmem, rfl⟩ := exists_carried_of_mem name graph hnode
  have hinput : input.owner = none := hunowned _ hmem
  cases stage with
  | vertex =>
    show some (Handle.owners [input]) = some []
    rw [Handle.owners, List.filterMap_cons_none hinput, List.filterMap_nil]
  | fragment => rfl

theorem checkStages_carryingModel (stage : Stage) :
    ((carryingModel name graph carried).graph stage).checkStages = .ok () := by
  refine forM_eq_ok_of_forall fun node hnode => ?_
  obtain ⟨id, var, input, -, rfl⟩ := exists_carried_of_mem name graph hnode
  have hallowed : (carryingNode id var input stage).allowed = stage.mask := by
    cases stage <;> rfl
  have hintersects : stage.mask.intersects stage.mask = true := by
    cases stage <;> decide
  rw [Model.graph_stage, LibraryNode.toNode, hallowed]
  exact if_pos hintersects

/-- Both stages are entered without a failure. -/
theorem performed_checks (hunowned : ∀ c ∈ carried, c.2.owner = none) (p : Progress) (stage : Stage) :
    Performed (carryingModel name graph carried) input p [.checkStages stage, .schedule stage]
      (p.enter stage) :=
  performed_enter input p (checkStages_carryingModel name graph stage)
    (order_carryingModel name graph hunowned stage)

/-- The vertex stage gives each channel its slot. -/
theorem exists_channelsAllocated (hunowned : ∀ c ∈ carried, c.2.owner = none)
    (hnames : ((carried.map Prod.fst).map (·.name)).Nodup)
    (hfits : ((carried.map Prod.fst).map Variable.locations).sum < Word.limit) :
    ∃ registry, ChannelsAllocated (carried.map Prod.fst) registry ∧
      Performed (carryingModel name graph carried) input (.start input)
        ((carryingModel name graph carried).setupSteps .vertex)
        (Progress.withRegistry (.start input) registry .vertex) := by
  have hnodes : ∀ (id : Nat) (var : Variable), (carried.map Prod.fst)[id]? = some var →
      ∃ node, ((carryingModel name graph carried).graph .vertex).nodes[id]? = some node ∧
        node.setup = .allocateChannel { id, var } := by
    intro id var hvar
    rw [List.getElem?_map] at hvar
    obtain ⟨⟨var, input⟩, hcarried, rfl⟩ := Option.map_eq_some_iff.1 hvar
    exact ⟨_, getElem?_carryingModel name graph hcarried .vertex, rfl⟩
  have hempty : ChannelsAllocated [] (Progress.registry (.start input) .vertex) :=
    ⟨rfl, rfl, rfl, fun id => rfl, rfl⟩
  obtain ⟨registry, hregistry, hperformed⟩ :=
    ChannelsAllocated.performed input hnodes hempty hnames hfits
  refine ⟨registry, hregistry, ?_⟩
  rw [List.length_map] at hperformed
  rw [Model.setupSteps, Model.order, order_carryingModel name graph hunowned]
  exact (performed_checks name graph input hunowned _ .vertex).append hperformed

/-- The fragment stage registers consumers, as long as their channels have different slots. -/
theorem exists_channelsRead (hunowned : ∀ c ∈ carried, c.2.owner = none)
    (hnames : ((carried.map Prod.fst).map (·.name)).Nodup) {registry : Registry} {count : Nat}
    (hallocated : ChannelsAllocated (carried.map Prod.fst) registry) (hcount : count ≤ carried.length)
    (hslots : ((registry.outputs.take count).map (·.slot)).Nodup) :
    ∃ registry', ChannelsRead registry.outputs count registry' ∧
      Performed (carryingModel name graph carried) input
        (Progress.withRegistry (.start input) registry .vertex)
        (.checkStages .fragment :: .schedule .fragment
          :: callSteps (.setup .fragment) (List.range count))
        ((Progress.withRegistry (.start input) registry .vertex).withRegistry registry' .fragment) := by
  have hnodes : ∀ (id : Nat) (output : InterfaceSlot), registry.outputs[id]? = some output →
      ∃ node, ((carryingModel name graph carried).graph .fragment).nodes[id]? = some node ∧
        node.setup = .registerChannelInput { id, var := output.var } output.var := by
    intro id output houtput
    have hvar : (carried.map Prod.fst)[id]? = some output.var := by
      rw [← hallocated.outputs, List.getElem?_map, houtput]
      rfl
    rw [List.getElem?_map] at hvar
    obtain ⟨⟨var, input⟩, hcarried, hvar⟩ := Option.map_eq_some_iff.1 hvar
    refine ⟨_, getElem?_carryingModel name graph hcarried .fragment, ?_⟩
    rw [← hvar]
    rfl
  have hlength : registry.outputs.length = carried.length := by
    simpa using congrArg List.length hallocated.outputs
  have hentered : ChannelsRead registry.outputs 0
      (((Progress.withRegistry (.start input) registry .vertex).enter .fragment).registry .fragment) :=
    ⟨rfl, rfl, rfl, hallocated.slots, rfl⟩
  have hdistinct : (registry.outputs.map (·.var.name)).Nodup := by
    rw [← hallocated.outputs, List.map_map] at hnames
    exact hnames
  obtain ⟨registry', hread, hperformed⟩ := ChannelsRead.performed input hnodes hentered
    (hlength ▸ hcount) hdistinct hslots
  exact ⟨registry', hread,
    (performed_checks name graph input hunowned _ .fragment).append hperformed⟩

/-- Values are carried if each array but the last one has elements. -/
theorem exists_channelsLinked (hunowned : ∀ c ∈ carried, c.2.owner = none)
    (hnames : ((carried.map Prod.fst).map (·.name)).Nodup)
    (hfits : ((carried.map Prod.fst).map Variable.locations).sum < Word.limit)
    (hlengths : ∀ c ∈ carried.dropLast, c.1.arrayLen ≠ some 0) :
    ∃ p, Performed (carryingModel name graph carried) input (.start input)
        ((carryingModel name graph carried).declareSteps input) p ∧
      ChannelsLinked (carried.map Prod.fst) p := by
  obtain ⟨registry, hallocated, hvertex⟩ :=
    exists_channelsAllocated name graph input hunowned hnames hfits
  have hlength : registry.outputs.length = carried.length := by
    simpa using congrArg List.length hallocated.outputs
  have hslots : (registry.outputs.map (·.slot)).Nodup := by
    refine hallocated.tiles.nodup_slots_iff.2 fun output houtput => ?_
    have hvar : output.var ∈ (registry.outputs.map (·.var)).dropLast := by
      rw [← List.map_dropLast]
      exact List.mem_map_of_mem houtput
    rw [hallocated.outputs, ← List.map_dropLast] at hvar
    obtain ⟨c, hc, hvar⟩ := List.mem_map.1 hvar
    rw [← hvar]
    exact Variable.locations_pos_iff.2 (hlengths c hc)
  obtain ⟨registry', hread, hfragment⟩ := exists_channelsRead name graph input hunowned hnames
    hallocated (Nat.le_refl _) (by rwa [← hlength, List.take_length])
  have hinputs : registry'.inputs = registry.outputs := by
    rw [hread.inputs, ← hlength, List.take_length]
  refine ⟨(Progress.withRegistry (.start input) registry .vertex).withRegistry registry' .fragment,
    ?_, ?_⟩
  · have hsetup := hvertex.append hfragment
    have hsteps : .checkStages .fragment :: .schedule .fragment
        :: callSteps (.setup .fragment) (List.range carried.length) =
          (carryingModel name graph carried).setupSteps .fragment := by
      rw [Model.setupSteps, Model.order, order_carryingModel name graph hunowned]
    rw [hsteps] at hsetup
    -- No block is registered, so that no update routine is tried.
    have hupdates (stage : Stage) :
        (carryingModel name graph carried).updateSteps input stage = [] := by
      rw [Model.updateSteps, blockCount_of_performed hsetup]
      cases stage with
      | vertex =>
        show callSteps (.update .vertex) (List.range registry.blocks.length) = []
        rw [hallocated.blocks]
        rfl
      | fragment =>
        show callSteps (.update .fragment) (List.range registry'.blocks.length) = []
        rw [hread.blocks]
        rfl
    rw [Model.declareSteps, hupdates, hupdates]
    refine hsetup.append (performed_cons_iff.2 ⟨_, ?_, rfl⟩)
    have hlink : verifyLink registry registry' = .ok () := verifyLink_of_inputs_eq hinputs hslots
    exact perform_link_of_ok hlink
  · refine ⟨hallocated.outputs, fun id var hvar => ?_, hinputs, hslots⟩
    rw [← hallocated.outputs, List.getElem?_map] at hvar
    obtain ⟨output, houtput, rfl⟩ := Option.map_eq_some_iff.1 hvar
    refine ⟨output.slot, ?_, houtput⟩
    show registry.channelSlots.lookup id = _
    rw [hallocated.slots, houtput]
    rfl

/-- The setup of a consumer comes after those of the consumers before it. -/
theorem exists_setupSteps_eq (hunowned : ∀ c ∈ carried, c.2.owner = none) {index : Nat}
    (hindex : index < carried.length) :
    ∃ rest, (carryingModel name graph carried).setupSteps .fragment =
      (.checkStages .fragment :: .schedule .fragment
        :: callSteps (.setup .fragment) (List.range index))
        ++ .call (.setup .fragment index) :: rest := by
  have hrange : List.range carried.length =
      List.range index ++ index :: List.range' (index + 1) (carried.length - (index + 1)) := by
    have hsplit : List.range' 0 index ++
        List.range' (0 + index) (carried.length - (index + 1) + 1) =
          List.range' 0 (index + (carried.length - (index + 1) + 1)) := List.range'_append_1
    have hlength : index + (carried.length - (index + 1) + 1) = carried.length := by
      omega
    rw [List.range_eq_range', List.range_eq_range', ← List.range'_succ, ← hlength, ← hsplit, hlength,
      Nat.zero_add]
  refine ⟨callSteps (.setup .fragment) (List.range' (index + 1) (carried.length - (index + 1))), ?_⟩
  rw [Model.setupSteps, Model.order, order_carryingModel name graph hunowned]
  simp [callSteps, hrange]

/-- The consumer after an array without elements finds its slot taken. -/
theorem exists_refused_of_empty (hunowned : ∀ c ∈ carried, c.2.owner = none)
    (hnames : ((carried.map Prod.fst).map (·.name)).Nodup)
    (hfits : ((carried.map Prod.fst).map Variable.locations).sum < Word.limit)
    {before after : List (Variable × Handle)} {empty next : Variable × Handle}
    (hcarried : carried = before ++ empty :: next :: after)
    (hbefore : ∀ c ∈ before, c.1.arrayLen ≠ some 0) (hempty : empty.1.arrayLen = some 0) :
    ∃ done step rest reached, ∃ slot : UInt32,
      (carryingModel name graph carried).setupSteps .vertex
        ++ (carryingModel name graph carried).setupSteps .fragment = done ++ step :: rest ∧
      Performed (carryingModel name graph carried) input (.start input) done reached ∧
      slot.toNat = (before.map (·.1.locations)).sum ∧
      step.perform (carryingModel name graph carried) input reached =
        .error (.graph (.inNode "stageInterfaceIn" .fragment
          (.duplicateInterfaceSlot .fragment slot empty.1 next.1))) := by
  obtain ⟨registry, hallocated, hvertex⟩ :=
    exists_channelsAllocated name graph input hunowned hnames hfits
  -- The outputs are split as the values are.
  obtain ⟨earlier, emptyOutput, nextOutput, later, houtputs, hearlier, hemptyVar, hnextVar⟩ :
      ∃ earlier emptyOutput nextOutput later,
        registry.outputs = earlier ++ emptyOutput :: nextOutput :: later ∧
        earlier.map (·.var) = before.map Prod.fst ∧ emptyOutput.var = empty.1 ∧
        nextOutput.var = next.1 := by
    have hvars := hallocated.outputs
    rw [hcarried, List.map_append, List.map_cons, List.map_cons] at hvars
    obtain ⟨earlier, others, houtputs, hearlier, hothers⟩ := List.map_eq_append_iff.1 hvars
    obtain ⟨emptyOutput, others, rfl, hemptyVar, hothers⟩ := List.map_eq_cons_iff.1 hothers
    obtain ⟨nextOutput, later, rfl, hnextVar, -⟩ := List.map_eq_cons_iff.1 hothers
    exact ⟨earlier, emptyOutput, nextOutput, later, houtputs, hearlier, hemptyVar, hnextVar⟩
  have hlength : earlier.length = before.length := by
    simpa using congrArg List.length hearlier
  have htiles := hallocated.tiles
  rw [houtputs] at htiles
  have hpositive : ∀ output ∈ earlier, 0 < output.var.locations := by
    intro output houtput
    have hvar : output.var ∈ before.map Prod.fst := hearlier ▸ List.mem_map_of_mem houtput
    obtain ⟨c, hc, hvar⟩ := List.mem_map.1 hvar
    rw [← hvar]
    exact Variable.locations_pos_iff.2 (hbefore c hc)
  have hnone : emptyOutput.var.locations = 0 := by
    rw [hemptyVar]
    exact Nat.eq_zero_of_not_pos fun hpos => Variable.locations_pos_iff.1 hpos hempty
  have hvar : emptyOutput.var ≠ nextOutput.var := by
    rw [hcarried, List.map_append, List.map_append] at hnames
    have hrest := (List.nodup_append.1 hnames).2.1
    intro heq
    rw [hemptyVar, hnextVar] at heq
    simp [heq] at hrest
  -- Its consumer is registered, and the next one is refused.
  have hindex : before.length + 1 < carried.length := by
    simp [hcarried]
  obtain ⟨registry', hread, hfragment⟩ := exists_channelsRead name graph input hunowned hnames
    hallocated (Nat.le_of_lt hindex) (by
      rw [houtputs, List.append_cons, List.take_left' (by simp [hlength])]
      exact htiles.nodup_slots_of_first hpositive)
  rw [houtputs, ← hlength] at hread
  have hrefused := hread.registerChannelInput_of_empty htiles hpositive hnone hvar
  rw [hlength, hemptyVar, hnextVar] at hrefused
  have hnode : ((carryingModel name graph carried).graph .fragment).nodes[before.length + 1]? =
      some ((carryingNode (before.length + 1) next.1 next.2 .fragment).toNode
        { stage := .fragment, graph := graph + 1, index := before.length + 1 }) := by
    refine getElem?_carryingModel name graph ?_ .fragment
    rw [hcarried, List.append_cons, List.getElem?_append_right (by simp)]
    simp
  obtain ⟨rest, hsteps⟩ := exists_setupSteps_eq name graph hunowned hindex
  refine ⟨_, .call (.setup .fragment (before.length + 1)), rest, _, emptyOutput.slot, ?_,
    hvertex.append hfragment, ?_, ?_⟩
  · rw [hsteps, List.append_assoc]
  · rw [htiles.slot_eq, Nat.zero_add]
    have hsum := congrArg (fun vars => (vars.map Variable.locations).sum) hearlier
    simpa [Function.comp_def] using hsum
  · have hsetup : ((carryingModel name graph carried).graph .fragment).setupOutcome registry'
        (before.length + 1) = .error (.graph (.inNode "stageInterfaceIn" .fragment
          (.duplicateInterfaceSlot .fragment emptyOutput.slot empty.1 next.1))) := by
      rw [setupOutcome_of_register hnode rfl, hrefused, Model.graph_stage]
      rfl
    simp only [CompileStep.perform, Progress.registry_withRegistry, hsetup]

end Carrying

/-- Slots of channels. Carry any values that belong to no node, by channels of different names that take
fewer than `2 ^ 32` locations together.

* Declaring and linking succeed exactly if each array among the channels has elements, the last channel
  apart.
* Then every channel has a slot of its own, and its consumer is registered there with its contract.
* Otherwise compiling fails at the consumer that follows the first array without elements, since the two
  channels have the same slot. -/
theorem channels_linked_iff (name : String) (graph : Nat) (carried : List (Variable × Handle))
    (input : CompileInput) (hnames : (carried.map (·.1.name)).Nodup)
    (hunowned : ∀ c ∈ carried, c.2.owner = none)
    (hfits : (carried.map (·.1.locations)).sum < Word.limit) :
    ((∃ p, Performed (carryingModel name graph carried) input (.start input)
        ((carryingModel name graph carried).declareSteps input) p) ↔
      ∀ c ∈ carried.dropLast, c.1.arrayLen ≠ some 0) ∧
    (∀ p, Performed (carryingModel name graph carried) input (.start input)
        ((carryingModel name graph carried).declareSteps input) p →
      ChannelsLinked (carried.map Prod.fst) p) ∧
    ∀ before empty next after, carried = before ++ empty :: next :: after →
      (∀ c ∈ before, c.1.arrayLen ≠ some 0) → empty.1.arrayLen = some 0 →
        ∃ slot : UInt32, slot.toNat = (before.map (·.1.locations)).sum ∧
          ((carryingModel name graph carried).compile input).outcome =
            .error (.graph (.inNode "stageInterfaceIn" .fragment
              (.duplicateInterfaceSlot .fragment slot empty.1 next.1))) := by
  have hnames' : ((carried.map Prod.fst).map (·.name)).Nodup := by
    rwa [List.map_map]
  have hfits' : ((carried.map Prod.fst).map Variable.locations).sum < Word.limit := by
    rwa [List.map_map]
  have hlengths (p : Progress) (hp : Performed (carryingModel name graph carried) input (.start input)
      ((carryingModel name graph carried).declareSteps input) p) :
      ∀ c ∈ carried.dropLast, c.1.arrayLen ≠ some 0 := by
    by_contra hnot
    obtain ⟨before, empty, next, after, hcarried, hbefore, hempty⟩ := exists_first_of_dropLast hnot
    obtain ⟨done, step, rest, reached, slot, hsteps, hdone, -, hstep⟩ :=
      exists_refused_of_empty name graph input hunowned hnames' hfits' hcarried hbefore
        (Decidable.not_not.1 hempty)
    rw [Model.declareSteps, hsteps, List.append_assoc, List.cons_append] at hp
    exact not_performed_of_error hdone hstep hp
  refine ⟨⟨fun h => h.elim hlengths, fun h => ?_⟩, fun p hp => ?_, ?_⟩
  · obtain ⟨p, hp, -⟩ := exists_channelsLinked name graph input hunowned hnames' hfits' h
    exact ⟨p, hp⟩
  · obtain ⟨p', hp', hlinked⟩ :=
      exists_channelsLinked name graph input hunowned hnames' hfits' (hlengths p hp)
    -- What the steps bring about is determined by them.
    rw [Performed] at hp hp'
    rw [hp] at hp'
    cases hp'
    exact hlinked
  · intro before empty next after hcarried hbefore hempty
    obtain ⟨done, step, rest, reached, slot, hsteps, hdone, hslot, hstep⟩ :=
      exists_refused_of_empty name graph input hunowned hnames' hfits' hcarried hbefore hempty
    obtain ⟨more, hagenda⟩ : ∃ more, (carryingModel name graph carried).agenda input =
        done ++ step :: more :=
      ⟨_, by rw [Model.agenda, Model.declareSteps, hsteps, List.append_assoc, List.append_assoc,
        List.cons_append]⟩
    exact ⟨slot, hslot, compile_outcome_of_error hagenda hdone hstep⟩

/-- Channels of several kinds: an array of matrices, a number, and an array without elements at the
end. -/
def carriedKinds : List (Variable × Handle) :=
  [({ name := "bones", ty := .matrix .four, arrayLen := some 2 }, default),
    ({ name := "weight", ty := .float }, default),
    ({ name := "spare", ty := .vec2, arrayLen := some 0 }, default)]

/-- Two matrices take eight slots. -/
theorem carriedKinds_linked :
    (carriedKinds.map (·.1.name)).Nodup ∧ (carriedKinds.map (·.1.locations)).sum = 9 ∧
      ∃ p, Performed (carryingModel "kinds" 0 carriedKinds) { target := .vulkan }
          (.start { target := .vulkan })
          ((carryingModel "kinds" 0 carriedKinds).declareSteps { target := .vulkan }) p ∧
        ChannelsLinked (carriedKinds.map Prod.fst) p := by
  have hnames : (carriedKinds.map (·.1.name)).Nodup := by
    decide
  have hsum : (carriedKinds.map (·.1.locations)).sum = 9 := by
    decide
  obtain ⟨hiff, hlinked, -⟩ := channels_linked_iff "kinds" 0 carriedKinds { target := .vulkan } hnames
    (by decide) (by rw [hsum]; decide)
  obtain ⟨p, hp⟩ := hiff.2 (by decide)
  exact ⟨hnames, hsum, p, hp, hlinked p hp⟩

/-- A channel without elements, and one after it. -/
def emptyFirst : List (Variable × Handle) :=
  [({ name := "spare", ty := .vec4, arrayLen := some 0 }, default),
    ({ name := "coordinate", ty := .vec2 }, default)]

/-- Both channels get slot zero, where the second consumer is refused. -/
theorem emptyFirst_shares_slot :
    (emptyFirst.map (·.1.name)).Nodup ∧ (∀ c ∈ emptyFirst, c.2.owner = none) ∧
      (emptyFirst.map (·.1.locations)).sum = 1 ∧
      ((carryingModel "empty" 0 emptyFirst).compile { target := .vulkan }).outcome =
        .error (.graph (.inNode "stageInterfaceIn" .fragment (.duplicateInterfaceSlot .fragment 0
          { name := "spare", ty := .vec4, arrayLen := some 0 }
          { name := "coordinate", ty := .vec2 }))) := by
  refine ⟨by decide, by decide, by decide, ?_⟩
  have hfailure : (match ((carryingModel "empty" 0 emptyFirst).compile
      { target := .vulkan }).outcome with
      | .error failure => some failure
      | .ok _ => none) = some (.graph (.inNode "stageInterfaceIn" .fragment
        (.duplicateInterfaceSlot .fragment 0 { name := "spare", ty := .vec4, arrayLen := some 0 }
          { name := "coordinate", ty := .vec2 }))) := by
    decide +kernel
  split at hfailure
  · rename_i failure houtcome
    rw [houtcome, Option.some.inj hfailure]
  · cases hfailure

end ShaderWeave
