import Mathlib.Logic.Relation
import ShaderWeave.Proofs.GlobalIdentifiers

/-!
# Registrations Succeed or Change Nothing

Nodes of both stages make requests in turn, and a node may go on after one that is refused. Binding
numbers, push-constant bytes and the slots of channels are counted once for both stages, so anything
that a refused request left behind would shift the numbers of every later one, also in the other stage.
No request does: it is granted as a whole or changes nothing. An attribute or an interface input that
is registered already is not registered again; the request is answered as it was the first time.

## Main definitions

* `StageRegistries`: what both stages have registered, with what they share.
* `StageRegistries.Reachable`: requests of both stages, in any order and refused or not, lead to it.
* `SetupCall.Refused`: a request is answered with an error.
* `Registry.Has request answer`: what is asked for is there already, and `answer` says where.

## Main results

* `answer_atomic`: a request that is refused, or that cannot be answered, changes nothing.
* `answer_of_has`: what is there already is not registered again.
* `Answered.retains`: what has been registered stays.
* `registration_atomic`: all of this in every reachable state.
-/

namespace ShaderWeave

/-! ## Both Stages -/

/-- The registry with the counters and channels of another one. Both stages of a model share these. -/
def Registry.share (r source : Registry) : Registry :=
  { r with
    nextBinding := source.nextBinding
    pushConstantSize := source.pushConstantSize
    channelSlots := source.channelSlots }

/-- What both stages of a model have registered. -/
structure StageRegistries where
  /-- What the vertex stage has registered. -/
  vertex : Registry := { stage := .vertex }
  /-- What the fragment stage has registered. -/
  fragment : Registry := { stage := .fragment }

namespace StageRegistries

/-- What a stage has registered. -/
def registry (state : StageRegistries) : Stage → Registry
  | .vertex => state.vertex
  | .fragment => state.fragment

/-- A stage has gone on to `r`, and the other one sees what they share. -/
def store (state : StageRegistries) (stage : Stage) (r : Registry) : StageRegistries :=
  match stage with
  | .vertex => { vertex := r, fragment := state.fragment.share r }
  | .fragment => { vertex := state.vertex.share r, fragment := r }

/-- A stage is entered with nothing but what both share. -/
example (r : Registry) : (({} : StageRegistries).store .vertex r).fragment = r.enter .fragment := rfl

/-- Answer a request of a stage. -/
def answer (stage : Stage) (request : SetupCall) :
    EStateM RegisterFailure StageRegistries request.Answer := fun state =>
  match SetupState.answer request { registry := state.registry stage, notes := [] } with
  | .ok answer after => .ok answer (state.store stage after.registry)
  | .error failure after => .error failure (state.store stage after.registry)

/-- A request of some stage is answered, be it with an error. -/
def Answered (state after : StageRegistries) : Prop :=
  ∃ stage request value, answer stage request state = .ok value after

/-- Requests lead from one state to another. -/
abbrev Reaches : StageRegistries → StageRegistries → Prop := Relation.ReflTransGen Answered

/-- Requests lead to the state from the beginning, when nothing is registered. -/
def Reachable (state : StageRegistries) : Prop := Reaches {} state

/-- Requests are made one after another, whatever becomes of each. -/
def performAll (requests : List (Stage × SetupCall)) (state : StageRegistries) : StageRegistries :=
  requests.foldl (fun state request => finalState (answer request.1 request.2 state)) state

end StageRegistries

/-! ## Refused Requests -/

/-- The answer is an error. -/
def IsRefusal {α : Type} : Except GraphError α → Prop
  | .ok _ => False
  | .error _ => True

/-- The request is answered with an error. -/
def SetupCall.Refused : (request : SetupCall) → request.Answer → Prop
  | .bindAttribute _, answer => IsRefusal (α := UInt32) answer
  | .addColorOutput _, answer => IsRefusal (α := UInt32) answer
  | .allocateOutput _, answer => IsRefusal (α := UInt32) answer
  | .registerInput _ _, answer => IsRefusal (α := Unit) answer
  | .allocateChannel _, answer => IsRefusal (α := UInt32) answer
  | .channelSlot _, answer => IsRefusal (α := UInt32) answer
  | .registerChannelInput _ _, answer => IsRefusal (α := UInt32) answer
  | .addPushConstant _, answer => IsRefusal (α := UInt32) answer
  | .addSampler _ _ _, answer => IsRefusal (α := UInt32) answer
  | .addBlock _, answer => IsRefusal (α := UInt32) answer
  | .note _, _ => False

/-- A registration that is refused, or that does not fit, leaves the state as it was. -/
theorem register_atomic {α : Type} {operation : Registering α}
    (hregisters : Registry.Registers operation) (state : SetupState) :
    (∀ answer after, SetupState.register operation state = .ok answer after →
      IsRefusal answer → after = state) ∧
    ∀ failure after, SetupState.register operation state = .error failure after → after = state := by
  have hresult := hregisters state.registry
  unfold SetupState.register
  cases hrun : operation state.registry with
  | ok value r' =>
    refine ⟨fun answer after h hrefused => ?_, fun failure after h => by cases h⟩
    cases h
    exact hrefused.elim
  | error failure r' =>
    rw [hrun] at hresult
    subst hresult
    cases failure with
    | refused error =>
      refine ⟨fun answer after h _ => ?_, fun failure after h => by cases h⟩
      cases h
      rfl
    | overflow =>
      refine ⟨fun answer after h => (by cases h), fun failure after h => ?_⟩
      cases h
      rfl

/-- A request that is refused, or that cannot be answered, leaves the state as it was. -/
theorem answer_atomic (request : SetupCall) (state : SetupState) :
    (∀ answer after, SetupState.answer request state = .ok answer after →
      request.Refused answer → after = state) ∧
    ∀ failure after, SetupState.answer request state = .error failure after → after = state := by
  cases request with
  | bindAttribute a => exact register_atomic (Registry.addAttribute_registers a) state
  | addColorOutput name => exact register_atomic (Registry.addColorOutput_registers name) state
  | allocateOutput var => exact register_atomic (Registry.allocateOutput_registers var) state
  | registerInput slot var =>
    exact register_atomic (Registry.registerInput_registers slot var) state
  | allocateChannel channel =>
    exact register_atomic (Registry.allocateChannel_registers channel) state
  | channelSlot channel => exact register_atomic (Registry.channelSlot_registers channel) state
  | registerChannelInput channel expected =>
    exact register_atomic (Registry.registerChannelInput_registers channel expected) state
  | addPushConstant constant =>
    exact register_atomic (Registry.addPushConstant_registers constant) state
  | addSampler name dim arrayLen =>
    exact register_atomic (Registry.addSampler_registers name dim arrayLen) state
  | addBlock block => exact register_atomic (Registry.addBlock_registers block) state
  | note note => exact ⟨fun answer after _ hrefused => hrefused.elim, fun failure after h => by cases h⟩

/-! ## What Is There Already -/

/-- What is asked for is registered already: an attribute with its name and type, or an input with its
slot and contract. The answer says where. Other resources can be registered only once. -/
def Registry.Has (r : Registry) : (request : SetupCall) → request.Answer → Prop
  | .bindAttribute a, answer => ∃ bound ∈ r.attributes, bound.toAttribute = a ∧
      answer = (.ok bound.location : Except GraphError UInt32)
  | .registerInput slot var, answer => { slot, var } ∈ r.inputs ∧
      answer = (.ok () : Except GraphError Unit)
  | .registerChannelInput channel var, answer => ∃ slot, r.channelSlot? channel = some slot ∧
      { slot, var } ∈ r.inputs ∧ answer = (.ok slot : Except GraphError UInt32)
  | _, _ => False

/-- The request is for something that can be asked for again. -/
def SetupCall.Repeatable : SetupCall → Prop
  | .bindAttribute _ | .registerInput _ _ | .registerChannelInput _ _ => True
  | _ => False

namespace Registry

variable {r r' : Registry}

/-- Among entries with different keys, the first with the key of an entry is that entry. -/
theorem find?_eq_of_nodup {α β : Type} [BEq β] [LawfulBEq β] (key : α → β) {entries : List α}
    (hnodup : (entries.map key).Nodup) {entry : α} (hmem : entry ∈ entries) :
    entries.find? (key · == key entry) = some entry := by
  induction entries with
  | nil => cases hmem
  | cons first rest ih =>
    obtain ⟨hfresh, hrest⟩ := List.nodup_cons.1 hnodup
    by_cases hkey : key first = key entry
    · rcases List.mem_cons.1 hmem with rfl | hmem
      · simp
      · exact absurd (List.mem_map_of_mem hmem) (hkey ▸ hfresh)
    · rw [List.find?_cons_of_neg (by simpa using hkey)]
      rcases List.mem_cons.1 hmem with rfl | hmem
      · exact absurd rfl hkey
      · exact ih hrest hmem

theorem addAttribute_of_mem (hnames : DistinctNames r) {bound : BoundAttribute}
    (hmem : bound ∈ r.attributes) :
    addAttribute bound.toAttribute r = .ok bound.location r := by
  have hfind : r.attributes.find? (·.name == bound.name) = some bound :=
    find?_eq_of_nodup (fun entry => entry.name) hnames.attributes hmem
  simp [addAttribute, hfind]

theorem registerInput_of_mem (hinterface : WellFormedInterface r) {slot : UInt32} {var : Variable}
    (hmem : { slot, var } ∈ r.inputs) : registerInput slot var r = .ok () r := by
  have hfind : r.inputs.find? (·.slot == slot) = some { slot, var } :=
    find?_eq_of_nodup InterfaceSlot.slot hinterface.slots hmem
  simp [registerInput, hfind]

theorem register_of_ok {α : Type} {operation : Registering α} {value : α}
    (h : operation r = .ok value r') (notes : List Note) :
    SetupState.register operation { registry := r, notes } =
      .ok (.ok value) { registry := r', notes } := by
  simp only [SetupState.register, h]

/-- A request for what is there already is answered with where it is, and nothing changes. -/
theorem answer_of_has (hnames : DistinctNames r) (hinterface : WellFormedInterface r)
    {request : SetupCall} {answer : request.Answer} (hhas : r.Has request answer)
    (notes : List Note) :
    SetupState.answer request { registry := r, notes } = .ok answer { registry := r, notes } := by
  cases request with
  | bindAttribute a =>
    obtain ⟨bound, hmem, rfl, rfl⟩ := hhas
    exact register_of_ok (addAttribute_of_mem hnames hmem) notes
  | registerInput slot var =>
    obtain ⟨hmem, rfl⟩ := hhas
    exact register_of_ok (registerInput_of_mem hinterface hmem) notes
  | registerChannelInput channel var =>
    obtain ⟨slot, hslot, hmem, rfl⟩ := hhas
    refine register_of_ok ?_ notes
    simp only [registerChannelInput, channelSlot, hslot, registerInput_of_mem hinterface hmem]
  | addColorOutput | allocateOutput | allocateChannel | channelSlot | addPushConstant | addSampler
  | addBlock | note => exact hhas.elim

/-! ## What Stays -/

theorem mem_attributes_of_addAttribute {a : Attribute} {location : UInt32}
    (h : addAttribute a r = .ok location r') :
    ∃ bound ∈ r'.attributes, bound.toAttribute = a ∧ bound.location = location := by
  unfold addAttribute at h
  split at h
  · rename_i existing hfind
    split at h <;> cases h
    rename_i hty
    have hname : existing.name = a.name := by simpa using List.find?_some hfind
    have heq : existing.toAttribute = a :=
      calc existing.toAttribute = ⟨existing.name, existing.ty⟩ := rfl
        _ = ⟨a.name, a.ty⟩ := by rw [hname, hty]
    exact ⟨existing, List.mem_of_find?_eq_some hfind, heq, rfl⟩
  · split at h <;> cases h
    exact ⟨_, List.mem_append_right _ List.mem_cons_self, rfl, rfl⟩

theorem mem_inputs_of_registerInput {slot : UInt32} {var : Variable}
    (h : registerInput slot var r = .ok () r') :
    { slot, var } ∈ r'.inputs ∧ r'.channelSlots = r.channelSlots := by
  unfold registerInput at h
  split at h
  · rename_i existing hfind
    split at h <;> cases h
    rename_i hvar
    have hslot : existing.slot = slot := by simpa using List.find?_some hfind
    subst hslot hvar
    exact ⟨List.mem_of_find?_eq_some hfind, rfl⟩
  · split at h <;> cases h
    exact ⟨List.mem_append_right _ List.mem_cons_self, rfl⟩

/-- What a registration that is granted asks for is there afterwards. -/
theorem has_of_granted {request : SetupCall} (hrepeatable : request.Repeatable)
    {answer : request.Answer} {state after : SetupState}
    (h : SetupState.answer request state = .ok answer after) (hgranted : ¬ request.Refused answer) :
    after.registry.Has request answer := by
  cases request with
  | bindAttribute a =>
    change SetupState.register (addAttribute a) state = .ok answer after at h
    unfold SetupState.register at h
    split at h
    · rename_i location r' hrun
      cases h
      obtain ⟨bound, hmem, hattribute, hlocation⟩ := mem_attributes_of_addAttribute hrun
      exact ⟨bound, hmem, hattribute, hlocation ▸ rfl⟩
    · cases h
      exact absurd trivial hgranted
    · cases h
  | registerInput slot var =>
    change SetupState.register (Registry.registerInput slot var) state = .ok answer after at h
    unfold SetupState.register at h
    split at h
    · rename_i value r' hrun
      cases h
      exact ⟨(mem_inputs_of_registerInput hrun).1, rfl⟩
    · cases h
      exact absurd trivial hgranted
    · cases h
  | registerChannelInput channel var =>
    change SetupState.register (Registry.registerChannelInput channel var) state =
      .ok answer after at h
    unfold SetupState.register at h
    split at h
    · rename_i slot r' hrun
      cases h
      unfold registerChannelInput channelSlot at hrun
      split at hrun
      · cases hrun
      · rename_i found middle hslot
        split at hslot <;> cases hslot
        rename_i hfound
        split at hrun <;> cases hrun
        rename_i hinput
        obtain ⟨hmem, hchannels⟩ := mem_inputs_of_registerInput hinput
        refine ⟨slot, ?_, hmem, rfl⟩
        unfold channelSlot? at hfound ⊢
        rw [hchannels, hfound]
    · cases h
      exact absurd trivial hgranted
    · cases h
  | addColorOutput | allocateOutput | allocateChannel | channelSlot | addPushConstant | addSampler
  | addBlock | note => exact hrepeatable.elim

/-- The second registry still has the attributes, the inputs and the slots of channels of the first. -/
structure Retains (r r' : Registry) : Prop where
  /-- Attributes stay. -/
  attributes : r.attributes ⊆ r'.attributes
  /-- Inputs stay. -/
  inputs : r.inputs ⊆ r'.inputs
  /-- A channel that has a slot keeps it. -/
  channels : ∀ channel slot, r.channelSlot? channel = some slot → r'.channelSlot? channel = some slot

theorem Retains.refl (r : Registry) : Retains r r :=
  ⟨List.Subset.refl _, List.Subset.refl _, fun _ _ h => h⟩

theorem Retains.trans {middle : Registry} (hfirst : Retains r middle) (hrest : Retains middle r') :
    Retains r r' :=
  ⟨List.Subset.trans hfirst.attributes hrest.attributes,
    List.Subset.trans hfirst.inputs hrest.inputs,
    fun channel slot h => hrest.channels channel slot (hfirst.channels channel slot h)⟩

theorem Has.retained {request : SetupCall} {answer : request.Answer} (h : r.Has request answer)
    (hretains : Retains r r') : r'.Has request answer := by
  cases request with
  | bindAttribute a =>
    obtain ⟨bound, hmem, hbound⟩ := h
    exact ⟨bound, hretains.attributes hmem, hbound⟩
  | registerInput slot var => exact ⟨hretains.inputs h.1, h.2⟩
  | registerChannelInput channel var =>
    obtain ⟨slot, hslot, hmem, hanswer⟩ := h
    exact ⟨slot, hretains.channels channel slot hslot, hretains.inputs hmem, hanswer⟩
  | addColorOutput | allocateOutput | allocateChannel | channelSlot | addPushConstant | addSampler
  | addBlock | note => exact h.elim

end Registry

/-- A registration only adds. -/
theorem Registration.retains {r r' : Registry} (h : Registration r r') : r.Retains r' := by
  cases h with
  | vertexAttribute a nextLocation hname hnext =>
    exact ⟨List.subset_append_left .., List.Subset.refl _, fun _ _ h => h⟩
  | input slot var hslot hname =>
    exact ⟨List.Subset.refl _, List.subset_append_left .., fun _ _ h => h⟩
  | channel added slot hfresh hlast =>
    refine ⟨List.Subset.refl _, List.Subset.refl _, fun channel old h => ?_⟩
    -- The channel that gets a slot had none, so it is not the one that is looked up.
    have hother : channel.id ≠ added.id := by
      intro heq
      rw [Registry.channelSlot?, heq] at h
      rw [Registry.channelSlot?, h] at hfresh
      cases hfresh
    rw [Registry.channelSlot?, List.lookup_cons, beq_eq_false_iff_ne.2 hother]
    exact h
  | output | colorOutput | block | pushConstant | sampler =>
    exact ⟨List.Subset.refl _, List.Subset.refl _, fun _ _ h => h⟩

theorem Registrations.retains {r r' : Registry} (h : Registrations r r') : r.Retains r' := by
  induction h with
  | refl => exact .refl r
  | tail _ hlast ih => exact ih.trans hlast.retains

/-! ## Reachable States -/

namespace StageRegistries

variable {state after later : StageRegistries} {stage : Stage} {request : SetupCall}
  {value : request.Answer}

/-- Both stages agree on what they share, and in each of them attributes have different names and
inputs different slots. -/
structure WellFormed (state : StageRegistries) : Prop where
  /-- The vertex stage has the shared counters and channels of the fragment stage. -/
  vertex_share : state.vertex.share state.fragment = state.vertex
  /-- The fragment stage has the shared counters and channels of the vertex stage. -/
  fragment_share : state.fragment.share state.vertex = state.fragment
  /-- The attributes of a stage have different names. -/
  names : ∀ stage, DistinctNames (state.registry stage)
  /-- The interface of a stage is well-formed. -/
  interfaces : ∀ stage, WellFormedInterface (state.registry stage)

/-- Nothing happens if a stage stays where it is. -/
theorem WellFormed.store_registry (h : state.WellFormed) (stage : Stage) :
    state.store stage (state.registry stage) = state := by
  cases stage with
  | vertex => simp only [store, registry, h.fragment_share]
  | fragment => simp only [store, registry, h.vertex_share]

theorem registry_store (state : StageRegistries) (stage other : Stage) (r : Registry) :
    (state.store stage r).registry other =
      if other = stage then r else (state.registry other).share r := by
  cases stage <;> cases other <;> rfl

/-- Registrations of one stage keep both stages well-formed: the other stage only takes over what is
shared. -/
theorem WellFormed.store (h : state.WellFormed) {r : Registry}
    (hregistrations : Registrations (state.registry stage) r) :
    (state.store stage r).WellFormed := by
  refine ⟨?_, ?_, fun other => ?_, fun other => ?_⟩
  · cases stage <;> rfl
  · cases stage <;> rfl
  · rw [registry_store]
    by_cases hother : other = stage
    · rw [if_pos hother]
      exact hregistrations.keep (fun _ _ hstep => hstep.distinctNames) (h.names stage)
    · rw [if_neg hother]
      exact ⟨(h.names other).attributes, (h.names other).colorOutputs⟩
  · rw [registry_store]
    by_cases hother : other = stage
    · rw [if_pos hother]
      exact hregistrations.wellFormedInterface (h.interfaces stage)
    · rw [if_neg hother]
      have hinterface := h.interfaces other
      exact ⟨hinterface.tiles, hinterface.names, hinterface.slots⟩

/-- Channels have the same slots in both stages. -/
theorem WellFormed.channelSlots_eq (h : state.WellFormed) (stage other : Stage) :
    (state.registry stage).channelSlots = (state.registry other).channelSlots := by
  have hagree := congrArg Registry.channelSlots h.vertex_share
  change state.fragment.channelSlots = state.vertex.channelSlots at hagree
  cases stage <;> cases other
  · rfl
  · exact hagree.symm
  · exact hagree
  · rfl

/-- A registration of one stage takes nothing away from either. -/
theorem WellFormed.retains_store (h : state.WellFormed) {r : Registry}
    (hregistrations : Registrations (state.registry stage) r) (other : Stage) :
    (state.registry other).Retains ((state.store stage r).registry other) := by
  have hretains := hregistrations.retains
  rw [registry_store]
  by_cases hother : other = stage
  · rw [if_pos hother, hother]
    exact hretains
  · rw [if_neg hother]
    refine ⟨List.Subset.refl _, List.Subset.refl _, fun channel slot hslot => ?_⟩
    -- The channel has that slot in the stage that registers, too, and keeps it there.
    exact hretains.channels channel slot (by rwa [Registry.channelSlot?, h.channelSlots_eq stage other])

/-- Where the answer to a request of a stage leads. -/
theorem answer_eq_ok (h : answer stage request state = .ok value after) :
    ∃ reached, SetupState.answer request { registry := state.registry stage, notes := [] } =
        .ok value reached ∧ after = state.store stage reached.registry := by
  unfold answer at h
  split at h <;> cases h
  exact ⟨_, by assumption, rfl⟩

theorem Answered.keeps (h : Answered state after) (hwell : state.WellFormed) :
    after.WellFormed ∧ ∀ stage, (state.registry stage).Retains (after.registry stage) := by
  obtain ⟨stage, request, value, hanswer⟩ := h
  obtain ⟨reached, hreached, rfl⟩ := answer_eq_ok hanswer
  have hregistrations := answer_registrations hreached
  exact ⟨hwell.store hregistrations, hwell.retains_store hregistrations⟩

/-- Requests keep the state well-formed, and what has been registered stays. -/
theorem Reaches.keeps (h : Reaches state after) (hwell : state.WellFormed) :
    after.WellFormed ∧ ∀ stage, (state.registry stage).Retains (after.registry stage) := by
  induction h with
  | refl => exact ⟨hwell, fun stage => .refl _⟩
  | tail _ hlast ih =>
    obtain ⟨hmiddle, hretains⟩ := ih
    obtain ⟨hafter, hlastRetains⟩ := hlast.keeps hmiddle
    exact ⟨hafter, fun stage => (hretains stage).trans (hlastRetains stage)⟩

theorem Reachable.wellFormed (h : Reachable state) : state.WellFormed := by
  have hstart : ({} : StageRegistries).WellFormed := by
    refine ⟨rfl, rfl, fun stage => ?_, fun stage => ?_⟩
    · cases stage <;> exact ⟨List.nodup_nil, List.nodup_nil⟩
    · cases stage <;> exact ⟨rfl, List.nodup_nil, List.nodup_nil⟩
  exact (Reaches.keeps h hstart).1

/-- What is there already is found where it is, and both stages stay as they are. -/
theorem WellFormed.answer_of_has (h : state.WellFormed)
    (hhas : (state.registry stage).Has request value) :
    answer stage request state = .ok value state := by
  have hanswer := Registry.answer_of_has (h.names stage) (h.interfaces stage) hhas []
  simp only [answer, hanswer, h.store_registry]

/-- A request that is refused leaves both stages as they were. -/
theorem WellFormed.eq_of_refused (h : state.WellFormed)
    (hanswer : answer stage request state = .ok value after) (hrefused : request.Refused value) :
    after = state := by
  obtain ⟨reached, hreached, rfl⟩ := answer_eq_ok hanswer
  rw [(answer_atomic request _).1 value reached hreached hrefused]
  exact h.store_registry stage

/-- A request that cannot be answered leaves both stages as they were. -/
theorem WellFormed.eq_of_error (h : state.WellFormed) {failure : RegisterFailure}
    (hanswer : answer stage request state = .error failure after) : after = state := by
  unfold answer at hanswer
  split at hanswer <;> cases hanswer
  rename_i reached hreached
  rw [(answer_atomic request _).2 failure reached hreached]
  exact h.store_registry stage

/-- Any requests lead to a reachable state: what cannot be answered is as good as not asked. -/
theorem reachable_performAll (requests : List (Stage × SetupCall)) :
    Reachable (performAll requests {}) := by
  suffices hfrom : ∀ state, Reachable state → Reachable (performAll requests state) from
    hfrom {} .refl
  induction requests with
  | nil => exact fun state h => h
  | cons request rest ih =>
    intro state h
    apply ih
    change Reachable (finalState (answer request.1 request.2 state))
    cases hanswer : answer request.1 request.2 state with
    | ok value after => exact h.tail ⟨request.1, request.2, value, hanswer⟩
    | error failure after =>
      change Reachable after
      rw [h.wellFormed.eq_of_error hanswer]
      exact h

/-- Registration is atomic, and registering again does nothing. In every state that requests of both
stages can lead to, in any order and with any of them refused: a request of either stage that is
refused, or that cannot be answered, leaves both stages with all their counters and channels exactly as
they were; a request for an attribute or an interface input that is there already is answered with where
it is and changes nothing; and a request for one of these that is granted will be answered in the same
way, and change nothing, in every later state. -/
theorem registration_atomic {state : StageRegistries} (h : Reachable state) (stage : Stage)
    (request : SetupCall) :
    (∀ value after, answer stage request state = .ok value after → request.Refused value →
      after = state) ∧
    (∀ failure after, answer stage request state = .error failure after → after = state) ∧
    (∀ value, (state.registry stage).Has request value →
      answer stage request state = .ok value state) ∧
    ∀ value after, answer stage request state = .ok value after → ¬ request.Refused value →
      request.Repeatable → ∀ later, Reaches after later →
        (later.registry stage).Has request value ∧ answer stage request later = .ok value later := by
  have hwell := h.wellFormed
  refine ⟨fun value after hanswer => hwell.eq_of_refused hanswer,
    fun failure after hanswer => hwell.eq_of_error hanswer,
    fun value hhas => hwell.answer_of_has hhas, ?_⟩
  intro value after hanswer hgranted hrepeatable later hlater
  obtain ⟨reached, hreached, rfl⟩ := answer_eq_ok hanswer
  obtain ⟨hlaterWell, hretains⟩ :=
    Reaches.keeps hlater (hwell.store (answer_registrations hreached))
  -- What was granted is there right after the answer, and stays.
  have hhas : ((state.store stage reached.registry).registry stage).Has request value := by
    rw [registry_store, if_pos rfl]
    exact Registry.has_of_granted hrepeatable hreached hgranted
  have hhasLater := hhas.retained (hretains stage)
  exact ⟨hhasLater, hlaterWell.answer_of_has hhasLater⟩

/-- An attribute, a push constant and a channel are registered by the two stages in turn; the channel
is read once before it has a slot, which is refused. -/
def interleavedRequests : List (Stage × SetupCall) :=
  let carried : Channel := { id := 0, var := { name := "vNormal", ty := .vec3 } }
  [(.vertex, .bindAttribute { name := "position", ty := .vec3 }),
    (.fragment, .addPushConstant { var := { name := "uTime", ty := .float }, cell := 0 }),
    (.fragment, .registerChannelInput carried carried.var),
    (.vertex, .allocateChannel carried),
    (.fragment, .registerChannelInput carried carried.var)]

/-- Afterwards the attribute and the input of the channel can be registered again without a change, and
a second push constant of the same name is refused without a change. -/
theorem interleavedRequests_atomic :
    let state := performAll interleavedRequests {}
    Reachable state ∧
      answer .vertex (.bindAttribute { name := "position", ty := .vec3 }) state =
        .ok (.ok 0) state ∧
      answer .fragment (.registerInput 0 { name := "vNormal", ty := .vec3 }) state =
        .ok (.ok ()) state ∧
      answer .fragment (.addPushConstant { var := { name := "uTime", ty := .vec4 }, cell := 1 })
        state = .ok (.error (.duplicateBinding "uTime" .fragment)) state := by
  have hreachable := reachable_performAll interleavedRequests
  refine ⟨hreachable, ?_, ?_, ?_⟩
  · exact (registration_atomic hreachable .vertex _).2.2.1 _ ⟨_, List.mem_cons_self, rfl, rfl⟩
  · exact (registration_atomic hreachable .fragment _).2.2.1 _ ⟨List.mem_cons_self, rfl⟩
  · obtain ⟨after, hanswer⟩ : ∃ after, answer .fragment
        (.addPushConstant { var := { name := "uTime", ty := .vec4 }, cell := 1 })
        (performAll interleavedRequests {}) =
          .ok (.error (.duplicateBinding "uTime" .fragment)) after := ⟨_, rfl⟩
    rw [hanswer, (registration_atomic hreachable .fragment _).1 _ after hanswer trivial]

end StageRegistries

end ShaderWeave
