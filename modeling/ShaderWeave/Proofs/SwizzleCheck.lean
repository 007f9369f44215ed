import ShaderWeave.Proofs.ChannelSlots
import ShaderWeave.Proofs.SplitDeclarations

/-!
# Which Channels Can Be Selected

The check of channels goes through their characters and keeps in mind which set of names the first one
belongs to, while it counts bytes and not characters. It nevertheless passes exactly the strings of one
to four names that one set has for the components at hand: a name takes one byte, and no name belongs to
two sets.

The check is made when a node is set up, so a model with a selection that does not pass is refused before
any node writes code.

## Main results

* `checkChannels_eq_true`: channels of one set pass the check.
* `validate_eq_ok_iff`: the check passes exactly what can be selected.
* `selection_checked_exactly`: what passes, what comes of it, and what becomes of a model otherwise.
-/

namespace ShaderWeave

/-- Channels that can be selected from a type: one to four names, all of which one set has for the
components of the type. -/
def Swizzle.Allowed (ty : ValueType) (channels : String) : Prop :=
  ∃ components, ty.components = some components ∧ 1 ≤ channels.length ∧ channels.length ≤ 4 ∧
    ∃ names ∈ ["xyzw", "rgba", "stpq"], ∀ c ∈ channels.toList, c ∈ names.toList.take components

/-! ## Channels of One Set -/

/-- A name is found in its own set, since no other set has it. -/
theorem channel?_of_mem_take {names : List Char} {c : Char} {s n : Nat}
    (hnames : Swizzle.channelSets[s]? = some names) (hc : c ∈ names.take n) :
    ∃ i < n, Swizzle.channel? c = some (s, i) := by
  obtain ⟨i, hi, rfl⟩ := List.mem_take_iff_getElem.1 hc
  obtain ⟨hn, hlength⟩ := Nat.lt_min.1 hi
  refine ⟨i, hn, ?_⟩
  have hall : (Swizzle.channelSets.zipIdx.all fun set => set.1.zipIdx.all fun name =>
      Swizzle.channel? name.1 == some (set.2, name.2)) = true := by
    decide
  have hset := List.all_eq_true.1 hall (names, s) (List.mem_zipIdx_iff_getElem?.2 hnames)
  have hname := List.all_eq_true.1 hset (names[i], i)
    (List.mem_zipIdx_iff_getElem?.2 (List.getElem?_eq_getElem hlength))
  exact eq_of_beq hname

/-- Channels of the set that earlier ones belong to pass the check. -/
theorem checkChannels_eq_true {n s : Nat} {set : Option Nat} {chars : List Char}
    (hset : ∀ earlier ∈ set, earlier = s)
    (h : ∀ c ∈ chars, ∃ i < n, Swizzle.channel? c = some (s, i)) :
    Swizzle.checkChannels n set chars = true := by
  induction chars generalizing set with
  | nil => rfl
  | cons c rest ih =>
    obtain ⟨⟨i, hi, hchannel⟩, hrest⟩ := List.forall_mem_cons.1 h
    have hsame : set.any (· != s) = false := by
      cases set with
      | none => rfl
      | some earlier => simp [hset earlier rfl]
    rw [Swizzle.checkChannels]
    simp only [hchannel, hsame, Bool.or_false, decide_eq_true_eq, if_neg (Nat.not_le.2 hi)]
    exact ih (by simp) hrest

theorem utf8ByteSize_eq_of_mem {names channels : String} (hnames : names ∈ ["xyzw", "rgba", "stpq"])
    (h : ∀ c ∈ channels.toList, c ∈ names.toList) : channels.utf8ByteSize = channels.length := by
  have hmem : names.toList ∈ Source.channelNames := List.mem_map_of_mem hnames
  exact utf8ByteSize_eq_length fun c hc => (letter_of_mem_channelNames hmem (h c hc)).2.2

/-- The check passes exactly what can be selected. -/
theorem validate_eq_ok_iff {ty : ValueType} {channels : String} :
    Swizzle.validate ty channels = .ok () ↔ Swizzle.Allowed ty channels := by
  constructor
  · intro h
    obtain ⟨kind, width, names, rfl, hnonempty, hle, hnames, hmem⟩ := exists_names_of_validate h
    obtain ⟨text, htext, rfl⟩ : ∃ text ∈ ["xyzw", "rgba", "stpq"], String.toList text = names :=
      List.mem_map.1 hnames
    have hsize := utf8ByteSize_eq_of_mem htext fun c hc => List.mem_of_mem_take (hmem c hc)
    rw [hsize] at hnonempty hle
    exact ⟨width.toNat, rfl, Nat.pos_of_ne_zero hnonempty, hle, text, htext, hmem⟩
  · rintro ⟨components, hcomponents, hpos, hle, names, hnames, hmem⟩
    have hsize := utf8ByteSize_eq_of_mem hnames fun c hc => List.mem_of_mem_take (hmem c hc)
    obtain ⟨s, hset⟩ := List.mem_iff_getElem?.1
      (show names.toList ∈ Swizzle.channelSets from List.mem_map_of_mem hnames)
    have hcheck : Swizzle.checkChannels components none channels.toList = true :=
      checkChannels_eq_true (by simp) fun c hc => channel?_of_mem_take hset (hmem c hc)
    have hcount : ¬ (channels.utf8ByteSize = 0 ∨ 4 < channels.utf8ByteSize) := by
      omega
    simp only [Swizzle.validate, hcomponents, if_neg hcount, hcheck, if_true]

/-- The check has one error. -/
theorem validate_eq_error {ty : ValueType} {channels : String} (h : ¬ Swizzle.Allowed ty channels) :
    Swizzle.validate ty channels = .error (.invalidSwizzle channels) := by
  have hrefused := mt validate_eq_ok_iff.1 h
  unfold Swizzle.validate at hrefused ⊢
  split
  · rfl
  · rename_i components hcomponents
    simp only [hcomponents] at hrefused
    split
    · rfl
    · rename_i hsize
      rw [if_neg hsize] at hrefused
      rw [if_neg]
      intro hcheck
      exact hrefused (if_pos hcheck)

/-! ## Models with a Selection -/

section Selection

variable {m : Model} {start : CompileInput} {stage : Stage} {index : Nat} {id : NodeId}
  {channels : String} {kind : ScalarKind} {input : Handle}

/-- What compiling fails with when channels do not pass the check. -/
def swizzleFailure (stage : Stage) (channels : String) : CompileFailure :=
  .graph (.inNode "split" stage.mask (.invalidSwizzle channels))

/-- The setup of a selection that does not pass the check fails. -/
theorem perform_setup_of_not_allowed
    (hnode : (m.graph stage).nodes[index]? =
      some ((LibraryNode.arithmetic (.split channels kind input)).toNode id))
    (h : ¬ Swizzle.Allowed input.value.ty channels) (reached : Progress) :
    (CompileStep.call (.setup stage index)).perform m start reached =
      .error (swizzleFailure stage channels) := by
  have hsetup : (LibraryNode.arithmetic (.split channels kind input)).setup =
      .fail (.invalidSwizzle channels) := by
    show Routine.ofExcept (Swizzle.validate input.value.ty channels) = _
    rw [validate_eq_error h]
    rfl
  have houtcome : (m.graph stage).setupOutcome (reached.registry stage) index =
      .error (swizzleFailure stage channels) := by
    unfold StageGraph.setupOutcome
    rw [hnode]
    simp only [LibraryNode.toNode, hsetup, Model.graph_stage]
    rfl
  simp only [CompileStep.perform, houtcome]

/-- A model with such a selection does not get past its setups. -/
theorem not_declared_of_not_allowed {p declared : Progress}
    (hnode : (m.graph stage).nodes[index]? =
      some ((LibraryNode.arithmetic (.split channels kind input)).toNode id))
    (h : ¬ Swizzle.Allowed input.value.ty channels) :
    ¬ Performed m start p (m.declareSteps start) declared := by
  intro hdeclared
  obtain ⟨before, after, hsetup⟩ := exists_setup_of_declared hdeclared hnode
  have hrun : (ArithmeticNode.split channels kind input).setup.run before = .ok () after := hsetup
  exact h (validate_eq_ok_iff.1 (validate_of_setup hrun))

/-- Compiling such a model fails at a step that is no emission, and at the setup of the selection at the
latest. -/
theorem exists_failing_step_of_not_allowed
    (hnode : (m.graph stage).nodes[index]? =
      some ((LibraryNode.arithmetic (.split channels kind input)).toNode id))
    (h : ¬ Swizzle.Allowed input.value.ty channels) :
    ∃ done step rest failure, m.agenda start = done ++ step :: rest ∧
      (∀ s i, step ≠ .call (.emit s i)) ∧ .call (.setup stage index) ∉ done ∧
      (step = .call (.setup stage index) → failure = swizzleFailure stage channels) ∧
      (m.compile start).outcome = .error failure ∧
      (m.compile start).log.calls = (done ++ [step]).filterMap CompileStep.call? := by
  rcases compile_cases m start with ⟨finish, hperformed, -, -⟩ |
    ⟨done, step, rest, reached, failure, hagenda, hdone, hstep, herror, hcalls, -⟩
  · obtain ⟨declared, hdeclare, -⟩ := performed_append_iff.1 hperformed
    exact absurd hdeclare (not_declared_of_not_allowed hnode h)
  · refine ⟨done, step, rest, failure, hagenda, ?_, ?_, ?_, herror, hcalls⟩
    · -- Before an emission all declaring steps are performed.
      rintro s i rfl
      obtain ⟨emitted, rfl, -⟩ :=
        append_eq_of_notMem_left hagenda (emit_notMem_declareSteps m start s i)
      obtain ⟨declared, hdeclare, -⟩ := performed_append_iff.1 hdone
      exact not_declared_of_not_allowed hnode h hdeclare
    · intro hmem
      obtain ⟨before, after, hperform⟩ := exists_perform_of_mem hdone hmem
      rw [perform_setup_of_not_allowed hnode h] at hperform
      cases hperform
    · rintro rfl
      rw [perform_setup_of_not_allowed hnode h] at hstep
      cases hstep
      rfl

end Selection

/-! ## Main Result -/

/-- The type of a selection has a component for each channel that can be selected. -/
theorem components_splitType {ty : ValueType} {channels : String} (h : Swizzle.Allowed ty channels)
    (kind : ScalarKind) :
    (ArithmeticNode.splitType kind channels).components = some channels.length := by
  obtain ⟨_, _, selected, hselects⟩ := exists_selects_of_validate (validate_eq_ok_iff.2 h)
  rw [hselects.splitType_eq, ← String.length_toList, hselects.length_eq]
  rfl

/-- The check of a selection, whatever its channels, its input and the kind that it keeps.

* It passes exactly if the input is a scalar or vector and the channels are one to four names that one
  set has for its components. Then the value that the node computes has a component for each channel.
* Otherwise it fails with the channels as an invalid swizzle, and no model with the node compiles.
  Compiling it emits nothing and fails with that error in the node, unless something fails before the
  node is set up. -/
theorem selection_checked_exactly (id : NodeId) (channels : String) (kind : ScalarKind)
    (input : Handle) :
    (Swizzle.validate input.value.ty channels = .ok () ↔
      Swizzle.Allowed input.value.ty channels) ∧
    (Swizzle.Allowed input.value.ty channels →
      ((ArithmeticNode.split channels kind input).output id).value.ty.components =
          some channels.length ∧
        ((ArithmeticNode.split channels kind input).output id).value.arrayLen = none) ∧
    (¬ Swizzle.Allowed input.value.ty channels →
      Swizzle.validate input.value.ty channels = .error (.invalidSwizzle channels) ∧
      ∀ (m : Model) (start : CompileInput) (stage : Stage) (index : Nat),
        (m.graph stage).nodes[index]? =
          some ((LibraryNode.arithmetic (.split channels kind input)).toNode id) →
        (∀ s i, .emit s i ∉ (m.compile start).log.calls) ∧
        (∃ failure, (m.compile start).outcome = .error failure) ∧
        (.setup stage index ∈ (m.compile start).log.calls →
          (m.compile start).outcome =
            .error (.graph (.inNode "split" stage.mask (.invalidSwizzle channels)))) ∧
        ∀ done rest reached, m.agenda start = done ++ .call (.setup stage index) :: rest →
          Performed m start (.start start) done reached →
          (m.compile start).outcome =
            .error (.graph (.inNode "split" stage.mask (.invalidSwizzle channels)))) := by
  refine ⟨validate_eq_ok_iff, fun h => ⟨components_splitType h kind, rfl⟩, fun h =>
    ⟨validate_eq_error h, fun m start stage index hnode => ?_⟩⟩
  obtain ⟨done, step, rest, failure, hagenda, hnoEmit, hnotDone, hsetup, herror, hcalls⟩ :=
    exists_failing_step_of_not_allowed hnode h
  refine ⟨fun s i => ?_, ⟨failure, herror⟩, fun hmade => ?_,
    fun before after reached hsplit hbefore => ?_⟩
  · rw [hcalls]
    exact emit_notMem_calls hagenda hnoEmit s i
  · -- The call was made by a step that was tried, and no such step but the last one failed.
    rw [hcalls] at hmade
    obtain ⟨tried, htried, hcall⟩ := List.mem_filterMap.1 hmade
    have hstep : tried = .call (.setup stage index) := by
      cases tried <;> cases hcall
      rfl
    subst hstep
    have hlast : step = .call (.setup stage index) := by
      rcases List.mem_append.1 htried with hmem | hmem
      · exact absurd hmem hnotDone
      · exact (List.mem_singleton.1 hmem).symm
    rw [herror, hsetup hlast]
    rfl
  · exact compile_outcome_of_error hsplit hbefore (perform_setup_of_not_allowed hnode h reached)

/-- Names of two sets are refused in a model, and names of one set give a component each. -/
theorem mixedSets_checked :
    ¬ Swizzle.Allowed .vec4 "xg" ∧
      ((splitDesign (colorHandle .vec4) "xg" []).model.compile { target := .vulkan }).outcome =
        .error (.graph (.inNode "split" Stage.fragment.mask (.invalidSwizzle "xg"))) ∧
      Swizzle.Allowed .vec3 "spt" ∧
      ((ArithmeticNode.newSplit (colorHandle .vec3) "spt").output default).value.ty.components =
        some 3 := by
  obtain ⟨hmixed, -, hrefused⟩ := selection_checked_exactly { stage := .fragment, graph := 1, index := 0 }
    "xg" .float (colorHandle .vec4)
  have hnotAllowed : ¬ Swizzle.Allowed .vec4 "xg" := fun hallowed => by cases hmixed.2 hallowed
  have hsetUp : PassCall.setup .fragment 0 ∈
      ((splitDesign (colorHandle .vec4) "xg" []).model.compile { target := .vulkan }).log.calls := by
    decide +kernel
  obtain ⟨hcoordinates, hcomponents, -⟩ :=
    selection_checked_exactly default "spt" .float (colorHandle .vec3)
  have hallowed : Swizzle.Allowed .vec3 "spt" := hcoordinates.1 rfl
  exact ⟨hnotAllowed, ((hrefused hnotAllowed).2 _ { target := .vulkan } .fragment 0 rfl).2.2.1 hsetUp,
    hallowed, (hcomponents hallowed).1⟩

end ShaderWeave
