import ShaderWeave.Proofs.ChannelAssignments

/-!
# The Type of Selected Components

A node that selects components keeps the kind of components that its input had when the node was made.
Its input can be wired again, and before any code is written the channels are checked against the
components of the input that is wired then, but not against their kind. So the type that the node
declares is that of the selected components exactly if the kinds are the same.

## Main definitions

* `rewired`, `lastInput`: a node and the input of a selection after some wirings.
* `Selects`: what channels select from a type.

## Main results

* `rewired_split`: wirings change nothing of a selection but its input.
* `exists_selects_of_validate`: channels that pass the check select components.
* `split_declares_swizzle_type_iff`: what a selection declares, and when it is well typed.
-/

namespace ShaderWeave

open Source

/-! ## Wirings -/

/-- The node after some wirings; those that it has no input for change nothing. -/
def rewired (node : LibraryNode) (wires : List (Socket × Handle)) : LibraryNode :=
  wires.foldl (fun node wire => (node.wire wire.1 wire.2).getD node) node

/-- The input of a selection after some wirings. -/
def lastInput (first : Handle) (wires : List (Socket × Handle)) : Handle :=
  wires.foldl (fun input wire => if wire.1 = .input then wire.2 else input) first

theorem wire_split (channels : String) (kind : ScalarKind) (input h : Handle) (socket : Socket) :
    ((LibraryNode.arithmetic (.split channels kind input)).wire socket h).getD
        (.arithmetic (.split channels kind input)) =
      .arithmetic (.split channels kind (if socket = .input then h else input)) := by
  cases socket <;> rfl

/-- Whatever is wired, the channels and the kind of a selection stay. -/
theorem rewired_split (channels : String) (kind : ScalarKind) (input : Handle)
    (wires : List (Socket × Handle)) :
    rewired (.arithmetic (.split channels kind input)) wires =
      .arithmetic (.split channels kind (lastInput input wires)) := by
  unfold rewired lastInput
  induction wires generalizing input with
  | nil => rfl
  | cons wire wires ih => rw [List.foldl_cons, List.foldl_cons, wire_split, ih]

/-! ## Channels that Pass the Check -/

/-- What channels select from a type. -/
structure Selects (ty : ValueType) (channels : String) (kind : ScalarKind) (width selected : Width) :
    Prop where
  /-- The type has components. -/
  ty_eq : ty = .vector kind width
  /-- The channels name some of them. -/
  indices : ∃ indices, channelIndices width.toNat channels = some indices ∧
    Width.ofNat? indices.length = some selected
  /-- There is one for each channel. -/
  length_eq : channels.toList.length = selected.toNat
  /-- Each channel takes one byte. -/
  size_eq : channels.utf8ByteSize = selected.toNat
  /-- The channels are a word. -/
  isWord : IsWord channels
  /-- The word does not start with a digit. -/
  start : startsWithDigit channels = false

theorem checkChannels_cons {n : Nat} {set : Option Nat} {c : Char} {rest : List Char}
    (h : Swizzle.checkChannels n set (c :: rest) = true) :
    ∃ s i, Swizzle.channel? c = some (s, i) ∧ i < n ∧ (∀ s' ∈ set, s' = s) ∧
      Swizzle.checkChannels n (some s) rest = true := by
  unfold Swizzle.checkChannels at h
  cases hchannel : Swizzle.channel? c with
  | none =>
    rw [hchannel] at h
    cases h
  | some found =>
    rcases found with ⟨s, i⟩
    simp only [hchannel] at h
    split at h
    · cases h
    · rename_i hpasses
      simp only [Bool.or_eq_true, decide_eq_true_eq, not_or, Nat.not_le] at hpasses
      refine ⟨s, i, rfl, hpasses.1, fun s' hs' => ?_, h⟩
      have hsame := hpasses.2
      rw [show set = some s' from hs'] at hsame
      simpa using hsame

/-- All channels are among the first names of one set. -/
theorem forall_channel?_of_checkChannels {n s : Nat} {chars : List Char}
    (h : Swizzle.checkChannels n (some s) chars = true) :
    ∀ c ∈ chars, ∃ i < n, Swizzle.channel? c = some (s, i) := by
  induction chars with
  | nil => exact fun c hc => absurd hc List.not_mem_nil
  | cons c rest ih =>
    obtain ⟨s', i, hchannel, hi, hset, hrest⟩ := checkChannels_cons h
    obtain rfl := hset s rfl
    exact List.forall_mem_cons.2 ⟨⟨i, hi, hchannel⟩, ih hrest⟩

theorem mem_take_of_channel? {c : Char} {n s i : Nat} (h : Swizzle.channel? c = some (s, i))
    (hi : i < n) : ∃ names, channelNames[s]? = some names ∧ c ∈ names.take n := by
  obtain ⟨⟨names, set⟩, hmem, hfound⟩ := List.exists_of_findSome?_eq_some h
  obtain ⟨place, hplace, heq⟩ := Option.map_eq_some_iff.1 hfound
  cases heq
  obtain ⟨hlength, hget, -⟩ := List.idxOf?_eq_some_iff.1 hplace
  refine ⟨names, List.mem_zipIdx_iff_getElem?.1 hmem, ?_⟩
  exact List.mem_take_iff_getElem.2 ⟨i, Nat.lt_min.2 ⟨hi, hlength⟩, hget⟩

/-- The names of channels are letters of one byte. -/
theorem letter_of_mem_channelNames {names : List Char} {c : Char} (hnames : names ∈ channelNames)
    (hc : c ∈ names) : isWordChar c = true ∧ c.isDigit = false ∧ c.utf8Size = 1 := by
  have hall : (channelNames.all fun names =>
      names.all fun c => isWordChar c && (!c.isDigit && c.utf8Size == 1)) = true := by
    decide
  have hone := List.all_eq_true.1 (List.all_eq_true.1 hall names hnames) c hc
  simpa using hone

/-- Channels that pass the check are names of one set, as many as there are bytes. -/
theorem exists_names_of_validate {ty : ValueType} {channels : String}
    (h : Swizzle.validate ty channels = .ok ()) :
    ∃ kind width names, ty = .vector kind width ∧ channels.utf8ByteSize ≠ 0 ∧
      channels.utf8ByteSize ≤ 4 ∧ names ∈ channelNames ∧
      ∀ c ∈ channels.toList, c ∈ names.take width.toNat := by
  unfold Swizzle.validate at h
  cases ty with
  | matrix size => cases h
  | sampler dim => cases h
  | vector kind width =>
    simp only [ValueType.components] at h
    split at h
    · cases h
    · rename_i hsize
      split at h
      · rename_i hcheck
        obtain ⟨hnonempty, hle⟩ := not_or.1 hsize
        have hchars : channels.toList ≠ [] := by
          intro hnil
          rw [String.toList_eq_nil_iff.1 hnil] at hnonempty
          exact hnonempty rfl
        obtain ⟨c, rest, hcons⟩ := List.exists_cons_of_ne_nil hchars
        -- The first channel decides which set the others belong to.
        rw [hcons] at hcheck
        obtain ⟨s, i, hchannel, hi, -, hrest⟩ := checkChannels_cons hcheck
        obtain ⟨names, hnames, hmem⟩ := mem_take_of_channel? hchannel hi
        refine ⟨kind, width, names, rfl, hnonempty, Nat.not_lt.1 hle, List.mem_of_getElem? hnames, ?_⟩
        rw [hcons]
        refine List.forall_mem_cons.2 ⟨hmem, fun d hd => ?_⟩
        obtain ⟨j, hj, hother⟩ := forall_channel?_of_checkChannels hrest d hd
        obtain ⟨others, hothers, hmemOther⟩ := mem_take_of_channel? hother hj
        rw [hnames] at hothers
        cases hothers
        exact hmemOther
      · cases h

/-- Channels that pass the check select components. -/
theorem exists_selects_of_validate {ty : ValueType} {channels : String}
    (h : Swizzle.validate ty channels = .ok ()) :
    ∃ kind width selected, Selects ty channels kind width selected := by
  obtain ⟨kind, width, names, rfl, hnonempty, hle, hnames, hmem⟩ := exists_names_of_validate h
  have hletter : ∀ c ∈ channels.toList, isWordChar c = true ∧ c.isDigit = false ∧ c.utf8Size = 1 :=
    fun c hc => letter_of_mem_channelNames hnames (List.mem_of_mem_take (hmem c hc))
  have hsize : channels.utf8ByteSize = channels.toList.length := by
    rw [utf8ByteSize_eq_length fun c hc => (hletter c hc).2.2, String.length_toList]
  have hfound : (channelNames.find? fun names =>
      channels.toList.all (names.take width.toNat).contains).isSome = true := by
    refine List.find?_isSome.2 ⟨names, hnames, List.all_eq_true.2 fun c hc => ?_⟩
    simpa using hmem c hc
  obtain ⟨found, hfind⟩ := Option.isSome_iff_exists.1 hfound
  have hindices : channelIndices width.toNat channels = some (channels.toList.map found.idxOf) := by
    rw [channelIndices, hfind]
    rfl
  have hne : channels ≠ "" := by
    rintro rfl
    exact hnonempty rfl
  obtain ⟨selected, hselected⟩ : ∃ selected, Width.ofNat? channels.toList.length = some selected := by
    rw [hsize] at hnonempty hle
    obtain hn | hn | hn | hn : channels.toList.length = 1 ∨ channels.toList.length = 2 ∨
        channels.toList.length = 3 ∨ channels.toList.length = 4 := by
      omega
    all_goals rw [hn]; exact ⟨_, rfl⟩
  have hlength : channels.toList.length = selected.toNat := (Width.toNat_of_ofNat? hselected).symm
  refine ⟨kind, width, selected, rfl, ⟨_, hindices, by rwa [List.length_map]⟩, hlength,
    hsize.trans hlength, ⟨hne, fun c hc => (hletter c hc).1⟩, ?_⟩
  unfold startsWithDigit
  cases hchars : channels.toList with
  | nil => rfl
  | cons c rest => exact (hletter c (by rw [hchars]; exact List.mem_cons_self)).2.1

/-! ## Compiled Models -/

/-- A step among steps that are performed is performed itself. -/
theorem exists_perform_of_mem {m : Model} {input : CompileInput} {p finish : Progress}
    {steps : List CompileStep} {step : CompileStep} (h : Performed m input p steps finish)
    (hmem : step ∈ steps) : ∃ before after, step.perform m input before = .ok after := by
  obtain ⟨earlier, later, rfl⟩ := List.append_of_mem hmem
  obtain ⟨before, -, hrest⟩ := performed_append_iff.1 h
  obtain ⟨after, hstep, -⟩ := performed_cons_iff.1 hrest
  exact ⟨before, after, hstep⟩

/-- Once the declaring steps are performed, every node has been set up. -/
theorem exists_setup_of_declared {m : Model} {input : CompileInput} {p declared : Progress}
    {stage : Stage} {index : Nat} {node : Node}
    (h : Performed m input p (m.declareSteps input) declared)
    (hnode : (m.graph stage).nodes[index]? = some node) :
    ∃ before after, node.setup.run before = .ok () after := by
  have hschedule : (m.graph stage).schedule = .ok (m.order stage) := by
    obtain ⟨setUp, hsetup, -⟩ := performed_append_iff.1 h
    obtain ⟨vertexSetUp, hvertex, hfragment⟩ := performed_append_iff.1 hsetup
    cases stage
    · exact schedule_of_performed hvertex
    · exact schedule_of_performed hfragment
  have hindex : index ∈ m.order stage := by
    rw [(StageGraph.schedule_perm hschedule).mem_iff, List.mem_range]
    exact (List.getElem?_eq_some_iff.1 hnode).1
  have hmem : .call (.setup stage index) ∈ m.declareSteps input := by
    have hsetup : .call (.setup stage index) ∈ m.setupSteps stage :=
      List.mem_cons_of_mem _ (List.mem_cons_of_mem _ (mem_callSteps.2 ⟨index, hindex, rfl⟩))
    unfold Model.declareSteps
    cases stage <;> simp [hsetup]
  obtain ⟨before, after, hperform⟩ := exists_perform_of_mem h hmem
  simp only [CompileStep.perform] at hperform
  split at hperform
  · rename_i registry hsetup
    unfold StageGraph.setupOutcome at hsetup
    rw [hnode] at hsetup
    simp only at hsetup
    split at hsetup
    · rename_i state hrun
      exact ⟨_, state, hrun⟩
    · cases hsetup
    · cases hsetup
  · cases hperform

/-- In a compiled model every node has been set up. -/
theorem exists_setup_of_compile {m : Model} {input : CompileInput} {shader : Shader}
    {stage : Stage} {index : Nat} {node : Node} (h : (m.compile input).outcome = .ok shader)
    (hnode : (m.graph stage).nodes[index]? = some node) :
    ∃ before after, node.setup.run before = .ok () after := by
  obtain ⟨finish, hagenda, -⟩ := performed_of_compile h
  obtain ⟨declared, hdeclare, -⟩ := performed_append_iff.1 hagenda
  exact exists_setup_of_declared hdeclare hnode

/-- The code that a selection writes, in whatever state. -/
theorem split_fragments (id : NodeId) (channels : String) (kind : ScalarKind) (input : Handle)
    (state : EmitState) :
    fragments (((ArithmeticNode.split channels kind input).emit id).codeCalls state) =
      [([.declaration ((ArithmeticNode.split channels kind input).output id), " = ", .mention input,
        ".", channels, ";"] : Code)] :=
  rfl

theorem validate_of_setup {channels : String} {kind : ScalarKind} {input : Handle}
    {before after : SetupState}
    (h : (ArithmeticNode.split channels kind input).setup.run before = .ok () after) :
    Swizzle.validate input.value.ty channels = .ok () := by
  have hrun : Setup.run (.ofExcept (Swizzle.validate input.value.ty channels)) before =
    .ok () after := h
  cases hvalidate : Swizzle.validate input.value.ty channels with
  | ok value => rfl
  | error error =>
    rw [hvalidate] at hrun
    cases hrun

/-! ## The Declared Type -/

section Declared

variable {ty : ValueType} {channels : String} {kind firstKind : ScalarKind} {width selected : Width}

/-- The declared type has the kind that the node keeps, and a component for each channel. -/
theorem Selects.splitType_eq (h : Selects ty channels kind width selected) (firstKind : ScalarKind) :
    ArithmeticNode.splitType firstKind channels = .vector firstKind selected := by
  rw [ArithmeticNode.splitType, ValueType.vector?, h.size_eq, Width.ofNat?_toNat]
  rfl

/-- The type of the selected components, where they can be selected at all. -/
theorem Selects.selectType_eq (h : Selects ty channels kind width selected) (scalars : Bool) :
    selectType scalars (.single ty) channels =
      if width = .one ∧ scalars = false then none else some (.single (.vector kind selected)) := by
  obtain ⟨indices, hindices, hselected⟩ := h.indices
  rw [h.ty_eq, selectType, hindices, Option.bind_some, hselected]
  rfl

theorem selectType_array (scalars : Bool) (len : Nat) :
    selectType scalars (.array ty len) channels = none := by
  cases ty <;> rfl

/-- The selected components have the declared type if the kinds are the same and they can be selected: not
from an array, and from a scalar only where this is allowed. -/
theorem Selects.selectType_eq_some_iff {var : Variable} {scalars : Bool}
    (h : Selects var.ty channels kind width selected) :
    selectType scalars (variableType var) channels = some (.single (.vector firstKind selected)) ↔
      firstKind = kind ∧ var.arrayLen = none ∧ (width ≠ .one ∨ scalars = true) := by
  unfold variableType
  cases var.arrayLen with
  | some len => simp [selectType_array]
  | none =>
    rw [h.selectType_eq]
    by_cases hscalar : width = .one ∧ scalars = false
    · rw [if_pos hscalar]
      simp [hscalar]
    · have hallowed : width ≠ .one ∨ scalars = true := by
        simpa [or_iff_not_imp_left] using hscalar
      rw [if_neg hscalar]
      refine ⟨fun heq => ?_, fun hcondition => by rw [hcondition.1]⟩
      cases heq
      exact ⟨rfl, rfl, hallowed⟩

/-- A value is read with the same expressions as one of another kind only if the kinds are the same. -/
theorem forall_read_eq_iff {v : Value} (hsingle : v.arrayLen = none)
    (hty : v.ty = .vector firstKind selected) :
    (∀ target widening, v.read target widening =
        { v with ty := .vector kind selected }.read target widening) ↔ firstKind = kind := by
  constructor
  · intro h
    -- At its own type a value is read as it stands.
    have hown := h (.vector firstKind selected) .point
    have hother : { v with ty := .vector kind selected }.read (.vector firstKind selected) .point =
        .ok (if kind = firstKind then
            Expr.reshape kind (.atom v.name) selected selected .point
          else
            .construct (.vector firstKind selected)
              (Expr.reshape kind (.atom v.name) selected selected .point) []) :=
      read_vector (v := { v with ty := .vector kind selected }) hsingle rfl .point
    rw [← hty, read_self, hty, hother] at hown
    by_contra hne
    rw [if_neg (Ne.symm hne)] at hown
    cases hown
  · rintro rfl
    rw [← hty]
    exact fun target widening => rfl

end Declared

/-! ## Reading the Declaration Back -/

theorem IsWord.append {left right : String} (hleft : IsWord left) (hright : IsWord right) :
    IsWord (left ++ right) := by
  refine ⟨fun hempty => hleft.1 (String.append_eq_empty_iff.1 hempty).1, fun c hc => ?_⟩
  rw [String.toList_append] at hc
  rcases List.mem_append.1 hc with hc | hc
  · exact hleft.2 c hc
  · exact hright.2 c hc

/-- The name of a variable that a node declares is a word. -/
theorem isWord_varName {node field : String} (id : NodeId) (hnode : IsWord node)
    (hfield : IsWord field) : IsWord (id.varName node field) :=
  IsWord.append (IsWord.append (IsWord.append hnode (isWord_toString id.index)) (by decide)) hfield

section Statements

variable {input : Handle} {channels : String} {kind firstKind : ScalarKind} {width selected : Width}
  {t : Term} {var : Variable} {scope : Scope}

/-- The text of a declaration with selected components. -/
def selectionText (var : Variable) (input : Handle) (channels : String) : String :=
  var.declaration ++ (" = " ++ ((input.name ++ ("." ++ channels)) ++ ";"))

theorem read_selectionText (hvar : IsWord var.name) (hchannels : IsWord channels)
    (hinput : ReadsTerm input.name t) :
    Statement.read (selectionText var input channels) =
      (Term.read (input.name ++ ("." ++ channels))).map (.declare var) := by
  apply read_declare hvar
  rw [lex_dotted hchannels]
  simpa using hinput.not_mem (.inr rfl)

/-- Where the text of the selection is read as one, the declaration is well typed if the selection has the
declared type. -/
theorem exists_wellTyped_declaration_iff {text : String} {value : Term}
    (hvalue : Term.read text = some value) :
    (∃ statement, (Term.read text).map (Statement.declare var) = some statement ∧
        statement.WellTyped scope) ↔ value.typeIn scope = some (variableType var) := by
  rw [hvalue]
  constructor
  · rintro ⟨statement, heq, hwellTyped⟩
    cases heq
    exact hwellTyped
  · intro hwellTyped
    exact ⟨.declare var value, rfl, hwellTyped⟩

/-- A declaration with selected components is well typed if the kinds are the same and the components can
be selected: not from an array, and from a scalar only where this is allowed and where the point is not
taken for that of a number. -/
theorem exists_wellTyped_selection_iff (h : Selects input.value.ty channels kind width selected)
    (hvar : IsWord var.name) (hty : variableType var = .single (.vector firstKind selected))
    (hread : Term.read input.name = some t)
    (htyped : t.typeIn scope = some (variableType input.value.toVariable)) :
    (∃ statement, Statement.read (selectionText var input channels) = some statement ∧
        statement.WellTyped scope) ↔
      firstKind = kind ∧ input.value.arrayLen = none ∧
        (width ≠ .one ∨ (scope.scalarSwizzles = true ∧ t.isWhole = false)) := by
  have hinput : ReadsTerm input.name t := readsTerm_iff.2 hread
  rw [read_selectionText hvar h.isWord hinput]
  by_cases hwhole : t.isWhole = false
  · have hselect : (Term.select t channels).typeIn scope =
        selectType scope.scalarSwizzles (variableType input.value.toVariable) channels := by
      rw [Term.typeIn, htyped]
      rfl
    rw [exists_wellTyped_declaration_iff
      (readsTerm_iff.1 (hinput.select hwhole h.isWord h.start)), hselect, hty,
      h.selectType_eq_some_iff, and_iff_left hwhole]
  · -- What follows the number is taken for its fraction, and nothing is read.
    have hnumber : t.isWhole = true := by simpa using hwhole
    rw [hinput.read_select_eq_none hnumber h.isWord (isDigits_eq_false h.isWord h.start)]
    refine ⟨fun hexists => ?_, fun hcondition => ?_⟩
    · obtain ⟨statement, hnone, -⟩ := hexists
      cases hnone
    · obtain ⟨-, hsingle, hwidth⟩ := hcondition
      rw [Term.typeIn_of_isWhole scope hnumber, variableType, hsingle, h.ty_eq] at htyped
      cases htyped
      exact absurd hwidth (by simp [hwhole])

end Statements

/-! ## Main Result -/

/-- The kind that a selection keeps: that of the components of its first input. -/
def keptKind (first : Handle) : ScalarKind :=
  first.value.ty.scalarKind.getD .float

/-- The value that a selection computes. -/
def selection (id : NodeId) (first : Handle) (channels : String) : Value :=
  ((ArithmeticNode.newSplit first channels).output id).value

theorem render_split (id : NodeId) (first input : Handle) (channels : String) :
    Code.render [.declaration ((ArithmeticNode.newSplit first channels).output id), " = ",
        .mention input, ".", channels, ";"] =
      selectionText (selection id first channels).toVariable input channels := by
  simp [Piece.render, selectionText, selection, String.append_assoc]

/-- The declaration of selected components. Let a model compile in which a node selects components,
whatever it was made with and whatever has been wired to it. Then the input that is wired in the end has
components, of which the channels select one each.

* The declared type has the kind of the first input, so that it is the type of the selected components
  exactly if the last input has the same kind, and only then the node's value is read everywhere with
  the expressions for a value of that type.
* In its turn the node writes one declaration. Its text is well typed exactly if the kinds are the same,
  the input is no array, and, if the input is a scalar, its component can be selected and the point
  before the channels is not taken for that of a number. -/
theorem split_declares_swizzle_type_iff {m : Model} {input : CompileInput} {shader : Shader}
    (stage : Stage) (index : Nat) (id : NodeId) (first : Handle) (channels : String)
    (wires : List (Socket × Handle)) (hcompile : (m.compile input).outcome = .ok shader)
    (hnode : (m.graph stage).nodes[index]? =
      some ((rewired (.arithmetic (.newSplit first channels)) wires).toNode id)) :
    ∃ kind width selected,
      (lastInput first wires).value.ty = .vector kind width ∧
      selected.toNat = channels.toList.length ∧
      selectType true (.single (.vector kind width)) channels =
        some (.single (.vector kind selected)) ∧
      (selection id first channels).ty = .vector (keptKind first) selected ∧
      ((selection id first channels).ty = .vector kind selected ↔ keptKind first = kind) ∧
      ((∀ target widening, (selection id first channels).read target widening =
        { selection id first channels with ty := .vector kind selected }.read target widening) ↔
          keptKind first = kind) ∧
      ∃ (position : Nat) (turn : Turn), (m.order stage)[position]? = some index ∧
        (m.turns input stage)[position]? = some turn ∧
        (∃ before after, (shader.program stage).code.main =
          before ++ fragments turn.calls ++ after) ∧
        ∃ text, (fragments turn.calls).map Code.render = [text] ∧
          text = selectionText (selection id first channels).toVariable (lastInput first wires)
            channels ∧
          ∀ scope t, Term.read (lastInput first wires).name = some t →
            t.typeIn scope = some (variableType (lastInput first wires).value.toVariable) →
            (t.isWhole = false → Statement.read text =
              some (.declare (selection id first channels).toVariable (.select t channels))) ∧
            ((∃ statement, Statement.read text = some statement ∧ statement.WellTyped scope) ↔
              keptKind first = kind ∧ (lastInput first wires).value.arrayLen = none ∧
                (width ≠ .one ∨ (scope.scalarSwizzles = true ∧ t.isWhole = false))) := by
  have hsplit : rewired (.arithmetic (.newSplit first channels)) wires =
    .arithmetic (.split channels (keptKind first) (lastInput first wires)) := rewired_split ..
  rw [hsplit] at hnode
  obtain ⟨before, after, hsetup⟩ := exists_setup_of_compile hcompile hnode
  have hrun : (ArithmeticNode.split channels (keptKind first) (lastInput first wires)).setup.run
    before = .ok () after := hsetup
  obtain ⟨kind, width, selected, hselects⟩ := exists_selects_of_validate (validate_of_setup hrun)
  have hty : (selection id first channels).ty = .vector (keptKind first) selected :=
    hselects.splitType_eq (keptKind first)
  obtain ⟨position, turn, hposition, hturn, hturnNode, -, hmain⟩ :=
    exists_turn_of_compile hcompile hnode
  have hselectType : selectType true (.single (.vector kind width)) channels =
      some (.single (.vector kind selected)) := by
    rw [← hselects.ty_eq, hselects.selectType_eq, if_neg (by simp)]
  have hname : IsWord (selection id first channels).toVariable.name :=
    isWord_varName id (by decide) (by decide)
  refine ⟨kind, width, selected, hselects.ty_eq, hselects.length_eq.symm, hselectType, hty, ?_,
    forall_read_eq_iff rfl hty, position, turn, hposition, hturn, hmain,
    selectionText (selection id first channels).toVariable (lastInput first wires) channels,
    ?_, rfl, fun scope t hread htyped => ⟨fun hwhole => ?_, ?_⟩⟩
  · rw [hty]
    exact ⟨fun heq => (ValueType.vector.inj heq).1, fun heq => by rw [heq]⟩
  · have hcalls : fragments turn.calls =
        [([.declaration ((ArithmeticNode.newSplit first channels).output id), " = ",
          .mention (lastInput first wires), ".", channels, ";"] : Code)] := by
      rw [Turn.calls, hturnNode]
      exact split_fragments id channels (keptKind first) (lastInput first wires) turn.state
    rw [hcalls, List.map_singleton, render_split]
  · have hinput := readsTerm_iff.2 hread
    rw [read_selectionText hname hselects.isWord hinput,
      readsTerm_iff.1 (hinput.select hwhole hselects.isWord hselects.start)]
    rfl
  · exact exists_wellTyped_selection_iff hselects hname (congrArg TermType.single hty) hread htyped

/-- A design with a selection that is wired several times. -/
def splitDesign (first : Handle) (channels : String) (wires : List (Socket × Handle)) : Design where
  name := "split"
  fragment := [.library (rewired (.arithmetic (.newSplit first channels)) wires)]

/-- A variable of a type. -/
def colorHandle (ty : ValueType) : Handle :=
  { value := .computed "c" ty }

/-- The variable has the type, and nothing else has one. -/
def colorScope (ty : ValueType) : Scope where
  types text := if text = "c" then some (.single ty) else none
  scalarSwizzles := false

/-- A selection from integers that is wired to floats and then to integers again. -/
def backAndForth : List (Socket × Handle) :=
  [(.input, colorHandle .vec2), (.left, colorHandle .float), (.input, colorHandle .ivec3)]

/-- After all wirings, components are selected from the last input at its own kind. -/
theorem backAndForth_declares_swizzle_type :
    ∃ shader, ((splitDesign (colorHandle .ivec4) "zx" backAndForth).model.compile
        { target := .webgl2 }).outcome = .ok shader ∧
      ∃ (turn : Turn) (text : String) (statement : Statement),
        turn ∈ (splitDesign (colorHandle .ivec4) "zx" backAndForth).model.turns
          { target := .webgl2 } .fragment ∧
        (fragments turn.calls).map Code.render = [text] ∧
        Statement.read text = some statement ∧ statement.WellTyped (colorScope .ivec3) := by
  have hcompiles : ((splitDesign (colorHandle .ivec4) "zx" backAndForth).model.compile
      { target := .webgl2 }).outcome.toOption.map (fun _ => ()) = some () := by
    decide +kernel
  obtain ⟨shader, hshader, -⟩ := exists_ok_of_map_eq hcompiles
  obtain ⟨kind, width, selected, hty, -, -, -, -, -, position, turn, -, hturn, -, text, htext, -,
      htyped⟩ :=
    split_declares_swizzle_type_iff .fragment 0 { stage := .fragment, graph := 1, index := 0 }
      (colorHandle .ivec4) "zx" backAndForth hshader rfl
  cases hty
  obtain ⟨-, hwellTyped⟩ := htyped (colorScope .ivec3) (.name "c") rfl rfl
  obtain ⟨statement, hread, hstatement⟩ := hwellTyped.2 ⟨rfl, rfl, .inl (by decide)⟩
  exact ⟨shader, hshader, turn, text, statement, List.mem_of_getElem? hturn, htext, hread,
    hstatement⟩

/-- A selection that was made from integers and is wired to floats declares integers. -/
theorem rewired_split_declares_integers :
    ∃ shader, ((splitDesign (colorHandle .ivec4) "xy" [(.input, colorHandle .vec4)]).model.compile
        { target := .webgl2 }).outcome = .ok shader ∧
      shader.fragment.code.main.map Code.render = ["ivec2 split0_out = c.xy;"] ∧
      ∃ statement, Statement.read "ivec2 split0_out = c.xy;" = some statement ∧
        ¬ statement.WellTyped (colorScope .vec4) := by
  have hcompiles : ((splitDesign (colorHandle .ivec4) "xy" [(.input, colorHandle .vec4)]).model.compile
      { target := .webgl2 }).outcome.toOption.map
        (fun shader => shader.fragment.code.main.map Code.render) =
      some ["ivec2 split0_out = c.xy;"] := by
    decide +kernel
  obtain ⟨shader, hshader, hmain⟩ := exists_ok_of_map_eq hcompiles
  exact ⟨shader, hshader, hmain,
    .declare { name := "split0_out", ty := .ivec2 } (.select (.name "c") "xy"), rfl, by decide⟩

end ShaderWeave
