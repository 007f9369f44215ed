import Mathlib.Data.List.Induction
import Mathlib.Data.List.Nodup
import ShaderWeave.Design
import ShaderWeave.Proofs.LibraryEmission
import ShaderWeave.Proofs.Registration

/-!
# Declared Before Read

In a model of library nodes, a node depends on the owners of its inputs, so they come before it in the
generation order. Each of them declares what it computes, so every input can be read at the node's turn.
This holds for any order of registration and any wiring of inputs to outputs of nodes.

## Main definitions

* `libraryDesign`: a design of library nodes.
* `WiredToOutputs`: an input that belongs to a node of the design is one of the node's outputs.
* `LibraryNode.statements`: what a node writes for a target once its inputs are declared.

## Main results

* `index_of_varName`: the number of a node can be read off the names of its variables.
* `exists_owner_before`: the owner of a computed input comes before its reader, and computes it.
* `emits_library`: emitting part of an order appends what its nodes write and declares what they compute.
* `library_declared_before_read`: no read is early, and in a compiled shader each computed value is
  declared once, under a name of its own, before the statements of its readers.
-/

namespace ShaderWeave

/-! ## Names -/

/-- The number that stands after the letters of a name. -/
def numberAfterLetters (name : String) : Nat :=
  Nat.ofDigitChars 10 ((name.toList.dropWhile fun c => !c.isDigit).takeWhile Char.isDigit) 0

/-- The number of a node can be read off the names of its variables. -/
theorem index_of_varName {id : NodeId} {letters field : String}
    (hletters : letters.toList.all (fun c => !c.isDigit) = true) :
    numberAfterLetters (id.varName letters field) = id.index := by
  have hdigits : ∀ c ∈ Nat.toDigits 10 id.index, c.isDigit = true :=
    fun c hc => Nat.isDigit_of_mem_toDigits (by decide) (by decide) hc
  have hlist : (id.varName letters field).toList =
      letters.toList ++ (Nat.toDigits 10 id.index ++ '_' :: field.toList) := by
    simp [NodeId.varName]
  -- The letters are dropped, the digits are taken, and the underscore ends them.
  have hdrop : (Nat.toDigits 10 id.index ++ '_' :: field.toList).dropWhile (fun c => !c.isDigit) =
      Nat.toDigits 10 id.index ++ '_' :: field.toList := by
    obtain ⟨first, rest, hfirst⟩ := List.exists_cons_of_ne_nil
      (Nat.toDigits_ne_nil : Nat.toDigits 10 id.index ≠ [])
    have hdigit : first.isDigit = true := hdigits first (by simp [hfirst])
    rw [hfirst, List.cons_append, List.dropWhile_cons_of_neg (by simp [hdigit])]
  rw [numberAfterLetters, hlist, List.dropWhile_append_of_pos (List.all_eq_true.1 hletters), hdrop,
    List.takeWhile_append_of_pos hdigits, List.takeWhile_cons_of_neg (by decide), List.append_nil,
    Nat.ofDigitChars_ten_toDigits]

/-! ## Designs of Library Nodes -/

/-- A design of library nodes, given by the number of the graph of each stage and its nodes in order of
registration. -/
def libraryDesign (name : String) (graph : Stage → Nat) (nodes : Stage → List LibraryNode) : Design where
  name := name
  graph := graph .vertex
  fragmentGraph := graph .fragment
  vertex := (nodes .vertex).map .library
  fragment := (nodes .fragment).map .library

/-- An input of a node that belongs to a node of the design is an output of that node. Inputs that
belong to no node, or to none of the design, can be any values. -/
def WiredToOutputs (graph : Stage → Nat) (nodes : Stage → List LibraryNode) : Prop :=
  ∀ stage, ∀ node ∈ nodes stage, ∀ handle ∈ node.inputs, ∀ id, handle.owner = some id →
    id.graph = graph id.stage → ∀ owner, (nodes id.stage)[id.index]? = some owner →
      ∃ name, (name, handle) ∈ owner.outputs id

/-- The numbers that the graphs of a model get, from the first free one on. -/
def graphsFrom (first : Nat) : Stage → Nat
  | .vertex => first
  | .fragment => first + 1

/-- The model of a design of library nodes. -/
abbrev libraryModel (name : String) (graph : Stage → Nat) (nodes : Stage → List LibraryNode) : Model :=
  (libraryDesign name graph nodes).model

theorem nodeId_libraryModel (name : String) (graph : Stage → Nat) (nodes : Stage → List LibraryNode)
    (stage : Stage) (index : Nat) :
    ((libraryModel name graph nodes).graph stage).nodeId index =
      { stage, graph := graph stage, index } := by
  cases stage <;> rfl

/-- The node at a position of a stage. -/
theorem getElem?_libraryModel (name : String) (graph : Stage → Nat) (nodes : Stage → List LibraryNode)
    (stage : Stage) (index : Nat) :
    ((libraryModel name graph nodes).graph stage).nodes[index]? =
      (nodes stage)[index]?.map (·.toNode { stage, graph := graph stage, index }) := by
  cases stage <;>
    simp [libraryDesign, Design.model, Model.graph, Design.stageGraph, Design.graphOf, Design.nodes,
      List.getElem?_zipIdx, DesignNode.toNode, Function.comp_def]

theorem getElem?_libraryModel_of_eq_some (name : String) (graph : Stage → Nat)
    {nodes : Stage → List LibraryNode} {stage : Stage} {index : Nat} {node : LibraryNode}
    (hnode : (nodes stage)[index]? = some node) :
    ((libraryModel name graph nodes).graph stage).nodes[index]? =
      some (node.toNode { stage, graph := graph stage, index }) := by
  rw [getElem?_libraryModel, hnode]
  rfl

/-- The value that the node at a position computes. -/
def computedAt (graph : Stage → Nat) (nodes : Stage → List LibraryNode) (stage : Stage) (index : Nat) :
    Option Handle :=
  (nodes stage)[index]?.bind (·.computed? { stage, graph := graph stage, index })

theorem computedAt_eq {graph : Stage → Nat} {nodes : Stage → List LibraryNode} {stage : Stage}
    {index : Nat} {node : LibraryNode} (hnode : (nodes stage)[index]? = some node) :
    computedAt graph nodes stage index = node.computed? { stage, graph := graph stage, index } := by
  rw [computedAt, hnode]
  rfl

/-- What the node at a position computes is a variable of that node, whose name begins with letters. -/
theorem computedAt_eq_some {graph : Stage → Nat} {nodes : Stage → List LibraryNode} {stage : Stage}
    {index : Nat} {handle : Handle} (h : computedAt graph nodes stage index = some handle) :
    ∃ letters field ty, handle = .computed { stage, graph := graph stage, index } letters field ty ∧
      letters.toList.all (fun c => !c.isDigit) = true := by
  obtain ⟨node, -, hcomputed⟩ := Option.bind_eq_some_iff.1 h
  exact LibraryNode.computed?_eq_some hcomputed

section Order

variable {name : String} {graph : Stage → Nat} {nodes : Stage → List LibraryNode} {stage : Stage}
  {before after : List Nat} {index : Nat} {node : LibraryNode} {handle : Handle}

/-- An order names positions of nodes. -/
theorem exists_node_of_mem_schedule {order : List Nat}
    (horder : ((libraryModel name graph nodes).graph stage).schedule = .ok order)
    (hmem : index ∈ order) : ∃ node, (nodes stage)[index]? = some node := by
  have hsome := List.getElem?_eq_getElem (StageGraph.lt_length_of_mem_schedule horder hmem)
  rw [getElem?_libraryModel] at hsome
  obtain ⟨node, hnode, -⟩ := Option.map_eq_some_iff.1 hsome
  exact ⟨node, hnode⟩

/-- The owner of an input comes before its reader. -/
theorem owner_before {id : NodeId}
    (horder : ((libraryModel name graph nodes).graph stage).schedule = .ok (before ++ index :: after))
    (hnode : (nodes stage)[index]? = some node) (hmem : handle ∈ node.inputs)
    (howner : handle.owner = some id) :
    ∃ target ∈ before, id = { stage, graph := graph stage, index := target } := by
  obtain ⟨dependencies, hdependencies, hbefore⟩ :=
    StageGraph.schedule_before horder (getElem?_libraryModel_of_eq_some name graph hnode)
  -- The dependencies of a library node are the owners of its inputs.
  have hid : id ∈ dependencies := by
    cases hdependencies
    exact List.mem_filterMap.2 ⟨handle, hmem, howner⟩
  obtain ⟨target, htarget, heq⟩ := hbefore id hid
  exact ⟨target, htarget, heq.trans (nodeId_libraryModel name graph nodes stage target)⟩

/-- The owner of a computed input comes before its reader, and computes it. -/
theorem exists_owner_before (hwired : WiredToOutputs graph nodes)
    (horder : ((libraryModel name graph nodes).graph stage).schedule = .ok (before ++ index :: after))
    (hnode : (nodes stage)[index]? = some node) (hmem : handle ∈ node.inputs)
    (hneeds : handle.needsDeclaration = true) :
    ∃ target ∈ before, computedAt graph nodes stage target = some handle := by
  obtain ⟨id, howner⟩ : ∃ id, handle.owner = some id := by
    rw [Handle.needsDeclaration, Bool.and_eq_true] at hneeds
    exact Option.isSome_iff_exists.1 hneeds.1
  obtain ⟨target, htarget, rfl⟩ := owner_before horder hnode hmem howner
  obtain ⟨owner, hgetOwner⟩ :=
    exists_node_of_mem_schedule horder (List.mem_append_left _ htarget)
  obtain ⟨output, houtput⟩ :=
    hwired stage node (List.mem_of_getElem? hnode) handle hmem _ howner rfl owner hgetOwner
  rcases LibraryNode.mem_outputs houtput hneeds with hcomputed | hinput
  · exact ⟨target, htarget, (computedAt_eq hgetOwner).trans hcomputed⟩
  · -- An owner that only passes the value on would have to come before itself.
    exfalso
    obtain ⟨first, second, rfl⟩ := List.append_of_mem htarget
    rw [List.append_assoc, List.cons_append] at horder
    obtain ⟨earlier, hearlier, heq⟩ := owner_before horder hgetOwner hinput howner
    have hnodup := (StageGraph.schedule_perm horder).nodup_iff.2 List.nodup_range
    obtain rfl : target = earlier := congrArg NodeId.index heq
    exact List.disjoint_of_nodup_append hnodup hearlier List.mem_cons_self

end Order

/-! ## Emitting a Stage -/

/-- What a node writes for a target and a stage once its inputs are declared. -/
def LibraryNode.statements (place : CodePlace) (id : NodeId) (node : LibraryNode) : List Code :=
  match (node.emit id).run { place, declared := node.inputs } with
  | .ok () state => state.code.main
  | .error _ _ => []

/-- What the node at a position writes for a target. -/
def statementsAt (target : Target) (graph : Stage → Nat) (nodes : Stage → List LibraryNode)
    (stage : Stage) (index : Nat) : List Code :=
  ((nodes stage)[index]?.map (·.statements { target, stage := stage.mask }
    { stage, graph := graph stage, index })).getD []

/-- A value that is declared, if it must be, can be read. -/
theorem readable_of_mem {state : EmitState} {handle : Handle}
    (h : handle.needsDeclaration = true → handle ∈ state.declared) : state.readable handle = true := by
  unfold EmitState.readable
  cases hneeds : handle.needsDeclaration with
  | false => rfl
  | true => simpa using h hneeds

/-- A node of the library that ends well writes the statements of its emission. -/
theorem LibraryNode.statements_eq {place : CodePlace} {id : NodeId} {node : LibraryNode} {value : Unit}
    (hok : ((node.emit id).emission place).result = .ok value) :
    node.statements place id = ((node.emit id).emission place).statements := by
  have hreadable : ∀ h ∈ node.inputs,
      ({ place, declared := node.inputs } : EmitState).readable h = true :=
    fun h hmem => readable_of_mem fun _ => hmem
  obtain ⟨state, hgrown, hrun⟩ := run_eq_emission (node.emit_writes id).1 hreadable rfl
  rw [hok] at hrun
  have hstatements : node.statements place id = state.code.main := by
    rw [statements, hrun]
  rw [hstatements, hgrown.main]
  rfl

section Emit

variable {name : String} {graph : Stage → Nat} {nodes : Stage → List LibraryNode} {stage : Stage}
  {input : CompileInput} {before after : List Nat} {index : Nat} {node : LibraryNode}

/-- When its turn comes, the inputs of a node can be read, provided that what the nodes before it compute
is declared. -/
theorem readable_inputs {state : EmitState} (hwired : WiredToOutputs graph nodes)
    (horder : ((libraryModel name graph nodes).graph stage).schedule = .ok (before ++ index :: after))
    (hdeclared : ∀ earlier ∈ before, ∀ handle, computedAt graph nodes stage earlier = some handle →
      handle ∈ state.declared)
    (hnode : (nodes stage)[index]? = some node) :
    ∀ h ∈ node.inputs, state.readable h = true := by
  intro h hmem
  refine readable_of_mem fun hneeds => ?_
  obtain ⟨earlier, hearlier, hcomputed⟩ := exists_owner_before hwired horder hnode hmem hneeds
  exact hdeclared earlier hearlier h hcomputed

/-- When its turn comes, a node appends what it writes and declares what it computes, or fails with
another error than an early read. -/
theorem emitOutcome_library (state : EmitState) {target : Target}
    (hwired : WiredToOutputs graph nodes)
    (horder : ((libraryModel name graph nodes).graph stage).schedule = .ok (before ++ index :: after))
    (hdeclared : ∀ earlier ∈ before, ∀ handle, computedAt graph nodes stage earlier = some handle →
      handle ∈ state.declared)
    (hnode : (nodes stage)[index]? = some node)
    (hplace : state.place = { target, stage := stage.mask }) :
    let g := (libraryModel name graph nodes).graph stage
    let computed? := computedAt graph nodes stage index
    let statements := statementsAt target graph nodes stage index
    match g.emitOutcome state index with
    | .ok (code', declared') => code'.main = state.code.main ++ statements ∧
        declared' = computed?.toList ++ state.declared ∧
        WritesNode node.inputs computed? statements computed?.toList
    | .error failure => ¬ failure.EarlyRead := by
  intro g computed? statements
  have hcomputed : computed? = node.computed? { stage, graph := graph stage, index } :=
    computedAt_eq hnode
  obtain ⟨hreads, hresult⟩ : Writes state.place node.inputs _ _ :=
    node.emit_writes { stage, graph := graph stage, index }
  have hgraphNode := getElem?_libraryModel_of_eq_some name graph hnode
  obtain ⟨state', hgrown, hrun⟩ :=
    run_eq_emission hreads (readable_inputs hwired horder hdeclared hnode) rfl
  have houtcome : g.emitOutcome state index =
      match (node.emit { stage, graph := graph stage, index }).run state with
      | .ok () after => .ok (after.code, after.declared)
      | .error failure _ => .error (.ofNode (failure.leaveNode node.name g.stage)) := by
    unfold StageGraph.emitOutcome
    rw [hgraphNode]
    rfl
  rw [houtcome, hrun, hcomputed]
  cases hend : ((node.emit { stage, graph := graph stage, index }).emission state.place).result with
  | ok value =>
    rw [hend] at hresult
    have hstatements : statements =
        ((node.emit { stage, graph := graph stage, index }).emission state.place).statements := by
      rw [← LibraryNode.statements_eq hend, hplace]
      simp only [statements, statementsAt, hnode, Option.map_some, Option.getD_some]
    have hdeclares := hresult.declared_eq
    refine ⟨by rw [hstatements]; exact hgrown.main, ?_, ?_⟩
    · refine hgrown.declared.trans ?_
      rw [hdeclares]
      cases node.computed? { stage, graph := graph stage, index } <;> rfl
    · rw [hstatements, ← hdeclares]
      exact hresult
  | error failure =>
    rw [hend] at hresult
    simpa using hresult

/-- Emitting the first nodes of an order appends what they write, in order, and declares what they
compute. -/
theorem emits_library {p finish : Progress} (hwired : WiredToOutputs graph nodes)
    (horder : ((libraryModel name graph nodes).graph stage).schedule = .ok (before ++ after))
    (h : Performed (libraryModel name graph nodes) input p (callSteps (.emit stage) before)
      finish) :
    let statements := statementsAt input.target graph nodes stage
    (finish.program stage).code.main =
        (p.program stage).code.main ++ before.flatMap statements ∧
      ∀ earlier ∈ before,
        (∀ node, (nodes stage)[earlier]? = some node →
          WritesNode node.inputs (computedAt graph nodes stage earlier) (statements earlier)
            (computedAt graph nodes stage earlier).toList) ∧
        ∀ handle, computedAt graph nodes stage earlier = some handle → handle ∈ finish.declared := by
  intro statements
  -- The induction is on the part that is emitted, which grows at its end as the pass goes on.
  induction before using List.reverseRecOn generalizing after finish with
  | nil =>
    cases h
    simp
  | append_singleton before index ih =>
    rw [callSteps, List.map_append] at h
    obtain ⟨reached, hfirst, hlast⟩ := performed_append_iff.1 h
    rw [List.append_assoc, List.singleton_append] at horder
    obtain ⟨hmain, hnodes⟩ := ih horder hfirst
    obtain ⟨last, hstep, hdone⟩ := performed_cons_iff.1 hlast
    cases hdone
    obtain ⟨node, hnode⟩ := exists_node_of_mem_schedule horder
      (List.mem_append_right before List.mem_cons_self)
    have houtcome := emitOutcome_library (reached.emitState input.target stage) hwired horder
      (fun earlier hearlier => (hnodes earlier hearlier).2) hnode rfl
    simp only [CompileStep.perform] at hstep
    split at hstep
    · rename_i code declared hemit
      cases hstep
      simp only [hemit] at houtcome
      obtain ⟨hcode, hdeclared, hwrites⟩ := houtcome
      have hprogram : ((reached.withCode code declared stage).program stage).code.main = code.main := by
        cases stage <;> rfl
      have hgrown : (reached.withCode code declared stage).declared = declared := by
        cases stage <;> rfl
      rw [hprogram, hgrown]
      refine ⟨?_, fun earlier hearlier => ?_⟩
      · rw [hcode, Progress.code_emitState, hmain, List.flatMap_append, List.append_assoc]
        simp [statements]
      · rcases List.mem_append.1 hearlier with hbefore | hlast
        · -- What is declared stays declared.
          refine ⟨(hnodes earlier hbefore).1, fun handle hcomputed => ?_⟩
          rw [hdeclared]
          exact List.mem_append_right _ ((hnodes earlier hbefore).2 handle hcomputed)
        · obtain rfl := List.mem_singleton.1 hlast
          refine ⟨fun node' hnode' => ?_, fun handle hcomputed => ?_⟩
          · rw [hnode] at hnode'
            cases hnode'
            exact hwrites
          · rw [hdeclared, hcomputed]
            exact List.mem_append_left _ List.mem_cons_self
    · cases hstep

end Emit

/-! ## Declarations -/

section Declarations

variable {graph : Stage → Nat} {nodes : Stage → List LibraryNode} {stage : Stage} {positions : List Nat}

/-- The number of a node can be read off the name of what it computes. -/
theorem numberAfterLetters_computedAt {index : Nat} {handle : Handle}
    (h : computedAt graph nodes stage index = some handle) :
    numberAfterLetters handle.name = index := by
  obtain ⟨letters, field, ty, rfl, hletters⟩ := computedAt_eq_some h
  exact index_of_varName hletters

/-- Different nodes compute values of different names. -/
theorem nodup_names_computedAt (hpositions : positions.Nodup) :
    ((positions.filterMap (computedAt graph nodes stage)).map (·.name)).Nodup := by
  -- The numbers in the names are the positions themselves, less those that compute nothing.
  refine List.Nodup.of_map numberAfterLetters (List.Nodup.sublist ?_ hpositions)
  rw [List.map_map]
  clear hpositions
  induction positions with
  | nil => exact List.Sublist.refl _
  | cons index rest ih =>
    cases hcomputed : computedAt graph nodes stage index with
    | none =>
      rw [List.filterMap_cons_none hcomputed]
      exact ih.cons index
    | some handle =>
      rw [List.filterMap_cons_some hcomputed, List.map_cons, Function.comp_apply,
        numberAfterLetters_computedAt hcomputed]
      exact ih.cons_cons index

/-- The declarations of statements that nodes write are of the values that they compute. -/
theorem declarations_flatMap {statementsAt : Nat → List Code}
    (h : ∀ index ∈ positions, declarations (statementsAt index) =
      (computedAt graph nodes stage index).toList) :
    declarations (positions.flatMap statementsAt) =
      positions.filterMap (computedAt graph nodes stage) := by
  induction positions with
  | nil => rfl
  | cons index rest ih =>
    have hrest := ih fun i hi => h i (List.mem_cons_of_mem index hi)
    have hfirst := h index List.mem_cons_self
    unfold declarations at hrest hfirst ⊢
    rw [List.flatMap_cons, List.flatMap_append, hfirst, hrest, List.filterMap_cons]
    cases computedAt graph nodes stage index <;> rfl

end Declarations

/-! ## Compiling Library Nodes -/

section Compile

variable {name : String} {graph : Stage → Nat} {nodes : Stage → List LibraryNode}
  {input : CompileInput}

/-- No read is early. -/
theorem not_earlyRead_of_compile (hwired : WiredToOutputs graph nodes) {failure : CompileFailure}
    (h : ((libraryModel name graph nodes).compile input).outcome = .error failure) :
    ¬ failure.EarlyRead := by
  have hsound : ∀ stage, ∀ node ∈ ((libraryModel name graph nodes).graph stage).nodes,
      Setup.Sound node.setup := by
    intro stage node hmem
    obtain ⟨index, hnode⟩ := List.mem_iff_getElem?.1 hmem
    rw [getElem?_libraryModel] at hnode
    obtain ⟨library, -, rfl⟩ := Option.map_eq_some_iff.1 hnode
    exact library.setup_sound
  rcases compile_cases (libraryModel name graph nodes) input with ⟨finish, -, hok, -⟩ |
    ⟨done, step, rest, reached, failure', hagenda, hdone, hstep, herror, -⟩
  · rw [hok] at h
    cases h
  · rw [herror] at h
    cases h
    -- Only an emission reads values, and by then the nodes before it have declared theirs.
    by_cases hemit : ∃ stage index, step = .call (.emit stage index)
    · obtain ⟨stage, index, rfl⟩ := hemit
      obtain ⟨before, after, rfl, horder⟩ := agenda_eq_emit hagenda
      obtain ⟨entered, -, hbefore⟩ := performed_append_iff.1 hdone
      have hschedule : ((libraryModel name graph nodes).graph stage).schedule =
          .ok (before ++ index :: after) := by
        unfold Model.order at horder
        split at horder
        · rename_i order hschedule
          rw [hschedule, horder]
        · simp at horder
      obtain ⟨-, hnodes⟩ := emits_library hwired hschedule hbefore
      obtain ⟨node, hnode⟩ := exists_node_of_mem_schedule hschedule
        (List.mem_append_right before List.mem_cons_self)
      have houtcome := emitOutcome_library (reached.emitState input.target stage) hwired
        hschedule (fun target htarget => (hnodes target htarget).2) hnode rfl
      simp only [CompileStep.perform] at hstep
      split at hstep
      · cases hstep
      · rename_i failure hfailure
        cases hstep
        simpa only [hfailure] using houtcome
    · exact not_earlyRead_of_perform hsound
        (fun stage index heq => hemit ⟨stage, index, heq⟩) hstep

/-- In a compiled shader, the main routine of a stage is what its nodes write for the target, in
generation order. -/
theorem main_eq_of_compile (hwired : WiredToOutputs graph nodes) {shader : Shader}
    (h : ((libraryModel name graph nodes).compile input).outcome = .ok shader) (stage : Stage) :
    let m := libraryModel name graph nodes
    (m.graph stage).schedule = .ok (m.order stage) ∧
      (shader.program stage).code.main =
        (m.order stage).flatMap (statementsAt input.target graph nodes stage) ∧
      ∀ index ∈ m.order stage, ∀ node, (nodes stage)[index]? = some node →
        WritesNode node.inputs (computedAt graph nodes stage index)
          (statementsAt input.target graph nodes stage index)
          (computedAt graph nodes stage index).toList := by
  intro m
  obtain ⟨finish, hperformed, rfl⟩ := performed_of_compile h
  have hschedule (stage : Stage) : (m.graph stage).schedule = .ok (m.order stage ++ []) := by
    rw [List.append_nil]
    exact schedule_of_agenda hperformed stage
  obtain ⟨declared, hdeclare, hemit⟩ := performed_append_iff.1 hperformed
  obtain ⟨-, -, -, hvertexCode, hfragmentCode⟩ := performed_declareSteps hdeclare
  obtain ⟨emitted, hemitVertex, hemitFragment⟩ := performed_append_iff.1 hemit
  obtain ⟨hvertexMain, hvertexNodes⟩ := emits_library hwired (hschedule .vertex) hemitVertex
  obtain ⟨hfragmentMain, hfragmentNodes⟩ :=
    emits_library hwired (hschedule .fragment) hemitFragment
  refine ⟨schedule_of_agenda hperformed stage, ?_⟩
  -- Each stage begins without code, and the emissions of one leave the code of the other alone.
  obtain ⟨vertexCode, vertexDeclared, rfl⟩ := performed_emits hemitVertex
  obtain ⟨fragmentCode, fragmentDeclared, rfl⟩ := performed_emits hemitFragment
  cases stage with
  | vertex =>
    refine ⟨?_, fun index hindex => (hvertexNodes index hindex).1⟩
    refine hvertexMain.trans ?_
    rw [show (declared.program .vertex).code = {} from hvertexCode]
    rfl
  | fragment =>
    refine ⟨?_, fun index hindex => (hfragmentNodes index hindex).1⟩
    refine hfragmentMain.trans ?_
    rw [show ((declared.withCode vertexCode vertexDeclared .vertex).program .fragment).code = {}
      from hfragmentCode]
    rfl

/-- Every computed value that a node of the design offers is computed by a node of its stage. -/
theorem exists_computedAt_of_output {stage : Stage} {order : List Nat} {index : Nat}
    {node : LibraryNode} {output : String × Handle} (hwired : WiredToOutputs graph nodes)
    (hschedule : ((libraryModel name graph nodes).graph stage).schedule = .ok order)
    (hnode : (nodes stage)[index]? = some node)
    (houtput : output ∈ node.outputs { stage, graph := graph stage, index })
    (hneeds : output.2.needsDeclaration = true) :
    output.2 ∈ order.filterMap (computedAt graph nodes stage) := by
  have hmem : index ∈ order := by
    rw [(StageGraph.schedule_perm hschedule).mem_iff, List.mem_range]
    exact (List.getElem?_eq_some_iff.1 (getElem?_libraryModel_of_eq_some name graph hnode)).1
  rcases LibraryNode.mem_outputs houtput hneeds with hcomputed | hinput
  · exact List.mem_filterMap.2 ⟨index, hmem, (computedAt_eq hnode).trans hcomputed⟩
  · -- A node that passes an input on offers what an earlier node computes.
    obtain ⟨before, after, rfl⟩ := List.append_of_mem hmem
    obtain ⟨target, htarget, hcomputed⟩ :=
      exists_owner_before hwired hschedule hnode hinput hneeds
    exact List.mem_filterMap.2 ⟨target, List.mem_append_left _ htarget, hcomputed⟩

/-- Declared before read. In every model of library nodes whose inputs are wired to outputs or to values
without an owner, no read is early.

If the model compiles, the main routine of a stage is what its nodes write for the target, in generation
order. There,
each computed value that a node offers is declared exactly once, no two declarations are of one name,
and each node writes only after all computed inputs of it are declared; it mentions no other computed
value than its inputs and its own. -/
theorem library_declared_before_read (hwired : WiredToOutputs graph nodes) :
    let m := libraryModel name graph nodes
    (∀ error value, (m.compile input).outcome = .error (.graph error) →
      error.root ≠ .readBeforeDeclaration value) ∧
    ∀ shader, (m.compile input).outcome = .ok shader → ∀ stage,
      let main := (shader.program stage).code.main
      let statements := statementsAt input.target graph nodes stage
      main = (m.order stage).flatMap statements ∧
      (∀ (index : Nat) (node : LibraryNode) (output : String × Handle),
        (nodes stage)[index]? = some node → output ∈ node.outputs { stage, graph := graph stage, index } →
          output.2.needsDeclaration = true → (declarations main).count output.2 = 1) ∧
      ((declarations main).map (·.name)).Nodup ∧
      ∀ (before : List Nat) (index : Nat) (after : List Nat) (node : LibraryNode),
        m.order stage = before ++ index :: after → (nodes stage)[index]? = some node →
          (∀ handle ∈ node.inputs, handle.needsDeclaration = true →
            handle ∈ declarations (before.flatMap statements)) ∧
          ∀ code ∈ statements index,
            code.Allowed node.inputs (node.computed? { stage, graph := graph stage, index }) := by
  intro m
  refine ⟨fun error value herror hroot => ?_, fun shader hshader stage => ?_⟩
  · exact not_earlyRead_of_compile hwired herror ⟨value, hroot⟩
  · obtain ⟨hschedule, hmain, hwrites⟩ := main_eq_of_compile hwired hshader stage
    intro main statements
    have hnode : ∀ index ∈ m.order stage, ∃ node, (nodes stage)[index]? = some node :=
      fun index hindex => exists_node_of_mem_schedule hschedule hindex
    have hdeclares : ∀ index ∈ m.order stage, declarations (statements index) =
        (computedAt graph nodes stage index).toList := by
      intro index hindex
      obtain ⟨node, hget⟩ := hnode index hindex
      exact (hwrites index hindex node hget).declarations_eq
    have hdeclarations : declarations main =
        (m.order stage).filterMap (computedAt graph nodes stage) := by
      rw [show main = _ from hmain]
      exact declarations_flatMap hdeclares
    have horder : (m.order stage).Nodup :=
      (StageGraph.schedule_perm hschedule).nodup_iff.2 List.nodup_range
    have hnames : (((m.order stage).filterMap (computedAt graph nodes stage)).map (·.name)).Nodup :=
      nodup_names_computedAt horder
    refine ⟨hmain, ?_, ?_, ?_⟩
    · intro index node output hget houtput hneeds
      rw [hdeclarations]
      exact List.count_eq_one_of_mem hnames.of_map
        (exists_computedAt_of_output hwired hschedule hget houtput hneeds)
    · rw [hdeclarations]
      exact hnames
    · intro before index after node hsplit hget
      have hindex : index ∈ m.order stage := by
        rw [hsplit]
        exact List.mem_append_right _ List.mem_cons_self
      have hallowed := (hwrites index hindex node hget).allowed
      rw [computedAt_eq hget] at hallowed
      refine ⟨fun handle hinput hneeds => ?_, hallowed⟩
      have hbefore : ∀ i ∈ before, i ∈ m.order stage := fun i hi => by
        rw [hsplit]
        exact List.mem_append_left _ hi
      rw [declarations_flatMap fun i hi => hdeclares i (hbefore i hi)]
      rw [hsplit] at hschedule
      obtain ⟨target, htarget, hcomputed⟩ :=
        exists_owner_before hwired hschedule hget hinput hneeds
      exact List.mem_filterMap.2 ⟨target, htarget, hcomputed⟩

end Compile

/-- A sum of two colors. -/
def colorSum : ArithmeticNode := .newMath .add .vec4

/-- The value of the sum as the second node of the fragment stage. -/
def sumOutput : Handle := colorSum.output { stage := .fragment, graph := 1, index := 1 }

/-- A color output that is registered before the sum that it reads. -/
def readerFirst : Stage → List LibraryNode
  | .vertex => []
  | .fragment => [.endpoint (.colorOutput "outColor" sumOutput), .arithmetic colorSum]

theorem readerFirst_wired : WiredToOutputs (graphsFrom 0) readerFirst := by
  intro stage node hnode handle hinput id howner _ owner hgetOwner
  cases stage with
  | vertex => cases hnode
  | fragment =>
    rcases List.mem_cons.1 hnode with rfl | hnode
    · obtain rfl := List.mem_singleton.1 hinput
      cases howner
      cases hgetOwner
      exact ⟨"output", List.mem_cons_self⟩
    · -- The operands of the sum belong to no node.
      obtain rfl := List.mem_singleton.1 hnode
      rcases List.mem_cons.1 hinput with rfl | hinput
      · cases howner
      · obtain rfl := List.mem_singleton.1 hinput
        cases howner

/-- The sum is emitted first, so that it is declared, once, before the color output reads it. -/
theorem readerFirst_declared_before_read :
    WiredToOutputs (graphsFrom 0) readerFirst ∧
      ∃ shader, ((libraryModel "readerFirst" (graphsFrom 0) readerFirst).compile
          { target := .vulkan }).outcome = .ok shader ∧
        (declarations shader.fragment.code.main).count sumOutput = 1 ∧
        sumOutput ∈ declarations
          ([1].flatMap (statementsAt .vulkan (graphsFrom 0) readerFirst .fragment)) := by
  have hcompiles : ((libraryModel "readerFirst" (graphsFrom 0) readerFirst).compile
      { target := .vulkan }).outcome.toOption.map (fun _ => ()) = some () := by
    decide +kernel
  have horder : (libraryModel "readerFirst" (graphsFrom 0) readerFirst).order .fragment =
      [1] ++ 0 :: [] := by
    decide +kernel
  obtain ⟨shader, hshader, -⟩ := exists_ok_of_map_eq hcompiles
  obtain ⟨-, hcount, -, hbefore⟩ :=
    (library_declared_before_read readerFirst_wired).2 shader hshader .fragment
  exact ⟨readerFirst_wired, shader, hshader,
    hcount 1 (.arithmetic colorSum) ("output", sumOutput) rfl List.mem_cons_self rfl,
    (hbefore [1] 0 [] (.endpoint (.colorOutput "outColor" sumOutput)) horder rfl).1 sumOutput
      List.mem_cons_self rfl⟩

end ShaderWeave
