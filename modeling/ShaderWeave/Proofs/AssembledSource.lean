import Mathlib.Data.List.Induction
import ShaderWeave.Proofs.TrimmedLines
import ShaderWeave.Proofs.Turns

/-!
# How a Source Is Assembled

The code of a stage comes about by two kinds of calls: one appends a fragment to the main routine, the
other registers a helper routine under a name. Whatever the order of the calls, the source has the
declarations, then one helper routine for each name, in the order in which the names first came and with
the body that came first, and then the main routine with the lines of all fragments.

A compiled stage is assembled in the same way from the calls that its nodes make, each in its turn.

## Main definitions

* `CodeCall`: a call that adds to the code of a stage, and `CodeCall.answer`, what comes of it.
* `helperSections`, `bodyLines`, `assembled`: the parts of the source and the source, by the calls alone.
* `Turn.calls`: the calls for code that a node makes in its turn.

## Main results

* `foldl_make`: the code after calls, by the fragments and the first registrations among them.
* `run_codeCalls`, `code_afterTurns`: the code that one emission and all turns of a stage leave.
* `stage_source_of_calls`: the source of a stage, and that of a compiled one.
-/

namespace ShaderWeave

/-! ## Calls -/

/-- A call that adds to the code of a stage. -/
inductive CodeCall where
  /-- Append a fragment to the main routine. -/
  | main (code : Code)
  /-- Register a helper routine. -/
  | helper (name body : String)

namespace CodeCall

/-- Make the call. A helper routine is answered by whether it was added. -/
def answer : CodeCall → EStateM NodeFailure EmitState (Option Bool)
  | main code => do
    let () ← EmitState.answer (.append code)
    return none
  | helper name body => do
    let added ← EmitState.answer (.helper name body)
    return some added

/-- The fragment that the call appends. -/
def fragment? : CodeCall → Option Code
  | main code => some code
  | helper .. => none

/-- The name and the body that the call registers. -/
def registration? : CodeCall → Option (String × String)
  | main _ => none
  | helper name body => some (name, body)

end CodeCall

/-- The fragments that calls append, in order. -/
def fragments (calls : List CodeCall) : List Code :=
  calls.filterMap CodeCall.fragment?

/-- The names and bodies that calls register, in order. -/
def registrations (calls : List CodeCall) : List (String × String) :=
  calls.filterMap CodeCall.registration?

/-- The names that calls register, in order and as often as they are registered. -/
def registeredNames (calls : List CodeCall) : List String :=
  (registrations calls).map (·.1)

@[simp]
theorem fragments_append (calls more : List CodeCall) :
    fragments (calls ++ more) = fragments calls ++ fragments more :=
  List.filterMap_append

@[simp]
theorem registrations_append (calls more : List CodeCall) :
    registrations (calls ++ more) = registrations calls ++ registrations more :=
  List.filterMap_append

/-! ## The Parts of a Source -/

/-- Each registered name once, in the order of first registrations, with the body that was registered
first. -/
def firstOfEach (registered : List (String × String)) : List (String × String) :=
  (registered.map (·.1)).eraseDups.map fun name => (name, (registered.lookup name).getD "")

/-- The sections of helper routines. -/
def helperSections (calls : List CodeCall) : List String :=
  (firstOfEach (registrations calls)).map fun helper => trimIndent helper.2

/-- The lines of the main routine: those of the trimmed text of each fragment. -/
def bodyLines (calls : List CodeCall) : List String :=
  (fragments calls).flatMap fun code => textLines (trimIndent code.render)

/-- The main routine with the given lines, each indented by four spaces unless it is empty. -/
def mainSection (lines : List String) : String :=
  "void main() \x7b\n"
    ++ String.join (lines.map fun line => (if line = "" then "" else "    " ++ line) ++ "\n")
    ++ "\x7d"

/-- The first line of a source and the sections of declarations that there are. -/
def declarationSections (target : Target) (registry : Registry) : List String :=
  target.preamble ::
    ([target.attributeSection registry, target.interfaceSection registry,
      target.bindingSection registry].filter fun lines => !lines.isEmpty).map
        (String.intercalate "\n")

/-- The source of a stage with the given declarations and calls. -/
def assembled (target : Target) (registry : Registry) (calls : List CodeCall) : String :=
  String.intercalate "\n\n"
    (declarationSections target registry ++ helperSections calls
      ++ [mainSection (bodyLines calls)]) ++ "\n"

/-! ## First Registrations -/

/-- The name of a registration joins the names before it unless it is one of them. -/
theorem firstOfEach_concat (registered : List (String × String)) (name body : String) :
    firstOfEach (registered ++ [(name, body)]) =
      if name ∈ registered.map (·.1) then firstOfEach registered
      else firstOfEach registered ++ [(name, body)] := by
  -- The bodies of the names before are found among the registrations before.
  have hbodies : ∀ other ∈ (registered.map (·.1)).eraseDups,
      ((registered ++ [(name, body)]).lookup other).getD "" = (registered.lookup other).getD "" := by
    intro other hother
    obtain ⟨registration, hmem, hname⟩ := List.mem_map.1 (List.mem_eraseDups.1 hother)
    rw [List.lookup_append]
    cases hlookup : registered.lookup other with
    | some found => rfl
    | none =>
      have hne := List.lookup_eq_none_iff.1 hlookup registration hmem
      exact absurd hname.symm (bne_iff_ne.1 hne)
  have hbefore : (registered.map (·.1)).eraseDups.map
      (fun other => (other, ((registered ++ [(name, body)]).lookup other).getD "")) =
        firstOfEach registered :=
    List.map_congr_left fun other hother => by rw [hbodies other hother]
  unfold firstOfEach at hbefore ⊢
  rw [List.map_append, List.eraseDups_append]
  by_cases hmem : name ∈ registered.map (·.1)
  · have hremoved : ([(name, body)].map (·.1)).removeAll (registered.map (·.1)) = [] := by
      simpa [List.removeAll] using hmem
    rw [if_pos hmem, hremoved, List.eraseDups_nil, List.append_nil]
    exact hbefore
  · have hkept : ([(name, body)].map (·.1)).removeAll (registered.map (·.1)) = [name] := by
      simpa [List.removeAll] using hmem
    have hnone : registered.lookup name = none := by
      apply List.lookup_eq_none_iff.2
      intro registration hregistration
      rw [bne_iff_ne]
      rintro rfl
      exact hmem (List.mem_map_of_mem hregistration)
    rw [if_neg hmem, hkept, List.map_append, hbefore]
    simp [List.eraseDups_cons, List.lookup_append, hnone]

/-- A repeated registration makes no difference, whatever follows it. -/
theorem firstOfEach_repeated {registered more : List (String × String)} {name body : String}
    (h : name ∈ registered.map (·.1)) :
    firstOfEach (registered ++ (name, body) :: more) = firstOfEach (registered ++ more) := by
  induction more using List.reverseRecOn with
  | nil => rw [firstOfEach_concat, if_pos h, List.append_nil]
  | append_singleton more last ih =>
    obtain ⟨other, text⟩ := last
    have hassoc : registered ++ (name, body) :: (more ++ [(other, text)]) =
        (registered ++ (name, body) :: more) ++ [(other, text)] := by simp
    -- The repeated name is there before, so the same names are there when the last one comes.
    have hnames : other ∈ (registered ++ (name, body) :: more).map (·.1) ↔
        other ∈ (registered ++ more).map (·.1) := by
      rw [List.map_append, List.map_append, List.map_cons, List.mem_append, List.mem_append,
        List.mem_cons]
      refine ⟨?_, fun hother => hother.imp_right .inr⟩
      rintro (hother | rfl | hother)
      · exact .inl hother
      · exact .inl h
      · exact .inr hother
    rw [hassoc, firstOfEach_concat, ih, ← List.append_assoc, firstOfEach_concat]
    by_cases hother : other ∈ (registered ++ more).map (·.1)
    · rw [if_pos (hnames.2 hother), if_pos hother]
    · rw [if_neg (hother ∘ hnames.1), if_neg hother]

/-! ## The Code after Calls -/

namespace StageCode

/-- The code after a call. -/
def make (code : StageCode) : CodeCall → StageCode
  | .main fragment => code.append fragment
  | .helper name body => code.addHelper name body

theorem hasHelper_iff (code : StageCode) (name : String) :
    code.hasHelper name = true ↔ name ∈ code.helpers.map (·.1) := by
  simp [hasHelper]

end StageCode

theorem mem_firstOfEach (registered : List (String × String)) (name : String) :
    name ∈ (firstOfEach registered).map (·.1) ↔ name ∈ registered.map (·.1) := by
  have hnames : (firstOfEach registered).map (·.1) = (registered.map (·.1)).eraseDups := by
    rw [firstOfEach, List.map_map]
    exact List.map_id _
  rw [hnames, List.mem_eraseDups]

/-- After calls, the main routine has the fragments among them, and there is one helper routine for each
registered name, with its first body. -/
theorem foldl_make (calls : List CodeCall) :
    (calls.foldl StageCode.make {}).main = fragments calls ∧
      (calls.foldl StageCode.make {}).helpers = firstOfEach (registrations calls) := by
  induction calls using List.reverseRecOn with
  | nil => exact ⟨rfl, rfl⟩
  | append_singleton calls last ih =>
    obtain ⟨hmain, hhelpers⟩ := ih
    rw [List.foldl_append, List.foldl_cons, List.foldl_nil, fragments_append, registrations_append]
    cases last with
    | main code =>
      refine ⟨?_, ?_⟩
      · rw [StageCode.make, StageCode.main_append, hmain]
        rfl
      · rw [show registrations [.main code] = [] from rfl, List.append_nil]
        exact hhelpers
    | helper name body =>
      have hknown : (calls.foldl StageCode.make {}).hasHelper name = true ↔
          name ∈ (registrations calls).map (·.1) := by
        rw [StageCode.hasHelper_iff, hhelpers, mem_firstOfEach]
      rw [show fragments [.helper name body] = [] from rfl, List.append_nil,
        show registrations [.helper name body] = [(name, body)] from rfl, firstOfEach_concat,
        StageCode.make, StageCode.addHelper]
      by_cases hmem : name ∈ (registrations calls).map (·.1)
      · rw [if_pos (hknown.2 hmem), if_pos hmem]
        exact ⟨hmain, hhelpers⟩
      · rw [if_neg (hmem ∘ hknown.1), if_neg hmem, ← hhelpers]
        exact ⟨hmain, rfl⟩

theorem hasHelper_foldl_make (calls : List CodeCall) (name : String) :
    (calls.foldl StageCode.make {}).hasHelper name = decide (name ∈ registeredNames calls) := by
  rw [Bool.eq_iff_iff, StageCode.hasHelper_iff, (foldl_make calls).2, mem_firstOfEach,
    decide_eq_true_iff]
  rfl

/-! ## Answers -/

/-- The state of an emission before any call. -/
def EmitState.start (place : CodePlace) : EmitState := { place, declared := [] }

/-- The answer to a call, given those before it. -/
def CodeCall.answerAfter (before : List CodeCall) : CodeCall → Option Bool
  | main _ => none
  | helper name _ => some (decide (name ∉ registeredNames before))

/-- A call is answered, and changes the code as it says and nothing else. -/
theorem answer_eq_ok (place : CodePlace) (before : List CodeCall) (call : CodeCall) :
    call.answer { EmitState.start place with code := before.foldl StageCode.make {} } =
      .ok (call.answerAfter before)
        { EmitState.start place with code := (before ++ [call]).foldl StageCode.make {} } := by
  rw [List.foldl_append, List.foldl_cons, List.foldl_nil]
  cases call with
  | main code => rfl
  | helper name body =>
    have hnew : decide (name ∉ registeredNames before) =
        !(before.foldl StageCode.make {}).hasHelper name := by
      rw [hasHelper_foldl_make, decide_not]
    rw [CodeCall.answerAfter, hnew]
    rfl

/-- Calls that are made one after another are answered one by one, each by the calls before it. -/
theorem mapM_answer (place : CodePlace) (before calls : List CodeCall) :
    ∃ answers, calls.mapM CodeCall.answer
        { EmitState.start place with code := before.foldl StageCode.make {} } =
          .ok answers { EmitState.start place with code := (before ++ calls).foldl StageCode.make {} } ∧
      answers.length = calls.length ∧
      ∀ earlier call later, calls = earlier ++ call :: later →
        answers[earlier.length]? = some (call.answerAfter (before ++ earlier)) := by
  induction calls generalizing before with
  | nil =>
    refine ⟨[], by rw [List.append_nil]; rfl, rfl, fun earlier call later hsplit => ?_⟩
    simp at hsplit
  | cons call rest ih =>
    obtain ⟨answers, hrest, hlength, hanswers⟩ := ih (before ++ [call])
    rw [List.append_assoc, List.singleton_append] at hrest
    have hbind : (call :: rest).mapM CodeCall.answer
        { EmitState.start place with code := before.foldl StageCode.make {} } =
          .ok (call.answerAfter before :: answers)
            { EmitState.start place with code := (before ++ call :: rest).foldl StageCode.make {} } := by
      rw [List.mapM_cons]
      show EStateM.bind call.answer _ _ = _
      rw [EStateM.bind, answer_eq_ok]
      show EStateM.bind (rest.mapM CodeCall.answer) _ _ = _
      rw [EStateM.bind, hrest]
      rfl
    refine ⟨_, hbind, by rw [List.length_cons, List.length_cons, hlength], ?_⟩
    intro earlier made later hsplit
    cases earlier with
    | nil =>
      obtain ⟨rfl, -⟩ := List.cons.inj hsplit
      simp
    | cons first earlier =>
      rw [List.cons_append] at hsplit
      obtain ⟨rfl, hrestSplit⟩ := List.cons.inj hsplit
      have hmade := hanswers earlier made later hrestSplit
      rw [List.append_assoc, List.singleton_append] at hmade
      simpa using hmade

/-! ## The Text -/

theorem mainRoutine_eq (registry : Registry) (code : StageCode) :
    StageProgram.mainRoutine { registry, code } =
      mainSection (code.main.flatMap fun fragment =>
        textLines (trimIndent fragment.render)) := by
  have hlines : StageProgram.mainLines { registry, code } =
      code.main.flatMap fun fragment => textLines (trimIndent fragment.render) :=
    List.flatMap_congr fun fragment _ => codeLines_eq_textLines _
  have hline (line : String) : StageProgram.indentLine line =
      (if line = "" then "" else "    " ++ line) ++ "\n" := by
    unfold StageProgram.indentLine
    by_cases hempty : line = ""
    · rw [hempty]
      rfl
    · rw [if_neg hempty, if_neg (by simpa using hempty)]
  rw [StageProgram.mainRoutine, hlines, funext hline]
  rfl

theorem declarations_eq (lines : List String) :
    StageProgram.declarations lines =
      ([lines].filter fun lines => !lines.isEmpty).map (String.intercalate "\n") := by
  unfold StageProgram.declarations
  cases lines <;> rfl

/-- The source of a stage is assembled from its declarations and the calls that its code comes from. -/
theorem source_foldl_make (target : Target) (registry : Registry) (calls : List CodeCall) :
    StageProgram.source target { registry, code := calls.foldl StageCode.make {} } =
      assembled target registry calls := by
  obtain ⟨hmain, hhelpers⟩ := foldl_make calls
  have hsections : StageProgram.sections target
      { registry, code := calls.foldl StageCode.make {} } =
        declarationSections target registry ++ helperSections calls
          ++ [mainSection (bodyLines calls)] := by
    unfold StageProgram.sections
    rw [mainRoutine_eq, hmain, hhelpers, declarations_eq, declarations_eq, declarations_eq]
    unfold declarationSections
    rw [List.filter_cons, List.filter_cons, List.filter_cons]
    split <;> split <;> split <;> simp_all [helperSections, bodyLines]
  rw [StageProgram.source, hsections]
  rfl

/-! ## Turns -/

/-- The call for code that a request of an emission is. -/
def EmitCall.codeCall? : EmitCall → Option CodeCall
  | append code => some (.main code)
  | helper name body => some (.helper name body)
  | _ => none

/-- The calls for code that an emission makes from a state on. -/
def Emit.codeCalls {α : Type} : Emit α → EmitState → List CodeCall
  | .done _, _ => []
  | .fail _, _ => []
  | .call request next, state =>
    match EmitState.answer request state with
    | .ok answer state' => request.codeCall?.toList ++ Emit.codeCalls (next answer) state'
    | .error _ _ => []

/-- The calls for code that a node makes in its turn. -/
def Turn.calls (turn : Turn) : List CodeCall :=
  turn.node.emit.codeCalls turn.state

theorem answer_codeCall {request : EmitCall} {state state' : EmitState} {answer : request.Answer}
    (h : EmitState.answer request state = .ok answer state') :
    state'.code = request.codeCall?.toList.foldl StageCode.make state.code := by
  cases request with
  | declare handle =>
    simp only [EmitState.answer] at h
    split at h <;> cases h <;> rfl
  | place | append _ | helper _ _ | read _ _ _ | note _ =>
    cases h
    rfl

/-- An emission leaves the code that its calls make, whether or not it ends well. -/
theorem run_codeCalls (emit : Emit Unit) (state : EmitState) :
    (emit.finish state).code = (emit.codeCalls state).foldl StageCode.make state.code := by
  induction emit generalizing state with
  | done value => rfl
  | fail failure => rfl
  | call request next ih =>
    rw [Emit.codeCalls]
    cases hanswer : EmitState.answer request state with
    | ok answer middle =>
      rw [Emit.finish_of_answer next hanswer, ih, answer_codeCall hanswer, List.foldl_append]
    | error failure middle => exact absurd hanswer (EmitState.answer_ne_error request state)

/-- Connected turns leave the code that their calls make. -/
theorem code_afterTurns {state : EmitState} {turns : List Turn} (h : Connected state turns) :
    (afterTurns state turns).code = (turns.flatMap Turn.calls).foldl StageCode.make state.code := by
  induction turns generalizing state with
  | nil => rfl
  | cons turn rest ih =>
    obtain ⟨rfl, hrest⟩ := h
    have hturn : turn.after.code = turn.calls.foldl StageCode.make turn.state.code :=
      run_codeCalls turn.node.emit turn.state
    rw [afterTurns_cons, ih hrest, hturn, List.flatMap_cons, List.foldl_append]

/-- The code of a compiled stage is what the calls of its nodes make in their turns. -/
theorem code_of_compile {m : Model} {input : CompileInput} {shader : Shader}
    (h : (m.compile input).outcome = .ok shader) (stage : Stage) :
    (shader.program stage).code =
      ((m.turns input stage).flatMap Turn.calls).foldl StageCode.make {} := by
  obtain ⟨-, hcode, -⟩ := turns_of_compile h stage
  have hstart : (m.stageState input stage).code = {} := by
    cases stage <;> rfl
  rw [hcode, code_afterTurns (connected_turns m input stage), hstart]

/-- In a compiled model the generation order has a place for every node. -/
theorem mem_order_of_compile {m : Model} {input : CompileInput} {shader : Shader}
    {stage : Stage} {index : Nat} {node : Node} (h : (m.compile input).outcome = .ok shader)
    (hnode : (m.graph stage).nodes[index]? = some node) : index ∈ m.order stage := by
  obtain ⟨finish, hagenda, -⟩ := performed_of_compile h
  rw [(StageGraph.schedule_perm (schedule_of_agenda hagenda stage)).mem_iff, List.mem_range]
  exact (List.getElem?_eq_some_iff.1 hnode).1

/-- In a compiled model every node has a turn, at the place that the generation order gives it, and what
it appends in its turn is a part of the main routine. -/
theorem exists_turn_of_compile {m : Model} {input : CompileInput} {shader : Shader}
    {stage : Stage} {index : Nat} {node : Node} (h : (m.compile input).outcome = .ok shader)
    (hnode : (m.graph stage).nodes[index]? = some node) :
    ∃ (position : Nat) (turn : Turn), (m.order stage)[position]? = some index ∧
      (m.turns input stage)[position]? = some turn ∧ turn.node = node ∧
      (∃ after, node.emit.run turn.state = .ok () after) ∧
      ∃ before after, (shader.program stage).code.main =
        before ++ fragments turn.calls ++ after := by
  obtain ⟨hnodes, -, hruns⟩ := turns_of_compile h stage
  obtain ⟨position, hposition⟩ := List.mem_iff_getElem?.1 (mem_order_of_compile h hnode)
  have hturn : ((m.turns input stage)[position]?).map (fun turn => some turn.node) =
      some (some node) := by
    rw [← List.getElem?_map, hnodes, List.getElem?_map, hposition, Option.map_some, hnode]
  obtain ⟨turn, hget, hsome⟩ := Option.map_eq_some_iff.1 hturn
  cases hsome
  have hmem : turn ∈ m.turns input stage := List.mem_of_getElem? hget
  obtain ⟨earlier, later, hsplit⟩ := List.append_of_mem hmem
  refine ⟨position, turn, hposition, hget, rfl, hruns turn hmem,
    fragments (earlier.flatMap Turn.calls), fragments (later.flatMap Turn.calls), ?_⟩
  rw [code_of_compile h, (foldl_make _).1, hsplit, List.flatMap_append, List.flatMap_cons]
  unfold fragments
  rw [List.filterMap_append, List.filterMap_append, List.append_assoc]

/-! ## Main Result -/

/-- The source of a stage. Whatever calls are made for code, one after another, each is answered:

* The registration of a helper routine is answered by yes exactly if no call before it registers its
  name.
* The source has the declarations, then for each name that is registered, in the order in which the
  names first come, the trimmed text of the first body, and then the main routine, whose lines are those
  of the trimmed text of each fragment, in order, the ones that are not empty indented by four spaces.

So a repeated registration changes nothing of the helper routines, wherever it comes.

If a model compiles, each node of a stage has its turn in generation order, the source of the stage is
assembled from the calls that the nodes make in their turns, and the main routine has the fragments that
they append. -/
theorem stage_source_of_calls :
    (∀ (place : CodePlace) (registry : Registry) (calls : List CodeCall), ∃ answers state,
      calls.mapM CodeCall.answer (EmitState.start place) = .ok answers state ∧
      answers.length = calls.length ∧
      (∀ before name body after, calls = before ++ .helper name body :: after →
        answers[before.length]? = some (some (decide (name ∉ registeredNames before)))) ∧
      StageProgram.source place.target { registry, code := state.code } =
        assembled place.target registry calls) ∧
    (∀ before name body after, name ∈ registeredNames before →
      helperSections (before ++ .helper name body :: after) = helperSections (before ++ after)) ∧
    ∀ (m : Model) (input : CompileInput) (shader : Shader),
      (m.compile input).outcome = .ok shader → ∀ stage,
        (m.turns input stage).map (fun turn => some turn.node) =
          (m.order stage).map (fun index => (m.graph stage).nodes[index]?) ∧
        shader.source stage.mask =
          assembled input.target (shader.program stage).registry
            ((m.turns input stage).flatMap Turn.calls) ∧
        (shader.program stage).code.main =
          (m.turns input stage).flatMap fun turn => fragments turn.calls := by
  refine ⟨fun place registry calls => ?_, fun before name body after hname => ?_,
    fun m input shader hshader stage => ?_⟩
  · obtain ⟨answers, hmade, hlength, hanswers⟩ := mapM_answer place [] calls
    exact ⟨answers, _, hmade, hlength, fun before name body after => hanswers before _ after,
      source_foldl_make place.target registry calls⟩
  · unfold helperSections
    have hregistered : registrations (.helper name body :: after) =
      (name, body) :: registrations after := rfl
    rw [registrations_append, registrations_append, hregistered, firstOfEach_repeated hname]
  · obtain ⟨hnodes, -, -⟩ := turns_of_compile hshader stage
    have hcode := code_of_compile hshader stage
    refine ⟨hnodes, ?_, ?_⟩
    · rw [← source_foldl_make, ← hcode, ← target_of_compile hshader]
      cases stage <;> rfl
    · rw [hcode, (foldl_make _).1]
      exact List.filterMap_flatMap

/-- A node that registers a routine for the tone and uses it. -/
def toneNode (name body code : String) : DesignNode :=
  .scripted {
    name
    reported := []
    emit := [{ action := .helper "tone" body }, { action := .append code }] }

/-- Two nodes that register different routines under one name. -/
def sharedTone : Design where
  name := "sharedTone"
  fragment := [
    toneNode "warm" "float tone() \x7b return 1.0; \x7d" "float x = tone();",
    toneNode "cold" "float tone() \x7b return 2.0; \x7d" "\n  float y = tone();\n\n    y *= 2.0;\n"]

/-- The routine of the first node is the only one, and the lines of both nodes follow each other. -/
theorem sharedTone_source :
    ∃ shader, (sharedTone.model.compile { target := .webgl2 }).outcome = .ok shader ∧
      shader.source .fragment =
        assembled .webgl2 shader.fragment.registry
          ((sharedTone.model.turns { target := .webgl2 } .fragment).flatMap Turn.calls) ∧
      helperSections ((sharedTone.model.turns { target := .webgl2 } .fragment).flatMap Turn.calls) =
        ["float tone() \x7b return 1.0; \x7d"] ∧
      bodyLines ((sharedTone.model.turns { target := .webgl2 } .fragment).flatMap Turn.calls) =
        ["float x = tone();", "float y = tone();", "", "  y *= 2.0;"] := by
  have hcompiles : (sharedTone.model.compile { target := .webgl2 }).outcome.toOption.map
      (fun _ => ()) = some () := by
    decide +kernel
  obtain ⟨shader, hshader, -⟩ := exists_ok_of_map_eq hcompiles
  obtain ⟨-, hsource, -⟩ :=
    stage_source_of_calls.2.2 sharedTone.model { target := .webgl2 } shader hshader .fragment
  exact ⟨shader, hshader, hsource, by decide +kernel, by decide +kernel⟩

end ShaderWeave
