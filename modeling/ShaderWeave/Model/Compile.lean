import ShaderWeave.Model.Graph
import ShaderWeave.Model.Shader

/-!
# Compiling

A model is compiled in two passes. First all nodes of the vertex stage and then all nodes of the
fragment stage register what they need; then the interface between the stages is checked and every
update routine is tried once; only then the nodes of both stages write code for the target. The first
thing that goes wrong ends the compilation.

Handles that have been declared before, while other models were compiled, are still declared, and those
that a compilation declares stay so, even if it fails. The compilation keeps a log of the calls that it
makes to nodes and update routines.
-/

namespace ShaderWeave

/-- Why a model does not compile. -/
inductive CompileFailure where
  /-- There is something wrong with the model. -/
  | graph (error : GraphError)
  /-- A number that a node registers would not fit a word. -/
  | overflow
  /-- An update routine writes past the end of its block. -/
  | overrun
  /-- A node refers to an input that it does not have. -/
  | unknownInput
deriving DecidableEq

/-- What a failure of a node means for the compilation. -/
def CompileFailure.ofNode : NodeFailure → CompileFailure
  | .refused error => graph error
  | .unknownInput => unknownInput

/-- A call that compiling makes to a node or to an update routine. -/
inductive PassCall where
  /-- The setup of a node, by its position. -/
  | setup (stage : Stage) (index : Nat)
  /-- The trial of the update routine of a block, by its position in the stage. -/
  | update (stage : Stage) (index : Nat)
  /-- The emission of a node, by its position. -/
  | emit (stage : Stage) (index : Nat)
deriving DecidableEq

/-- What a model is compiled with. -/
structure CompileInput where
  /-- The target. -/
  target : Target
  /-- Parameters that nodes share with the application. -/
  parameters : ParameterStore := {}
  /-- Handles that have been declared before. -/
  declared : List Handle := []

/-- What happened during a compilation. -/
structure CompileLog where
  /-- The calls that were made. -/
  calls : List PassCall := []
  /-- The notes that nodes kept. -/
  notes : List Note := []
  /-- The records that update routines kept. -/
  records : List WriteRecord := []

namespace CompileLog

/-- The log after a call to a node that kept the given notes. -/
def addCall (log : CompileLog) (call : PassCall) (notes : List Note) : CompileLog :=
  { log with calls := log.calls ++ [call], notes := log.notes ++ notes }

/-- The log after a trial that kept the given records. -/
def addTrial (log : CompileLog) (call : PassCall) (records : List WriteRecord) : CompileLog :=
  { log with calls := log.calls ++ [call], records := log.records ++ records }

end CompileLog

/-- The state of a compilation. -/
structure CompileState where
  /-- What the stage that is set up has registered, with the counters of the model. -/
  registry : Registry := { stage := .vertex }
  /-- Handles that have been declared. -/
  declared : List Handle := []
  /-- What has happened. -/
  log : CompileLog := {}

namespace CompileState

/-- The state after a node has been set up, or has failed to. -/
def afterSetup (state : CompileState) (call : PassCall) (after : SetupState) : CompileState :=
  { state with registry := after.registry, log := state.log.addCall call after.notes }

/-- The state after a node has been emitted, or has failed to. -/
def afterEmit (state : CompileState) (call : PassCall) (after : EmitState) : CompileState :=
  { state with declared := after.declared, log := state.log.addCall call after.notes }

/-- The state after an update routine has been tried. -/
def afterTrial (state : CompileState) (call : PassCall) (records : List WriteRecord) : CompileState :=
  { state with log := state.log.addTrial call records }

end CompileState

/-- A step of a compilation. -/
abbrev Compiling := EStateM CompileFailure CompileState

namespace Compiling

/-- End with the error of an outcome. -/
def check {α : Type} : Except GraphError α → Compiling α
  | .ok value => pure value
  | .error error => throw (.graph error)

/-- End with the failure of a node. -/
def checkNode {α : Type} : Except NodeFailure α → Compiling α
  | .ok value => pure value
  | .error failure => throw (.ofNode failure)

/-- What the stage that is set up has registered. -/
def registered : Compiling Registry := fun state => .ok state.registry state

/-- Begin to set up a stage, with the counters and channels as they are. -/
def enter (stage : Stage) : Compiling Unit :=
  modify fun state => { state with registry := state.registry.enter stage }

end Compiling

open Compiling

namespace StageGraph

/-- Set up the node at a position. What it has registered stays, also if it fails. -/
def setupNode (g : StageGraph) (index : Nat) : Compiling Unit := fun state =>
  match g.nodes[index]? with
  | none => .ok () state
  | some node =>
    match node.setup.run.run { registry := state.registry, notes := [] } with
    | .ok () after => .ok () (state.afterSetup (.setup g.stage index) after)
    | .error (.refused error) after =>
      .error (.graph (error.leaveNode node.name g.stage))
        (state.afterSetup (.setup g.stage index) after)
    | .error .overflow after => .error .overflow (state.afterSetup (.setup g.stage index) after)

/-- Set up the nodes at the given positions, in order. -/
def setupNodes (g : StageGraph) : List Nat → Compiling Unit
  | [] => pure ()
  | index :: rest => do
    g.setupNode index
    g.setupNodes rest

/-- Check the stages of all nodes, order them and set them up. Returns the order. -/
def runSetup (g : StageGraph) : Compiling (List Nat) := do
  check g.checkStages
  let order ← checkNode g.schedule
  g.setupNodes order
  return order

/-- Emit the node at a position after the given code, for a target. What it has declared stays so, also
if it fails. -/
def emitNode (g : StageGraph) (target : Target) (code : StageCode) (index : Nat) :
    Compiling StageCode := fun state =>
  match g.nodes[index]? with
  | none => .ok code state
  | some node =>
    let place : CodePlace := { target, stage := g.stage.mask }
    match node.emit.run.run { place, code, declared := state.declared } with
    | .ok () after => .ok after.code (state.afterEmit (.emit g.stage index) after)
    | .error failure after =>
      .error (.ofNode (failure.leaveNode node.name g.stage))
        (state.afterEmit (.emit g.stage index) after)

/-- Emit the nodes at the given positions, in order. -/
def emitNodes (g : StageGraph) (target : Target) : StageCode → List Nat → Compiling StageCode
  | code, [] => pure code
  | code, index :: rest => do
    let code ← g.emitNode target code index
    g.emitNodes target code rest

/-- Emit all nodes in the given order. Returns the code of the stage. -/
def runEmit (g : StageGraph) (target : Target) (order : List Nat) : Compiling StageCode :=
  g.emitNodes target {} order

end StageGraph

/-- Try the update routine of a block on the draw that is made for it. -/
def tryUpdate (parameters : ParameterStore) (stage : Stage) (registered : RegisteredBlock)
    (index : Nat) : Compiling Unit := fun state =>
  match registered.block.shape.refresh (registered.update .dryRun parameters) with
  | none => .error .overrun (state.afterTrial (.update stage index) [])
  | some refreshed =>
    match refreshed.error with
    | none => .ok () (state.afterTrial (.update stage index) refreshed.records)
    | some error =>
      .error (.graph (.updateContract registered.block.name error))
        (state.afterTrial (.update stage index) refreshed.records)

/-- Try the update routines of blocks, the first of which has the given position. -/
def tryUpdates (parameters : ParameterStore) (stage : Stage) :
    List RegisteredBlock → Nat → Compiling Unit
  | [], _ => pure ()
  | registered :: rest, index => do
    tryUpdate parameters stage registered index
    tryUpdates parameters stage rest (index + 1)

namespace Model

/-- The steps of compiling a model. -/
def compileSteps (m : Model) (input : CompileInput) : Compiling Shader := do
  let vertexOrder ← m.vertex.runSetup
  let vertexRegistry ← registered
  enter .fragment
  let fragmentOrder ← m.fragment.runSetup
  let fragmentRegistry ← registered
  check (verifyLink vertexRegistry fragmentRegistry)
  tryUpdates input.parameters .vertex vertexRegistry.blocks 0
  tryUpdates input.parameters .fragment fragmentRegistry.blocks 0
  let vertexCode ← m.vertex.runEmit input.target vertexOrder
  let fragmentCode ← m.fragment.runEmit input.target fragmentOrder
  return {
    name := m.name
    target := input.target
    vertex := { registry := vertexRegistry, code := vertexCode }
    fragment := { registry := fragmentRegistry, code := fragmentCode } }

/-- The outcome of compiling a model, with the log. -/
structure Compilation where
  /-- The shader, or why there is none. -/
  outcome : Except CompileFailure Shader
  /-- What happened. -/
  log : CompileLog
  /-- Handles that have been declared by then. -/
  declared : List Handle

/-- Compile a model. -/
def compile (m : Model) (input : CompileInput) : Compilation :=
  match (m.compileSteps input).run { declared := input.declared } with
  | .ok shader state => { outcome := .ok shader, log := state.log, declared := state.declared }
  | .error failure state =>
    { outcome := .error failure, log := state.log, declared := state.declared }

end Model

end ShaderWeave
