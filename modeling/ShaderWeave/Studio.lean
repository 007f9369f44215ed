import ShaderWeave.Model.Compile
import ShaderWeave.Numbering

/-!
# Studios

Models that are built side by side. Every model makes a graph for each of its stages, and the studio
numbers all graphs by one counter, which starts anywhere and wraps around. Nodes of one model can be
wired to handles of another one; what that means is left to the compilation.

A script of building steps does not know the counter. It names the models by their positions, and the
graphs in handles by the order in which they are made: model `k` makes graphs `2 * k` and `2 * k + 1`.
-/

namespace ShaderWeave

/-- The input under new numbers. -/
def CompileInput.renumber (numbering : Numbering) (input : CompileInput) : CompileInput :=
  { input with declared := input.declared.map (·.renumber numbering) }

/-- An action on a model under construction. -/
inductive DesignAction where
  /-- Add a node to a stage. -/
  | add (stage : Stage) (node : DesignNode)
  /-- Wire an input of a node. -/
  | wire (stage : Stage) (index : Nat) (socket : Socket) (handle : Handle)
  /-- Make a channel. -/
  | newChannel (var : Variable)
  /-- Make a push constant. -/
  | newPushConstant (var : Variable) (cell : Cell)
  /-- Make settings of ambient occlusion. -/
  | newSettings (settings : AmbientOcclusion.Settings)
  /-- Carry a value from the vertex to the fragment stage. -/
  | stageInterface (var : Variable) (input : Handle)
  /-- Add lights with shadows. -/
  | addShadowedLights (max : UInt32)
deriving DecidableEq

/-- Perform the action, with the given numbers of the graphs that it names; returns whether the model
has the node and the input that it names. -/
def DesignAction.perform (numbering : Numbering) : DesignAction → Designing Bool
  | add stage node => do
    let _ ← Designing.add stage (node.renumber numbering)
    return true
  | wire stage index socket handle => Designing.wire stage index socket (handle.renumber numbering)
  | newChannel var => do
    let _ ← Designing.newChannel var
    return true
  | newPushConstant var cell => do
    let _ ← Designing.newPushConstant var cell
    return true
  | newSettings settings => do
    let _ ← Designing.newSettings settings
    return true
  | stageInterface var input => do
    let _ ← Designing.stageInterface var (input.renumber numbering)
    return true
  | addShadowedLights max => do
    let _ ← Designing.addShadowedLights max
    return true

/-- A step of building models. -/
inductive BuildStep where
  /-- Make a model without nodes. -/
  | newModel (name : String)
  /-- Act on the model at a position. -/
  | act (model : Nat) (action : DesignAction)
deriving DecidableEq

/-- Models that are built side by side. -/
structure Studio where
  /-- Where the counter of graphs starts. -/
  first : UInt32
  /-- The models, in the order in which they are made. -/
  designs : List Design := []
  /-- Number of channels so far. -/
  channels : Nat := 0
  /-- Parameters that nodes share with the application. -/
  parameters : ParameterStore := {}
deriving DecidableEq

namespace Studio

/-- The number of a graph, given how many were made before it. -/
def number (studio : Studio) (order : Nat) : Nat :=
  (studio.first + .ofNat order).toNat

/-- The numbers of the graphs that a script names by their order. -/
def numbering (studio : Studio) : Numbering := fun _ => studio.number

/-- The design of the next model. -/
def nextDesign (studio : Studio) (name : String) : Design where
  name := name
  graph := studio.number (2 * studio.designs.length)
  fragmentGraph := studio.number (2 * studio.designs.length + 1)

/-- The model at a position with what its nodes share. -/
def workspace? (studio : Studio) (model : Nat) : Option Workspace :=
  studio.designs[model]?.map fun design =>
    { design, channels := studio.channels, parameters := studio.parameters }

/-- The studio after the workspace of the model at a position has changed. -/
def withWorkspace (studio : Studio) (model : Nat) (ws : Workspace) : Studio :=
  { studio with
    designs := studio.designs.set model ws.design
    channels := ws.channels
    parameters := ws.parameters }

/-- Take a step; `none` if it names a model, a node or an input that there is not. -/
def step? (studio : Studio) : BuildStep → Option Studio
  | .newModel name => some { studio with designs := studio.designs ++ [studio.nextDesign name] }
  | .act model action => do
    let ws ← studio.workspace? model
    let (performed, ws) := (action.perform studio.numbering).run ws
    if performed then some (studio.withWorkspace model ws) else none

/-- Take the steps of a script, with the counter of graphs starting at `first`. -/
def build? (first : UInt32) (script : List BuildStep) : Option Studio :=
  script.foldlM step? { first }

/-- The outcome of compiling the model at a position. Like a script, the input names graphs by the order
in which they are made. -/
def outcome? (studio : Studio) (input : CompileInput) (model : Nat) :
    Option (Except CompileFailure Shader) :=
  studio.designs[model]?.map fun design =>
    (design.model.compile (input.renumber studio.numbering)).outcome

end Studio

end ShaderWeave
