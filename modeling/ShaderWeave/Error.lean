import ShaderWeave.Stage
import ShaderWeave.Variable

/-!
# Errors

`WriteError` says how a write to a uniform block breaks the block's layout. `GraphError` says what is
wrong with a model, found while it is built and compiled. An error that arises inside a node is
wrapped with the node's name and stage. Each error has its own text, and the message of an error is
its text followed by the texts of its causes.
-/

namespace ShaderWeave

/-- A write that breaks the layout of a uniform block. -/
inductive WriteError where
  /-- The block has no such member. -/
  | unknownMember (block member : String)
  /-- The member comes before one that is written already. -/
  | outOfOrder (block member previous : String)
  /-- The value has not the type of the member. -/
  | typeMismatch (block member : String) (expected found : ValueType)
  /-- There is no such element. A member that is not an array counts as one of length one. -/
  | indexOutOfRange (block member : String) (index len : UInt32)
deriving DecidableEq

/-- The text of a write error. -/
def WriteError.message : WriteError → String
  | unknownMember block member => "block `" ++ block ++ "` has no member `" ++ member ++ "`"
  | outOfOrder block member previous =>
    "block `" ++ block ++ "`: member `" ++ member ++ "` written after `" ++ previous
      ++ "`, out of declaration order"
  | typeMismatch block member expected found =>
    "block `" ++ block ++ "`: member `" ++ member ++ "` is " ++ expected.glsl
      ++ ", write supplied " ++ found.glsl
  | indexOutOfRange block member index len =>
    "block `" ++ block ++ "`: index " ++ toString index ++ " out of range for `" ++ member
      ++ "` (length " ++ toString len ++ ")"

/-- Name of the kind of write error. -/
def WriteError.kind : WriteError → String
  | unknownMember .. => "UnknownMember"
  | outOfOrder .. => "OutOfOrder"
  | typeMismatch .. => "TypeMismatch"
  | indexOutOfRange .. => "IndexOutOfRange"

/-- What is wrong with a model. -/
inductive GraphError where
  /-- The node may not stand in the stage. -/
  | stageNotAllowed (node : String) (stage : StageMask)
  /-- The node depends on one that is not registered in its graph. -/
  | missingDependency (node : String) (stage : Stage) (dependency : Nat)
  /-- The node depends on one of the other stage. -/
  | crossStageDependency (node : String) (stage dependencyStage : Stage)
  /-- A cycle of dependencies can be reached from the node. -/
  | dependencyCycle (node : String) (stage : Stage)
  /-- Two inputs of different contracts at one slot. -/
  | duplicateInterfaceSlot (stage : Stage) (slot : UInt32) (existing requested : Variable)
  /-- Two interface variables, attributes or color outputs of one name. -/
  | duplicateInterfaceName (stage : Stage) (name : String)
  /-- The two ends of a slot differ. -/
  | interfaceMismatch (slot : UInt32) (consumer producer : Variable)
  /-- An input at a slot that no output has. -/
  | unmatchedInterfaceInput (name : String) (slot : UInt32)
  /-- A channel is read before it has a slot. -/
  | channelNotAllocated (name : String)
  /-- A channel gets a second slot. -/
  | channelAllocatedTwice (name : String)
  /-- A value cannot be read at the type. -/
  | invalidCoercion (value : String) (source target : ValueType)
  /-- A computed value is read before the node that owns it declared it. -/
  | readBeforeDeclaration (value : String)
  /-- A constant cannot be declared. -/
  | constantDeclaration (value : String)
  /-- An input of the stage is declared globally, not by a statement. -/
  | stageInputDeclaration (value : String)
  /-- Two members of one name. -/
  | duplicateBlockMember (block member : String)
  /-- A block that nothing updates. -/
  | missingUpdateRoutine (block : String)
  /-- Two blocks, push constants or samplers of one name in one stage. -/
  | duplicateBinding (name : String) (stage : Stage)
  /-- A push constant that is neither scalar nor vector. -/
  | unsupportedPushConstant (name : String) (ty : ValueType)
  /-- Channels that select nothing from the input. -/
  | invalidSwizzle (channels : String)
  /-- An input that must be wired and is not. -/
  | unconnectedInput (input : String)
  /-- The update routine of a block breaks the block's layout. -/
  | updateContract (block : String) (cause : WriteError)
  /-- A pass over a stage that is not ready for it. -/
  | invalidPhase (stage : StageMask) (found expected : String)
  /-- An error inside a node. -/
  | inNode (node : String) (stage : StageMask) (cause : GraphError)
deriving DecidableEq

namespace GraphError

/-- The text of an error without those of its causes. -/
def text : GraphError → String
  | stageNotAllowed node stage =>
    "node `" ++ node ++ "` is not allowed in the " ++ stage.label ++ " stage"
  | missingDependency node stage dependency =>
    "node `" ++ node ++ "` (" ++ stage.label ++ " stage) depends on node #" ++ toString dependency
      ++ ", which is not registered in this stage graph"
  | crossStageDependency node stage dependencyStage =>
    "node `" ++ node ++ "` (" ++ stage.label ++ " stage) reads a value produced in the "
      ++ dependencyStage.label ++ " stage; values cross stages only through a stage interface"
  | dependencyCycle node stage =>
    "dependency cycle in the " ++ stage.label ++ " stage involving node `" ++ node ++ "`"
  | duplicateInterfaceSlot stage slot existing requested =>
    "interface slot " ++ toString slot ++ " registered twice in the " ++ stage.label
      ++ " stage with differing contracts: `" ++ existing.declaration ++ "` vs `"
      ++ requested.declaration ++ "`"
  | duplicateInterfaceName stage name =>
    "interface name `" ++ name ++ "` is declared twice in the " ++ stage.label ++ " stage"
  | interfaceMismatch slot consumer producer =>
    "interface slot " ++ toString slot ++ ": consumer expects `" ++ consumer.declaration
      ++ "` but producer declares `" ++ producer.declaration ++ "`"
  | unmatchedInterfaceInput name slot =>
    "interface input `" ++ name ++ "` at slot " ++ toString slot ++ " has no producer"
  | channelNotAllocated name =>
    "stage interface `" ++ name ++ "` was consumed before the producing stage allocated its slot"
  | channelAllocatedTwice name => "stage interface `" ++ name ++ "` was allocated twice"
  | invalidCoercion value source target =>
    "cannot read `" ++ value ++ "` (" ++ source.glsl ++ ") as " ++ target.glsl
  | readBeforeDeclaration value =>
    "`" ++ value ++ "` is read before its producing node declared it; the reader is missing a "
      ++ "dependency on that node"
  | constantDeclaration value => "constant value `" ++ value ++ "` has no declaration statement"
  | stageInputDeclaration value =>
    "stage input `" ++ value ++ "` is declared globally and has no declaration statement"
  | duplicateBlockMember block member =>
    "uniform block `" ++ block ++ "` declares member `" ++ member ++ "` twice"
  | missingUpdateRoutine block => "uniform block `" ++ block ++ "` has no update routine"
  | duplicateBinding name stage =>
    "binding `" ++ name ++ "` is registered twice in the " ++ stage.label ++ " stage"
  | unsupportedPushConstant name ty =>
    "push constant `" ++ name ++ "` has unsupported type " ++ ty.glsl
  | invalidSwizzle channels => "invalid swizzle `" ++ channels ++ "`"
  | unconnectedInput input => "input `" ++ input ++ "` is not connected"
  | updateContract block _ =>
    "update routine of uniform block `" ++ block ++ "` violates its layout"
  | invalidPhase stage found expected =>
    stage.label ++ " stage graph is " ++ found ++ ", expected " ++ expected
  | inNode node stage _ => stage.label ++ " stage, node `" ++ node ++ "`"

/-- The text of an error followed by the texts of its causes. -/
def message : GraphError → String
  | inNode node stage cause => (inNode node stage cause).text ++ ": " ++ cause.message
  | updateContract block cause => (updateContract block cause).text ++ ": " ++ cause.message
  | error => error.text

/-- Name of the kind of error. -/
def kind : GraphError → String
  | stageNotAllowed .. => "StageNotAllowed"
  | missingDependency .. => "MissingDependency"
  | crossStageDependency .. => "CrossStageDependency"
  | dependencyCycle .. => "DependencyCycle"
  | duplicateInterfaceSlot .. => "DuplicateInterfaceSlot"
  | duplicateInterfaceName .. => "DuplicateInterfaceName"
  | interfaceMismatch .. => "InterfaceMismatch"
  | unmatchedInterfaceInput .. => "UnmatchedInterfaceInput"
  | channelNotAllocated .. => "ChannelNotAllocated"
  | channelAllocatedTwice .. => "ChannelAllocatedTwice"
  | invalidCoercion .. => "InvalidCoercion"
  | readBeforeDeclaration .. => "ReadBeforeDeclaration"
  | constantDeclaration .. => "ConstantDeclaration"
  | stageInputDeclaration .. => "StageInputDeclaration"
  | duplicateBlockMember .. => "DuplicateBlockMember"
  | missingUpdateRoutine .. => "MissingUpdateRoutine"
  | duplicateBinding .. => "DuplicateBinding"
  | unsupportedPushConstant .. => "UnsupportedPushConstant"
  | invalidSwizzle .. => "InvalidSwizzle"
  | unconnectedInput .. => "UnconnectedInput"
  | updateContract .. => "UpdateContract"
  | invalidPhase .. => "InvalidPhase"
  | inNode .. => "Node"

/-- The innermost error under wrappers of nodes. -/
def root : GraphError → GraphError
  | inNode _ _ cause => cause.root
  | error => error

/-- The error as it leaves a node: wrapped with the node's name and stage, unless it says already
where it belongs. -/
def leaveNode (node : String) (stage : Stage) : GraphError → GraphError
  | error@(stageNotAllowed ..) => error
  | error@(inNode ..) => error
  | error => inNode node stage.mask error

end GraphError

/-- Why a node cannot be ordered or emitted. -/
inductive NodeFailure where
  /-- It breaks a rule. -/
  | refused (error : GraphError)
  /-- It refers to an input that it does not have. -/
  | unknownInput
deriving DecidableEq

/-- The failure as it leaves a node. -/
def NodeFailure.leaveNode (node : String) (stage : Stage) : NodeFailure → NodeFailure
  | refused error => refused (error.leaveNode node stage)
  | unknownInput => unknownInput

end ShaderWeave
