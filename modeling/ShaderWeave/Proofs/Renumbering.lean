import Mathlib.Logic.Function.Basic
import ShaderWeave.Numbering

/-!
# Nodes under Other Graph Numbers

Graphs that get other numbers, no two of one stage the same one, change the owners in handles and
nothing else of a node. New numbers for new numbers are new numbers, and the old ones change nothing. A
node is wired alike, has the same outputs and depends on the same nodes, apart from the numbers, and it
registers the same things, because registering looks at values only.

## Main definitions

* `Numbering.Faithful`: no two graphs of a stage get the same number.
* `Numbering.comp`, `Numbering.unchanged`: new numbers for new numbers, and the numbers as they are.

## Main results

* `DesignNode.renumber_renumber`, `Design.renumber_unchanged`: numbers one after another, and the numbers
  as they are.
* `LibraryNode.setup_renumber`, `LibraryNode.inputs_renumber`, `LibraryNode.outputs_renumber`,
  `Script.dependencies?_renumber`: what a node is under new numbers.
-/

namespace ShaderWeave

/-! ## Numbers One after Another -/

/-- No two graphs of a stage get the same number. -/
def Numbering.Faithful (numbering : Numbering) : Prop :=
  ∀ stage, Function.Injective (numbering stage)

theorem NodeId.renumber_injective {numbering : Numbering} (h : numbering.Faithful) :
    Function.Injective (NodeId.renumber numbering) := by
  rintro ⟨stage, graph, index⟩ ⟨stage', graph', index'⟩ heq
  simp only [NodeId.renumber, NodeId.mk.injEq] at heq
  obtain ⟨rfl, hgraph, rfl⟩ := heq
  rw [h stage hgraph]

theorem Handle.renumber_injective {numbering : Numbering} (h : numbering.Faithful) :
    Function.Injective (Handle.renumber numbering) := by
  rintro ⟨value, owner, serial⟩ ⟨value', owner', serial'⟩ heq
  simp only [Handle.renumber, Handle.mk.injEq] at heq
  obtain ⟨rfl, howner, rfl⟩ := heq
  rw [Option.map_injective (NodeId.renumber_injective h) howner]

/-- The numbers that come of new numbers for new numbers. -/
def Numbering.comp (second first : Numbering) : Numbering :=
  fun stage graph => second stage (first stage graph)

section Composition

variable (second first : Numbering)

@[simp]
theorem NodeId.renumber_renumber (id : NodeId) :
    (id.renumber first).renumber second = id.renumber (second.comp first) := rfl

@[simp]
theorem Handle.renumber_renumber (h : Handle) :
    (h.renumber first).renumber second = h.renumber (second.comp first) := by
  simp [Handle.renumber, Function.comp_def]

@[simp]
theorem OcclusionUniforms.renumber_renumber (uniforms : OcclusionUniforms) :
    (uniforms.renumber first).renumber second = uniforms.renumber (second.comp first) := rfl

@[simp]
theorem LibraryNode.renumber_renumber (node : LibraryNode) :
    (node.renumber first).renumber second = node.renumber (second.comp first) := by
  cases node with
  | endpoint node =>
    cases node <;> simp [LibraryNode.renumber, EndpointNode.renumber]
  | arithmetic node =>
    cases node <;> simp [LibraryNode.renumber, ArithmeticNode.renumber]
  | camera => rfl
  | texture node =>
    cases node <;> simp [LibraryNode.renumber, TextureNode.renumber]
  | light node =>
    cases node <;> simp [LibraryNode.renumber, LightNode.renumber, Function.comp_def]
  | occlusion node =>
    cases node <;> simp [LibraryNode.renumber, OcclusionNode.renumber]

@[simp]
theorem DesignNode.renumber_renumber (node : DesignNode) :
    (node.renumber first).renumber second = node.renumber (second.comp first) := by
  cases node with
  | library node => simp [DesignNode.renumber]
  | scripted script => simp [DesignNode.renumber, Script.renumber, Function.comp_def]

end Composition

section Unchanged

/-- The numbers as they are. -/
def Numbering.unchanged : Numbering := fun _ graph => graph

theorem Numbering.faithful_unchanged : Numbering.unchanged.Faithful :=
  fun _ => Function.injective_id

@[simp]
theorem NodeId.renumber_unchanged (id : NodeId) : id.renumber .unchanged = id := rfl

@[simp]
theorem Handle.renumber_unchanged (h : Handle) : h.renumber .unchanged = h := by
  obtain ⟨value, owner, serial⟩ := h
  cases owner <;> rfl

@[simp]
theorem OcclusionUniforms.renumber_unchanged (uniforms : OcclusionUniforms) :
    uniforms.renumber .unchanged = uniforms := rfl

@[simp]
theorem LibraryNode.renumber_unchanged (node : LibraryNode) : node.renumber .unchanged = node := by
  cases node with
  | endpoint node =>
    cases node <;> simp [LibraryNode.renumber, EndpointNode.renumber]
  | arithmetic node =>
    cases node <;> simp [LibraryNode.renumber, ArithmeticNode.renumber]
  | camera => rfl
  | texture node =>
    cases node <;> simp [LibraryNode.renumber, TextureNode.renumber]
  | light node =>
    cases node <;> simp [LibraryNode.renumber, LightNode.renumber]
  | occlusion node =>
    cases node <;> simp [LibraryNode.renumber, OcclusionNode.renumber]

@[simp]
theorem DesignNode.renumber_unchanged (node : DesignNode) : node.renumber .unchanged = node := by
  cases node with
  | library node => simp [DesignNode.renumber]
  | scripted script => simp [DesignNode.renumber, Script.renumber]

@[simp]
theorem Design.renumber_unchanged (d : Design) : d.renumber .unchanged = d := by
  obtain ⟨name, graph, fragmentGraph, vertex, fragment⟩ := d
  simp [Design.renumber, Numbering.unchanged, DesignNode.renumber_unchanged]

end Unchanged

/-! ## Wiring, Names and Registering -/

section Nodes

variable (numbering : Numbering)

/-- A handle that is wired gets the new numbers with the node. -/
theorem LibraryNode.wire_renumber (socket : Socket) (h : Handle) (node : LibraryNode) :
    (node.renumber numbering).wire socket (h.renumber numbering) =
      (node.wire socket h).map (·.renumber numbering) := by
  cases node with
  | endpoint node => cases node <;> cases socket <;> rfl
  | arithmetic node => cases node <;> cases socket <;> rfl
  | camera => rfl
  | texture node => cases node <;> cases socket <;> rfl
  | light node => cases node <;> cases socket <;> rfl
  | occlusion node => cases node <;> cases socket <;> rfl

theorem DesignNode.wire_renumber (socket : Socket) (h : Handle) (node : DesignNode) :
    (node.renumber numbering).wire socket (h.renumber numbering) =
      (node.wire socket h).map (·.renumber numbering) := by
  cases node with
  | library node =>
    simp [DesignNode.wire, DesignNode.renumber, LibraryNode.wire_renumber, Function.comp_def]
  | scripted script =>
    -- The inputs of a script are a list, and only a number names one of them.
    cases socket with
    | numbered i =>
      simp only [DesignNode.wire, DesignNode.renumber, Script.wire, Script.renumber,
        List.length_map, Option.map_map]
      split
      · simp [List.map_set]
      · rfl
    | _ => rfl

/-- What a node registers does not depend on the numbers. -/
theorem LibraryNode.setup_renumber (node : LibraryNode) :
    (node.renumber numbering).setup = node.setup := by
  cases node with
  | endpoint node => cases node <;> rfl
  | arithmetic node => cases node <;> rfl
  | camera => rfl
  | texture node => cases node <;> rfl
  | light node =>
    cases node with
    | shadowVertex max channel position matrix => cases matrix <;> rfl
    | _ => rfl
  | occlusion node => cases node <;> rfl

theorem LibraryNode.inputs_renumber (node : LibraryNode) :
    (node.renumber numbering).inputs = node.inputs.map (·.renumber numbering) := by
  cases node with
  | endpoint node => cases node <;> rfl
  | arithmetic node => cases node <;> rfl
  | camera => rfl
  | texture node => cases node <;> rfl
  | light node =>
    cases node with
    | shadowVertex max channel position matrix => cases matrix <;> rfl
    | _ => rfl
  | occlusion node => cases node <;> rfl

/-- The outputs of a node get the new numbers with the node. -/
theorem LibraryNode.outputs_renumber (self : NodeId) (node : LibraryNode) :
    (node.renumber numbering).outputs (self.renumber numbering) =
      (node.outputs self).map fun output => (output.1, output.2.renumber numbering) := by
  cases node with
  | endpoint node => cases node <;> rfl
  | arithmetic node => cases node <;> rfl
  | camera => rfl
  | texture node => cases node <;> rfl
  | light node => cases node <;> rfl
  | occlusion node =>
    cases node with
    | uniforms inverse settings => cases inverse <;> rfl
    | _ => rfl

theorem Handle.owners_renumber (handles : List Handle) :
    Handle.owners (handles.map (·.renumber numbering)) =
      (Handle.owners handles).map (·.renumber numbering) := by
  rw [Handle.owners, Handle.owners, List.filterMap_map, List.map_filterMap]
  rfl

/-- A script reports an input that it does not have under all numbers or none. -/
theorem Script.dependencies?_renumber (script : Script) :
    (script.renumber numbering).dependencies? =
      script.dependencies?.map (·.map (·.renumber numbering)) := by
  -- Whether all positions are found depends on how many inputs there are, and that stays.
  have hreported (positions : List Nat) :
      positions.mapM ((script.inputs.map (·.renumber numbering))[·]?) =
        (positions.mapM (script.inputs[·]?)).map (·.map (·.renumber numbering)) := by
    induction positions with
    | nil => rfl
    | cons position rest ih =>
      rw [List.mapM_cons, List.mapM_cons, ih, List.getElem?_map]
      cases script.inputs[position]? with
      | none => rfl
      | some input => cases rest.mapM (script.inputs[·]?) <;> rfl
  simp only [Script.dependencies?, Script.renumber, hreported]
  cases script.reported.mapM (script.inputs[·]?) with
  | none => rfl
  | some reported => simp [Handle.owners_renumber]

end Nodes

end ShaderWeave
