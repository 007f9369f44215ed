import ShaderWeave.Proofs.Resources

/-!
# Textures and Helper Routines in the Code of a Stage

Which textures a library node samples, and which helper routines it adds, depends on the target that it
writes for, but not on how its other requests are answered. `Emit.Leaves` says so of a routine, with one
rule for each request; a whole stage leaves what its nodes leave, in generation order.

## Main definitions

* `TextureOperand`: a texture, or an element of a texture array, where it is sampled.
* `LibraryNode.operands`, `LibraryNode.helpers`: what a node of the library samples and adds.
* `Emit.Leaves place emit post`: if the routine ends with a value, `post` holds of it, of the operands in
  what it writes at a place, and of the helper routines that it asks for.

## Main results

* `run_leaves`: running such a routine leaves just that behind.
* `operands_of_compile`, `helpers_of_compile`: what the code of a compiled stage samples and contains.
-/

namespace ShaderWeave

/-- A texture, or an element of a texture array, where it is sampled. -/
structure TextureOperand where
  /-- The target that it is written for. -/
  target : Target
  /-- Name of the texture. -/
  name : String
  /-- The element. -/
  index : Option UInt32
deriving DecidableEq

/-- The operand as it is written. -/
def TextureOperand.text (operand : TextureOperand) : String :=
  operand.target.textureOperand operand.name operand.index

/-- The texture that a piece samples. -/
def Piece.operand? : Piece → Option TextureOperand
  | texture target name index => some { target, name, index }
  | _ => none

/-- The textures that a fragment samples, in order. -/
def Code.operands (code : Code) : List TextureOperand :=
  code.filterMap Piece.operand?

/-- The textures that fragments sample, in order. -/
def operands (statements : List Code) : List TextureOperand :=
  statements.flatMap Code.operands

namespace Code

@[simp]
theorem operands_nil : operands [] = [] := rfl

@[simp]
theorem operands_cons (piece : Piece) (code : Code) :
    operands (piece :: code) = piece.operand?.toList ++ operands code := by
  unfold operands
  rw [List.filterMap_cons]
  cases piece.operand? <;> rfl

@[simp]
theorem operands_append (left right : Code) :
    operands (left ++ right) = operands left ++ operands right :=
  List.filterMap_append

@[simp]
theorem operands_block (indent : Nat) (rows : List Code) :
    operands (block indent rows) = rows.flatMap operands := by
  unfold block
  rw [operands_cons]
  induction rows with
  | nil => rfl
  | cons row rows ih =>
    simp only [Piece.operand?, Option.toList_none, List.nil_append, List.cons_append] at ih
    simp [Piece.operand?, ih]

end Code

/-! ## What Routines Leave Behind -/

namespace Emit

variable {α β : Type}

/-- Whatever else it is answered, a routine that writes for a place and ends with a value satisfies `post`
of the value, the operands in what it has written, and the helper routines that it has asked for. -/
def Leaves (place : CodePlace) :
    Emit α → (α → List TextureOperand → List (String × String) → Prop) → Prop
  | .done value, post => post value [] []
  | .fail _, _ => True
  | .call .place next, post => Leaves place (next place) post
  | .call (.append code) next, post =>
    Leaves place (next ()) fun value operands helpers => post value (code.operands ++ operands) helpers
  | .call (.helper name body) next, post =>
    ∀ answer, Leaves place (next answer) fun value operands helpers =>
      post value operands ((name, body) :: helpers)
  | .call (.declare _) next, post => ∀ answer, Leaves place (next answer) post
  | .call (.read ..) next, post => ∀ answer, Leaves place (next answer) post
  | .call (.note _) next, post => Leaves place (next ()) post

end Emit

namespace Leaves

open Emit (Leaves)

variable {α β : Type} {place : CodePlace}
  {post : β → List TextureOperand → List (String × String) → Prop}

theorem bind {first : Emit α} {next : α → Emit β}
    {middle : α → List TextureOperand → List (String × String) → Prop}
    (hfirst : Leaves place first middle)
    (hnext : ∀ value operands helpers, middle value operands helpers →
      Leaves place (next value) fun result more others =>
        post result (operands ++ more) (helpers ++ others)) :
    Leaves place (first >>= next) post := by
  -- Both conditions vary: each request moves what it leaves from the routine into them.
  induction first generalizing post middle with
  | done value => exact hnext value [] [] hfirst
  | fail failure => trivial
  | call request rest ih =>
    cases request with
    | place => exact ih place hfirst hnext
    | append code =>
      refine ih () hfirst fun value operands helpers hmiddle => ?_
      simpa only [List.append_assoc] using hnext value (code.operands ++ operands) helpers hmiddle
    | helper name body =>
      intro answer
      exact ih answer (hfirst answer) fun value operands helpers hmiddle =>
        hnext value operands ((name, body) :: helpers) hmiddle
    | declare handle => exact fun answer => ih answer (hfirst answer) hnext
    | read handle ty widening => exact fun answer => ih answer (hfirst answer) hnext
    | note note => exact ih () hfirst hnext

theorem imp {emit : Emit β} {weaker : β → List TextureOperand → List (String × String) → Prop}
    (h : Leaves place emit post)
    (himp : ∀ value operands helpers, post value operands helpers → weaker value operands helpers) :
    Leaves place emit weaker := by
  induction emit generalizing post weaker with
  | done value => exact himp _ _ _ h
  | fail failure => trivial
  | call request next ih =>
    cases request with
    | place => exact ih place h himp
    | append code => exact ih () h fun value operands helpers => himp _ _ _
    | helper name body =>
      exact fun answer => ih answer (h answer) fun value operands helpers => himp _ _ _
    | declare handle => exact fun answer => ih answer (h answer) himp
    | read handle ty widening => exact fun answer => ih answer (h answer) himp
    | note note => exact ih () h himp

/-- A read leaves nothing, and gives a piece that samples nothing. -/
theorem read {handle : Handle} {ty : ValueType} {widening : Widening} {next : Piece → Emit β}
    (hnext : ∀ expr, Leaves place (next (.read handle expr)) post) :
    Leaves place (Emit.read handle ty widening >>= next) post := by
  intro answer
  cases answer with
  | ok expr => exact hnext expr
  | error error => trivial

/-- Nor does a declaration. -/
theorem declare {handle : Handle} {next : Piece → Emit β}
    (hnext : Leaves place (next (.declaration handle)) post) :
    Leaves place (Emit.declare handle >>= next) post := by
  intro answer
  cases answer with
  | ok value => exact hnext
  | error error => trivial

/-- Nor does a sample that is only composed; the code that it gives samples the texture. -/
theorem sample {texture : String} {index : Option UInt32} {coordinate : Code} {next : Code → Emit β}
    (hnext : Leaves place (next (Code.sample place.target texture index coordinate)) post) :
    Leaves place (Emit.sample texture index coordinate >>= next) post :=
  hnext

theorem textureSize {texture : String} {index : Option UInt32} {lod : String} {next : Code → Emit β}
    (hnext : Leaves place (next (Code.textureSize place.target texture index lod)) post) :
    Leaves place (Emit.textureSize texture index lod >>= next) post :=
  hnext

theorem append {code : Code} {next : Unit → Emit β}
    (hnext : Leaves place (next ()) fun result operands helpers =>
      post result (code.operands ++ operands) helpers) :
    Leaves place (Emit.append code >>= next) post :=
  hnext

theorem append_last {code : Code}
    {post : Unit → List TextureOperand → List (String × String) → Prop}
    (hpost : post () code.operands []) : Leaves place (Emit.append code) post := by
  rw [← List.append_nil code.operands] at hpost
  exact hpost

theorem helper {name body : String} {next : Unit → Emit β}
    (hnext : Leaves place (next ()) fun result operands helpers =>
      post result operands ((name, body) :: helpers)) :
    Leaves place (Emit.helper name body >>= next) post :=
  fun _ => hnext

theorem helper_last {name body : String}
    {post : Unit → List TextureOperand → List (String × String) → Prop}
    (hpost : post () [] [(name, body)]) : Leaves place (Emit.helper name body) post :=
  fun _ => hpost

end Leaves

/-- The operands of a routine that runs well are appended to those of the stage, and the helper
routines are among those of the stage and those that it asked for. -/
theorem run_leaves {place : CodePlace} {emit : Emit Unit} {state state' : EmitState}
    {post : Unit → List TextureOperand → List (String × String) → Prop} 
    (hleaves : emit.Leaves place post) (h : emit.run state = .ok () state')
    (hplace : state.place = place) :
    ∃ sampled added, post () sampled added ∧
      operands state'.code.main = operands state.code.main ++ sampled ∧
      ∀ helper ∈ state'.code.helpers, helper ∈ state.code.helpers ∨ helper ∈ added := by
  induction emit generalizing state post with
  | done value =>
    cases h
    exact ⟨[], [], hleaves, (List.append_nil _).symm, fun _ => .inl⟩
  | fail failure => cases h
  | call request next ih =>
    cases request with
    | place =>
      subst hplace
      exact ih state.place hleaves h rfl
    | append code =>
      obtain ⟨sampled, added, hpost, hoperands, hhelpers⟩ := ih () hleaves h hplace
      refine ⟨code.operands ++ sampled, added, hpost, ?_, hhelpers⟩
      rw [hoperands, StageCode.main_append, operands, List.flatMap_append, List.append_assoc]
      simp [operands]
    | helper name body =>
      obtain ⟨sampled, added, hpost, hoperands, hhelpers⟩ := ih _ (hleaves _) h hplace
      -- The routine is added last, or one of its name is there and nothing is added.
      refine ⟨sampled, (name, body) :: added, hpost, ?_, fun helper hmem => ?_⟩
      · rw [hoperands]
        simp only [StageCode.addHelper]
        split <;> rfl
      · rcases hhelpers helper hmem with hbefore | hadded
        · simp only [StageCode.addHelper] at hbefore
          split at hbefore
          · exact .inl hbefore
          · rcases List.mem_append.1 hbefore with hbefore | hnew
            · exact .inl hbefore
            · exact .inr (List.mem_cons.2 (.inl (List.mem_singleton.1 hnew)))
        · exact .inr (List.mem_cons_of_mem _ hadded)
    | declare handle =>
      have hrun := run_declare.symm.trans h
      split at hrun
      · obtain ⟨sampled, added, hpost, hoperands, hhelpers⟩ := ih (.ok ()) (hleaves (.ok ())) hrun hplace
        exact ⟨sampled, added, hpost, hoperands, hhelpers⟩
      · rename_i error _
        exact ih (.error error) (hleaves (.error error)) hrun hplace
    | read handle ty widening => exact ih _ (hleaves _) h hplace
    | note note =>
      have hrun : Emit.run (next ()) { state with notes := state.notes ++ [note] } = .ok () state' := h
      obtain ⟨sampled, added, hpost, hoperands, hhelpers⟩ := ih () hleaves hrun hplace
      exact ⟨sampled, added, hpost, hoperands, hhelpers⟩

/-! ## The Library -/

/-- The textures that a texture node samples. -/
def TextureNode.operands (target : Target) : TextureNode → List TextureOperand
  | binding .. => []
  | sample _ texture _ => [{ target, name := texture.name, index := none }]

/-- The samples of one element of an array of depth textures: one at each offset. -/
def Shadow.operandsOf (target : Target) (textures : Handle) (light : Nat) : List TextureOperand :=
  offsets.map fun _ => { target, name := textures.name, index := some light.toUInt32 }

/-- The textures that a light node samples: with shadows, the size of the first depth texture and then
the texture of each light. -/
def LightNode.operands (target : Target) : LightNode → List TextureOperand
  | shadowFragment max _ depthTextures =>
    { target, name := depthTextures.name, index := some 0 }
      :: (List.range' 0 max.toNat).flatMap (Shadow.operandsOf target depthTextures)
  | _ => []

/-- The textures that a node of ambient occlusion samples. -/
def OcclusionNode.operands (target : Target) : OcclusionNode → List TextureOperand
  | occlusion _ _ noiseTex depthTex _ _ _ =>
    [{ target, name := noiseTex.name, index := none }, { target, name := depthTex.name, index := none }]
  | _ => []

/-- The textures that a node of the library samples, written for a target. -/
def LibraryNode.operands (target : Target) : LibraryNode → List TextureOperand
  | endpoint _ => []
  | arithmetic _ => []
  | camera => []
  | texture node => node.operands target
  | light node => node.operands target
  | occlusion node => node.operands target

/-- What a node samples is written for the target. -/
theorem target_of_mem_operands {target : Target} {node : LibraryNode} {operand : TextureOperand}
    (h : operand ∈ node.operands target) : operand.target = target := by
  cases node with
  | endpoint node | arithmetic node => cases h
  | camera => cases h
  | texture node =>
    cases node with
    | binding name arrayLen => cases h
    | sample premultiply texture texCoord =>
      obtain rfl := List.mem_singleton.1 h
      rfl
  | light node =>
    cases node with
    | lights max | shadowVertex max channel position matrix => cases h
    | lambert calls inner lightCount fragPos normal albedo => cases h
    | shadowFragment max channel depthTextures =>
      rcases List.mem_cons.1 h with rfl | h
      · rfl
      · obtain ⟨light, -, h⟩ := List.mem_flatMap.1 h
        obtain ⟨offset, -, rfl⟩ := List.mem_map.1 h
        rfl
  | occlusion node =>
    cases node with
    | uniforms inverse settings | unproject u depth screenPos => cases h
    | occlusion u component noiseTex depthTex screenPos origin normal =>
      rcases List.mem_pair.1 h with rfl | rfl <;> rfl

/-- The helper routines that a texture node asks for. -/
def TextureNode.helpers : TextureNode → List (String × String)
  | sample true _ _ => [("premultiplyAlpha", premultiplyAlpha)]
  | _ => []

/-- The helper routines that light nodes share. -/
def LightArray.routines : List (String × String) :=
  [(fragToLightName, fragToLightBody), (radianceName, radianceBody)]

/-- The helper routines that a light node asks for. -/
def LightNode.helpers : LightNode → List (String × String)
  | lights _ | shadowFragment .. => LightArray.routines
  | _ => []

/-- The helper routines that a node of the library asks for. -/
def LibraryNode.helpers : LibraryNode → List (String × String)
  | texture node => node.helpers
  | light node => node.helpers
  | _ => []

/-- A routine leaves exactly these operands and helper routines. -/
def Emit.LeavesExactly (place : CodePlace) (emit : Emit Unit) (sampled : List TextureOperand)
    (added : List (String × String)) : Prop :=
  emit.Leaves place fun _ operands helpers => operands = sampled ∧ helpers = added

variable {place : CodePlace}

theorem EndpointNode.assignElements_leaves (name : String) (input : Handle) (count start : Nat) :
    (assignElements name input count start).LeavesExactly place [] [] := by
  induction count generalizing start with
  | zero => exact ⟨rfl, rfl⟩
  | succ count ih =>
    refine Leaves.append (Leaves.imp (ih (start + 1)) ?_)
    rintro _ _ _ ⟨rfl, rfl⟩
    simp [Piece.operand?]

theorem EndpointNode.emit_leaves (node : EndpointNode) : node.emit.LeavesExactly place [] [] := by
  cases node with
  | meshAttribute a => exact ⟨rfl, rfl⟩
  | pushConstant constant => exact ⟨rfl, rfl⟩
  | positionOutput input =>
    exact Leaves.read fun expr => Leaves.append_last (by simp [Piece.operand?])
  | colorOutput target input =>
    exact Leaves.read fun expr => Leaves.append_last (by simp [Piece.operand?])
  | producer channel input =>
    simp only [emit]
    cases channel.var.arrayLen with
    | some len => exact assignElements_leaves channel.var.name input len.toNat 0
    | none => exact Leaves.read fun expr => Leaves.append_last (by simp [Piece.operand?])
  | consumer channel expected => exact ⟨rfl, rfl⟩

theorem ArithmeticNode.product_leaves (kind : TransformKind) (input matrix : Handle)
    (factor : Expr) :
    (product kind input (.read matrix factor)).Leaves place fun code operands helpers =>
      code.operands = [] ∧ operands = [] ∧ helpers = [] := by
  cases kind with
  | point | direction | clip =>
    exact Leaves.read fun expr => ⟨by simp [Piece.operand?], rfl, rfl⟩

theorem ArithmeticNode.emit_leaves (id : NodeId) (node : ArithmeticNode) :
    (node.emit id).LeavesExactly place [] [] := by
  cases node with
  | screenQuad texCoord =>
    exact Leaves.declare (Leaves.read fun coordinate =>
      Leaves.append_last (by simp [Piece.operand?]))
  | split channels kind input =>
    exact Leaves.declare (Leaves.append_last (by simp [Piece.operand?]))
  | combine xyz w =>
    exact Leaves.declare (Leaves.read fun first => Leaves.read fun last =>
      Leaves.append_last (by simp [Piece.operand?]))
  | math op ty left right =>
    exact Leaves.declare (Leaves.read fun leftOperand => Leaves.read fun rightOperand =>
      Leaves.append_last (by simp [Piece.operand?]))
  | normalize input =>
    exact Leaves.declare (Leaves.read fun vector => Leaves.append_last (by simp [Piece.operand?]))
  | gamma input exponent =>
    exact Leaves.read fun color => Leaves.declare (Leaves.read fun root =>
      Leaves.append_last (by simp [Piece.operand?]))
  | transform kind input matrix =>
    refine Leaves.read fun factor => Leaves.bind (product_leaves kind input matrix factor) ?_
    rintro code _ _ ⟨hcode, rfl, rfl⟩
    exact Leaves.declare (Leaves.append_last (by simp [Piece.operand?, hcode]))

theorem TextureNode.emit_leaves (id : NodeId) (node : TextureNode) :
    (node.emit id).LeavesExactly place (node.operands place.target) node.helpers := by
  cases node with
  | binding name arrayLen => exact ⟨rfl, rfl⟩
  | sample premultiply texture texCoord =>
    refine Leaves.read fun coordinate => Leaves.sample ?_
    cases premultiply with
    | true =>
      refine Leaves.helper (Leaves.declare (Leaves.append_last ?_))
      simp [Piece.operand?, Code.sample, Code.sampleOperand, operands, helpers]
    | false =>
      refine Leaves.declare (Leaves.append_last ?_)
      simp [Piece.operand?, Code.sample, Code.sampleOperand, operands, helpers]

namespace Shadow

theorem projectEach_leaves {matrix position : Handle} {factor point : Expr} (target : String)
    (count start : Nat) :
    (projectEach target (.read matrix factor) (.read position point) count start).LeavesExactly place
      [] [] := by
  induction count generalizing start with
  | zero => exact ⟨rfl, rfl⟩
  | succ count ih =>
    refine Leaves.append (Leaves.imp (ih (start + 1)) ?_)
    rintro _ _ _ ⟨rfl, rfl⟩
    simp [Piece.operand?]

/-- The size of the shadows is that of the first depth texture. -/
theorem declareFactors_leaves (max : UInt32) (textures : Handle) :
    (declareFactors max textures).LeavesExactly place
      [{ target := place.target, name := textures.name, index := some 0 }] [] := by
  refine Leaves.textureSize (Leaves.append_last ⟨?_, rfl⟩)
  simp [Piece.operand?, Code.textureSize, Code.operandSize]

theorem accumulate_leaves (textures : Handle) (light : Nat) (places : List Vec2) :
    (accumulate textures light places).LeavesExactly place
      (places.map fun _ =>
        { target := place.target, name := textures.name, index := some light.toUInt32 }) [] := by
  induction places with
  | nil => exact ⟨rfl, rfl⟩
  | cons place rest ih =>
    refine Leaves.sample (Leaves.append (Leaves.imp ih ?_))
    rintro _ _ _ ⟨rfl, rfl⟩
    simp [Piece.operand?, Code.sample, Code.sampleOperand]

theorem factor_leaves (textures : Handle) (light : Nat) :
    (factor textures light).LeavesExactly place (operandsOf place.target textures light) [] := by
  refine Leaves.append (Leaves.bind (accumulate_leaves textures light offsets) ?_)
  rintro _ _ _ ⟨rfl, rfl⟩
  exact Leaves.append_last (by simp [Piece.operand?, operandsOf])

theorem factorEach_leaves (textures : Handle) (count start : Nat) :
    (factorEach textures count start).LeavesExactly place
      ((List.range' start count).flatMap (operandsOf place.target textures)) [] := by
  induction count generalizing start with
  | zero => exact ⟨rfl, rfl⟩
  | succ count ih =>
    -- The first light, and then the others from the next one on.
    refine Leaves.bind (factor_leaves textures start) ?_
    rintro _ _ _ ⟨rfl, rfl⟩
    refine Leaves.imp (ih (start + 1)) ?_
    rintro _ _ _ ⟨rfl, rfl⟩
    rw [List.range'_succ, List.flatMap_cons]
    exact ⟨rfl, rfl⟩

end Shadow

theorem LightArray.addRoutines_leaves : addRoutines.LeavesExactly place [] routines :=
  Leaves.helper (Leaves.helper_last ⟨rfl, rfl⟩)

theorem LightNode.emit_leaves (id : NodeId) (node : LightNode) :
    (node.emit id).LeavesExactly place (node.operands place.target) node.helpers := by
  cases node with
  | lights max => exact LightArray.addRoutines_leaves
  | shadowVertex max channel position matrix =>
    cases matrix with
    | none => trivial
    | some matrix =>
      exact Leaves.read fun factor => Leaves.read fun point =>
        Shadow.projectEach_leaves channel.var.name max.toNat 0
  | shadowFragment max channel depthTextures =>
    refine Leaves.bind LightArray.addRoutines_leaves ?_
    rintro _ _ _ ⟨rfl, rfl⟩
    refine Leaves.bind (Shadow.declareFactors_leaves max depthTextures) ?_
    rintro _ _ _ ⟨rfl, rfl⟩
    refine Leaves.imp (Shadow.factorEach_leaves depthTextures max.toNat 0) ?_
    rintro _ _ _ ⟨rfl, rfl⟩
    exact ⟨rfl, List.append_nil _⟩
  | lambert calls inner lightCount fragPos normal albedo =>
    refine Leaves.read fun normal => Leaves.read fun albedo => Leaves.read fun count =>
      Leaves.read fun position => Leaves.declare (Leaves.append_last ?_)
    cases hshadowed : calls.shadowed with
    | true | false =>
      simp [Piece.operand?, LightCalls.fragToLight, LightCalls.radiance, hshadowed, operands,
        helpers]

theorem OcclusionNode.emit_leaves (id : NodeId) (node : OcclusionNode) :
    (node.emit id).LeavesExactly place (node.operands place.target) [] := by
  cases node with
  | uniforms inverse settings => exact ⟨rfl, rfl⟩
  | unproject u depth screenPos =>
    refine Leaves.read fun screen => ?_
    split
    · trivial
    · exact Leaves.declare (Leaves.read fun depth =>
        Leaves.append_last (by simp [Piece.operand?, operands]))
  | occlusion u component noiseTex depthTex screenPos origin normal =>
    refine Leaves.read fun origin => Leaves.read fun normal =>
      Leaves.declare (Leaves.read fun screen =>
        Leaves.sample (Leaves.sample (Leaves.append_last ⟨?_, rfl⟩)))
    simp only [Code.operands_block, List.flatMap_append, List.flatMap_cons, List.flatMap_nil]
    simp [Piece.operand?, Code.sample, Code.sampleOperand, operands]

theorem LibraryNode.emit_leaves (id : NodeId) (node : LibraryNode) :
    (node.emit id).LeavesExactly place (node.operands place.target) node.helpers := by
  cases node with
  | endpoint node => exact node.emit_leaves
  | arithmetic node => exact node.emit_leaves id
  | camera => exact ⟨rfl, rfl⟩
  | texture node => exact node.emit_leaves id
  | light node => exact node.emit_leaves id
  | occlusion node => exact node.emit_leaves id

/-! ## Emitting Stages -/

/-- A compiled stage was emitted from empty code. -/
theorem exists_emitSteps_of_compile {m : Model} {input : CompileInput} {shader : Shader}
    (h : (m.compile input).outcome = .ok shader) (stage : Stage) :
    (m.graph stage).schedule = .ok (m.order stage) ∧
      ∃ p finish, Performed m input p (m.emitSteps stage) finish ∧
        (p.program stage).code = {} ∧ (finish.program stage).code = (shader.program stage).code := by
  obtain ⟨finish, hperformed, rfl⟩ := performed_of_compile h
  refine ⟨schedule_of_agenda hperformed stage, ?_⟩
  obtain ⟨declared, hdeclare, hemit⟩ := performed_append_iff.1 hperformed
  obtain ⟨-, -, -, hvertexCode, hfragmentCode⟩ := performed_declareSteps hdeclare
  obtain ⟨emitted, hemitVertex, hemitFragment⟩ := performed_append_iff.1 hemit
  cases stage with
  | vertex =>
    -- The emissions of the fragment stage leave the code of the vertex stage alone.
    refine ⟨declared, emitted, hemitVertex, hvertexCode, ?_⟩
    obtain ⟨code, declared', rfl⟩ := performed_emits hemitFragment
    rfl
  | fragment =>
    refine ⟨emitted, finish, hemitFragment, ?_, rfl⟩
    obtain ⟨code, declared', rfl⟩ := performed_emits hemitVertex
    exact hfragmentCode

section Library

variable {name : String} {graph : Stage → Nat} {nodes : Stage → List LibraryNode} {stage : Stage}
  {input : CompileInput}

/-- The textures that the node at a position samples, written for a target. -/
def operandsAt (target : Target) (nodes : Stage → List LibraryNode) (stage : Stage) (index : Nat) :
    List TextureOperand :=
  ((nodes stage)[index]?.map (·.operands target)).getD []

theorem emitOutcome_leaves {state : EmitState} {code' : StageCode} {declared' : List Handle} {index : Nat}
    {node : LibraryNode} (hnode : (nodes stage)[index]? = some node)
    (h : ((libraryModel name graph nodes).graph stage).emitOutcome state index =
      .ok (code', declared')) :
    operands code'.main =
        operands state.code.main ++ operandsAt state.place.target nodes stage index ∧
      ∀ helper ∈ code'.helpers, helper ∈ state.code.helpers ∨ helper ∈ node.helpers := by
  unfold StageGraph.emitOutcome at h
  rw [getElem?_libraryModel_of_eq_some name graph hnode] at h
  simp only at h
  split at h
  · rename_i after hrun
    cases h
    obtain ⟨_, _, ⟨rfl, rfl⟩, hoperands, hhelpers⟩ := run_leaves (node.emit_leaves _) hrun rfl
    rw [operandsAt, hnode]
    exact ⟨hoperands, hhelpers⟩
  · cases h

/-- Emissions leave what the nodes at their positions leave, in order. -/
theorem emits_leave {p finish : Progress} {positions : List Nat}
    (hpositions : ∀ index ∈ positions, ∃ node, (nodes stage)[index]? = some node)
    (h : Performed (libraryModel name graph nodes) input p (callSteps (.emit stage) positions)
      finish) :
    operands (finish.program stage).code.main =
        operands (p.program stage).code.main ++ positions.flatMap (operandsAt input.target nodes stage) ∧
      ∀ helper ∈ (finish.program stage).code.helpers, helper ∈ (p.program stage).code.helpers ∨
        ∃ node ∈ nodes stage, helper ∈ node.helpers := by
  induction positions generalizing p with
  | nil =>
    cases h
    exact ⟨(List.append_nil _).symm, fun _ => .inl⟩
  | cons index rest ih =>
    obtain ⟨reached, hfirst, hrest⟩ := performed_cons_iff.1 h
    obtain ⟨node, hnode⟩ := hpositions index List.mem_cons_self
    obtain ⟨hoperands, hhelpers⟩ :=
      ih (fun i hi => hpositions i (List.mem_cons_of_mem index hi)) hrest
    simp only [CompileStep.perform] at hfirst
    split at hfirst
    · rename_i code declared hemit
      cases hfirst
      obtain ⟨hfirstOperands, hfirstHelpers⟩ := emitOutcome_leaves hnode hemit
      have hcode : ((p.withCode code declared stage).program stage).code = code := by
        cases stage <;> rfl
      rw [hcode] at hoperands hhelpers
      refine ⟨?_, fun helper hmem => ?_⟩
      · rw [hoperands, hfirstOperands, List.flatMap_cons, List.append_assoc, Progress.code_emitState,
          Progress.place_emitState]
      · rcases hhelpers helper hmem with hbefore | hlater
        · exact (hfirstHelpers helper hbefore).imp_right fun hmem =>
            ⟨node, List.mem_of_getElem? hnode, hmem⟩
        · exact .inr hlater
    · cases hfirst

/-- The main routine of a compiled stage samples what its nodes sample, in generation order. -/
theorem operands_of_compile {shader : Shader}
    (h : ((libraryModel name graph nodes).compile input).outcome = .ok shader)
    (stage : Stage) :
    operands (shader.program stage).code.main =
      ((libraryModel name graph nodes).order stage).flatMap (operandsAt input.target nodes stage) := by
  obtain ⟨hschedule, p, finish, hperformed, hempty, hcode⟩ := exists_emitSteps_of_compile h stage
  obtain ⟨hoperands, -⟩ :=
    emits_leave (fun index hindex => exists_node_of_mem_schedule hschedule hindex) hperformed
  rw [← hcode, hoperands, hempty]
  rfl

/-- The helper routines of a compiled stage are among those that its nodes ask for. -/
theorem helpers_of_compile {shader : Shader}
    (h : ((libraryModel name graph nodes).compile input).outcome = .ok shader) {stage : Stage}
    {helper : String × String} (hmem : helper ∈ (shader.program stage).code.helpers) :
    ∃ node ∈ nodes stage, helper ∈ node.helpers := by
  obtain ⟨hschedule, p, finish, hperformed, hempty, hcode⟩ := exists_emitSteps_of_compile h stage
  obtain ⟨-, hhelpers⟩ :=
    emits_leave (fun index hindex => exists_node_of_mem_schedule hschedule hindex) hperformed
  rw [hempty, hcode] at hhelpers
  exact (hhelpers helper hmem).resolve_left (List.not_mem_nil)

/-- The main routine of a compiled stage samples a texture if and only if one of its nodes does. -/
theorem mem_operands_of_compile {shader : Shader}
    (h : ((libraryModel name graph nodes).compile input).outcome = .ok shader) {stage : Stage}
    {operand : TextureOperand} :
    operand ∈ operands (shader.program stage).code.main ↔
      ∃ node ∈ nodes stage, operand ∈ node.operands input.target := by
  obtain ⟨hschedule, -⟩ := exists_emitSteps_of_compile h stage
  rw [operands_of_compile h, List.mem_flatMap]
  constructor
  · rintro ⟨index, hindex, hmem⟩
    obtain ⟨node, hnode⟩ := exists_node_of_mem_schedule hschedule hindex
    rw [operandsAt, hnode] at hmem
    exact ⟨node, List.mem_of_getElem? hnode, hmem⟩
  · rintro ⟨node, hnode, hmem⟩
    obtain ⟨index, hget⟩ := List.mem_iff_getElem?.1 hnode
    refine ⟨index, mem_order_of_getElem? hschedule hget, ?_⟩
    rw [operandsAt, hget]
    exact hmem

end Library

end ShaderWeave
