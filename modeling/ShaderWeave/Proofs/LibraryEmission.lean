import ShaderWeave.Node.Library
import ShaderWeave.Proofs.Emission

/-!
# What the Nodes of the Library Write

Every node of the library reads only inputs that it reports, declares the value that it computes in one
place, and mentions no other computed value than its inputs and its own. One lemma for each family of
nodes says so, by the rules for emissions.

## Main definitions

* `LibraryNode.computed?`: the value that a node computes, if it computes one.
* `Piece.Allowed`: what a node with given inputs may write.
* `WritesNode`: what a node with given inputs and a given computed value writes and declares.

## Main results

* `LibraryNode.emit_writes`: every node of the library is such a node.
* `LibraryNode.mem_outputs`: a computed output of a node is the value that it computes or one of its
  inputs.
-/

namespace ShaderWeave

/-! ## Pieces -/

/-- The handle that a piece declares. -/
def Piece.declared? : Piece → Option Handle
  | declaration handle => some handle
  | _ => none

/-- The handles that a fragment declares. -/
def Code.declarations (code : Code) : List Handle :=
  code.filterMap Piece.declared?

/-- The handles that fragments declare. -/
def declarations (statements : List Code) : List Handle :=
  statements.flatMap Code.declarations

/-- What a node may write: it declares the value that it computes, it reads its inputs, it mentions its
inputs, its own value and values that need no declaration, and it samples inputs. -/
def Piece.Allowed (inputs : List Handle) (computed : Option Handle) : Piece → Prop
  | text _ => True
  | declaration handle => computed = some handle
  | read handle _ => handle ∈ inputs
  | mention handle => handle ∈ inputs ∨ computed = some handle ∨ handle.needsDeclaration = false
  | texture _ name _ => ∃ handle ∈ inputs, handle.name = name

/-- Every piece of a fragment may be written. -/
def Code.Allowed (inputs : List Handle) (computed : Option Handle) (code : Code) : Prop :=
  ∀ piece ∈ code, piece.Allowed inputs computed

namespace Code

variable {inputs : List Handle} {computed : Option Handle}

@[simp]
theorem declarations_nil : declarations [] = [] := rfl

@[simp]
theorem declarations_cons (piece : Piece) (code : Code) :
    declarations (piece :: code) = piece.declared?.toList ++ declarations code := by
  unfold declarations
  rw [List.filterMap_cons]
  cases piece.declared? <;> rfl

@[simp]
theorem declarations_append (left right : Code) :
    declarations (left ++ right) = declarations left ++ declarations right :=
  List.filterMap_append

@[simp]
theorem allowed_nil : Allowed inputs computed [] := by
  simp [Allowed]

@[simp]
theorem allowed_cons (piece : Piece) (code : Code) :
    Allowed inputs computed (piece :: code) ↔
      piece.Allowed inputs computed ∧ Allowed inputs computed code := by
  simp [Allowed]

@[simp]
theorem allowed_append (left right : Code) :
    Allowed inputs computed (left ++ right) ↔
      Allowed inputs computed left ∧ Allowed inputs computed right := by
  simp [Allowed, or_imp, forall_and]

/-- A block declares what its rows declare. -/
@[simp]
theorem declarations_block (indent : Nat) (rows : List Code) :
    declarations (block indent rows) = rows.flatMap declarations := by
  unfold block
  rw [declarations_cons]
  induction rows with
  | nil => rfl
  | cons row rows ih =>
    simp only [Piece.declared?, Option.toList_none, List.nil_append, List.cons_append] at ih
    simp [Piece.declared?, ih]

/-- A block may be written if its rows may. -/
@[simp]
theorem allowed_block (indent : Nat) (rows : List Code) :
    Allowed inputs computed (block indent rows) ↔ ∀ row ∈ rows, Allowed inputs computed row := by
  unfold block
  rw [allowed_cons]
  induction rows with
  | nil => simp [Piece.Allowed]
  | cons row rows ih =>
    simp only [Piece.Allowed, true_and, List.cons_append] at ih
    simp [Piece.Allowed, ih]

end Code

/-- A node with the given inputs and computed value declares that value, in one place, and otherwise
writes only what it may. -/
structure WritesNode (inputs : List Handle) (computed : Option Handle) (statements : List Code)
    (declared : List Handle) : Prop where
  /-- It declares what it computes. -/
  declared_eq : declared = computed.toList
  /-- It writes the declaration of what it computes once. -/
  declarations_eq : declarations statements = computed.toList
  /-- It writes nothing else than it may. -/
  allowed : ∀ code ∈ statements, code.Allowed inputs computed

/-- The condition of `WritesNode`, as one on what a routine leaves behind. -/
abbrev WritesNode.post (inputs : List Handle) (computed : Option Handle) :
    Unit → List Code → List Handle → Prop :=
  fun _ => WritesNode inputs computed

/-- A node whose last statement declares its value. -/
theorem WritesNode.single {inputs : List Handle} {handle : Handle} {code : Code}
    (hdeclarations : code.declarations = [handle]) (hallowed : code.Allowed inputs (some handle)) :
    WritesNode inputs (some handle) [code] [handle] where
  declared_eq := rfl
  declarations_eq := by simpa [declarations] using hdeclarations
  allowed := by simpa using hallowed

theorem WritesNode.nil (inputs : List Handle) : WritesNode inputs none [] [] where
  declared_eq := rfl
  declarations_eq := rfl
  allowed := by simp

/-- A statement that declares nothing, before others that declare nothing. -/
theorem WritesNode.cons {inputs : List Handle} {code : Code} {statements : List Code}
    {declared : List Handle} (hdeclarations : code.declarations = [])
    (hallowed : code.Allowed inputs none) (hrest : WritesNode inputs none statements declared) :
    WritesNode inputs none (code :: statements) declared where
  declared_eq := hrest.declared_eq
  declarations_eq := by
    have hnone := hrest.declarations_eq
    simp only [declarations] at hnone
    simp [declarations, hdeclarations, hnone]
  allowed := by simpa using ⟨hallowed, hrest.allowed⟩

/-- Statements that declare nothing, one after another. -/
theorem WritesNode.append {inputs : List Handle} {statements more : List Code}
    {declared others : List Handle} (hfirst : WritesNode inputs none statements declared)
    (hrest : WritesNode inputs none more others) :
    WritesNode inputs none (statements ++ more) (declared ++ others) where
  declared_eq := by rw [hfirst.declared_eq, hrest.declared_eq]; rfl
  declarations_eq := by
    have hnone := hfirst.declarations_eq
    have hmore := hrest.declarations_eq
    simp only [declarations] at hnone hmore
    simp [declarations, hnone, hmore]
  allowed := by
    intro code hcode
    rcases List.mem_append.1 hcode with hmem | hmem
    · exact hfirst.allowed code hmem
    · exact hrest.allowed code hmem

/-! ## Computed Values -/

/-- The value that an arithmetic node computes. -/
def ArithmeticNode.computed? (id : NodeId) (node : ArithmeticNode) : Option Handle :=
  some (node.output id)

/-- The color that a texture node computes. -/
def TextureNode.computed? (id : NodeId) : TextureNode → Option Handle
  | binding .. => none
  | node@(sample ..) => some (node.output id)

/-- The color that a light node computes. -/
def LightNode.computed? (id : NodeId) : LightNode → Option Handle
  | lambert .. => some (lambertColor id)
  | _ => none

/-- The value that a node of ambient occlusion computes. -/
def OcclusionNode.computed? (id : NodeId) : OcclusionNode → Option Handle
  | uniforms .. => none
  | unproject .. => some (position id)
  | occlusion .. => some (color id)

/-- The value that a node of the library computes. -/
def LibraryNode.computed? (id : NodeId) : LibraryNode → Option Handle
  | endpoint _ => none
  | arithmetic node => node.computed? id
  | camera => none
  | texture node => node.computed? id
  | light node => node.computed? id
  | occlusion node => node.computed? id

/-! ## Endpoints -/

variable {place : CodePlace}

namespace EndpointNode

theorem assignElements_writes {inputs : List Handle} {input : Handle} (name : String)
    (hmem : input ∈ inputs) (count start : Nat) :
    Writes place inputs (assignElements name input count start) (WritesNode.post inputs none) := by
  induction count generalizing start with
  | zero => exact .done (.nil inputs)
  | succ count ih =>
    refine .append ((ih (start + 1)).imp fun _ statements declared hrest => ?_)
    exact .cons (by simp [Piece.declared?]) (by simp [Piece.Allowed, hmem]) hrest

theorem emit_writes (node : EndpointNode) :
    Writes place node.inputs node.emit (WritesNode.post node.inputs none) := by
  cases node with
  | meshAttribute a => exact .done (.nil _)
  | pushConstant constant => exact .done (.nil _)
  | positionOutput input =>
    refine .read (by simp [inputs]) fun expr => .append_last ?_
    exact .cons (by simp [Piece.declared?]) (by simp [Piece.Allowed, inputs]) (.nil _)
  | colorOutput target input =>
    refine .read (by simp [inputs]) fun expr => .append_last ?_
    exact .cons (by simp [Piece.declared?]) (by simp [Piece.Allowed, inputs]) (.nil _)
  | producer channel input =>
    have hmem : input ∈ (producer channel input).inputs := by simp [inputs]
    simp only [emit]
    cases channel.var.arrayLen with
    | some len => exact assignElements_writes channel.var.name hmem len.toNat 0
    | none =>
      refine .read hmem fun expr => .append_last ?_
      exact .cons (by simp [Piece.declared?]) (by simp [Piece.Allowed, inputs]) (.nil _)
  | consumer channel expected => exact .done (.nil _)

end EndpointNode

/-! ## Arithmetic -/

namespace ArithmeticNode

/-- The product of a transform reads its input and declares nothing. -/
theorem product_writes {inputs : List Handle} {input matrix : Handle} {factor : Expr}
    (kind : TransformKind) (hinput : input ∈ inputs) (hmatrix : matrix ∈ inputs) :
    Writes place inputs (product kind input (.read matrix factor)) fun code statements declared =>
      statements = [] ∧ declared = [] ∧ code.declarations = [] ∧
        ∀ computed, code.Allowed inputs computed := by
  cases kind with
  | point | direction | clip =>
    refine .read hinput fun expr => .done ⟨rfl, rfl, by simp [Piece.declared?], fun computed => ?_⟩
    simp [Piece.Allowed, hinput, hmatrix]

theorem emit_writes (id : NodeId) (node : ArithmeticNode) :
    Writes place node.inputs (node.emit id) (WritesNode.post node.inputs (node.computed? id)) := by
  have hkind : (node.output id).value.kind = .computed := by cases node <;> rfl
  cases node with
  | screenQuad texCoord =>
    refine .declare hkind (.read (by simp [inputs]) fun coordinate => .append_last (.single ?_ ?_))
    · simp [Piece.declared?]
    · simp [Piece.Allowed, inputs]
  | split channels kind input =>
    refine .declare hkind (.append_last (.single ?_ ?_))
    · simp [Piece.declared?]
    · simp [Piece.Allowed, inputs]
  | combine xyz w =>
    refine .declare hkind (.read (by simp [inputs]) fun first =>
      .read (by simp [inputs]) fun last => .append_last (.single ?_ ?_))
    · simp [Piece.declared?]
    · simp [Piece.Allowed, inputs]
  | math op ty left right =>
    refine .declare hkind (.read (by simp [inputs]) fun leftOperand =>
      .read (by simp [inputs]) fun rightOperand => .append_last (.single ?_ ?_))
    · simp [Piece.declared?]
    · simp [Piece.Allowed, inputs]
  | normalize input =>
    refine .declare hkind (.read (by simp [inputs]) fun vector => .append_last (.single ?_ ?_))
    · simp [Piece.declared?]
    · simp [Piece.Allowed, inputs]
  | gamma input exponent =>
    refine .read (by simp [inputs]) fun color =>
      .declare hkind (.read (by simp [inputs]) fun root => .append_last (.single ?_ ?_))
    · simp [Piece.declared?]
    · simp [Piece.Allowed, inputs]
  | transform kind input matrix =>
    refine .read (by simp [inputs]) fun factor =>
      (product_writes kind (by simp [inputs]) (by simp [inputs])).bind ?_
    rintro code _ _ ⟨rfl, rfl, hdeclarations, hallowed⟩
    refine .declare hkind (.append_last (.single ?_ ?_))
    · simp [Piece.declared?, hdeclarations]
    · simp [Piece.Allowed, hallowed]

end ArithmeticNode

/-! ## Textures -/

theorem TextureNode.emit_writes (id : NodeId) (node : TextureNode) :
    Writes place node.inputs (node.emit id) (WritesNode.post node.inputs (node.computed? id)) := by
  cases node with
  | binding name arrayLen => exact .done (.nil _)
  | sample premultiply texture texCoord =>
    refine .read (by simp [inputs]) fun coordinate => .sample ?_
    cases premultiply with
    | true =>
      refine .helper (.declare rfl (.append_last (.single ?_ ?_)))
      · simp [Piece.declared?, Code.sample, Code.sampleOperand, output]
      · simp [Piece.Allowed, Code.sample, Code.sampleOperand, inputs, output]
    | false =>
      refine .declare rfl (.append_last (.single ?_ ?_))
      · simp [Piece.declared?, Code.sample, Code.sampleOperand, output]
      · simp [Piece.Allowed, Code.sample, Code.sampleOperand, inputs, output]

/-! ## Lights -/

namespace Shadow

variable {inputs : List Handle} {textures : Handle}

theorem projectEach_writes {matrix position : Handle} {factor point : Expr} (target : String)
    (hmatrix : matrix ∈ inputs) (hposition : position ∈ inputs) (count start : Nat) :
    Writes place inputs (projectEach target (.read matrix factor) (.read position point) count start)
      (WritesNode.post inputs none) := by
  induction count generalizing start with
  | zero => exact .done (.nil inputs)
  | succ count ih =>
    refine .append ((ih (start + 1)).imp fun _ statements declared hrest => ?_)
    exact .cons (by simp [Piece.declared?]) (by simp [Piece.Allowed, hmatrix, hposition]) hrest

theorem declareFactors_writes (max : UInt32) (hmem : textures ∈ inputs) :
    Writes place inputs (declareFactors max textures) (WritesNode.post inputs none) := by
  refine .textureSize (.append_last (.cons ?_ ?_ (.nil _)))
  · simp [Piece.declared?, Code.textureSize, Code.operandSize]
  · simp only [Code.allowed_block, List.forall_mem_cons, Code.allowed_cons, Code.allowed_append,
      Code.textureSize, Code.operandSize, Piece.Allowed, Code.allowed_nil, List.not_mem_nil,
      false_implies, implies_true, true_and, and_true]
    exact ⟨textures, hmem, rfl⟩

theorem accumulate_writes (hmem : textures ∈ inputs) (light : Nat)
    (places : List Vec2) :
    Writes place inputs (accumulate textures light places) (WritesNode.post inputs none) := by
  induction places with
  | nil => exact .done (.nil inputs)
  | cons offset rest ih =>
    refine .sample <| .append (ih.imp fun _ statements declared hrest => .cons ?_ ?_ hrest)
    · simp [Piece.declared?, Code.sample, Code.sampleOperand]
    · simp only [Code.sample, Code.sampleOperand, Code.allowed_cons, Code.allowed_append,
        List.cons_append, Piece.Allowed, Code.allowed_nil, true_and, and_true]
      exact ⟨textures, hmem, rfl⟩

theorem factor_writes (hmem : textures ∈ inputs) (light : Nat) :
    Writes place inputs (factor textures light) (WritesNode.post inputs none) := by
  refine .append ((accumulate_writes hmem light offsets).bind ?_)
  intro _ statements declared hstatements
  refine .append_last (.cons ?_ ?_ (hstatements.append (.cons ?_ ?_ (.nil _))))
  · simp [Piece.declared?]
  · simp [Piece.Allowed]
  · simp [Piece.declared?]
  · simp [Piece.Allowed]

theorem factorEach_writes (hmem : textures ∈ inputs) (count start : Nat) :
    Writes place inputs (factorEach textures count start) (WritesNode.post inputs none) := by
  induction count generalizing start with
  | zero => exact .done (.nil inputs)
  | succ count ih =>
    refine (factor_writes hmem start).bind fun _ statements declared hfirst => ?_
    exact (ih (start + 1)).imp fun _ more others hrest => hfirst.append hrest

end Shadow

namespace LightNode

theorem addRoutines_writes (inputs : List Handle) :
    Writes place inputs LightArray.addRoutines (WritesNode.post inputs none) :=
  .helper (.helper_last (.nil inputs))

theorem emitLambert_writes {inputs : List Handle} {lightCount fragPos normal albedo : Handle}
    (id : NodeId) (calls : LightCalls) (inner : Binary32)
    (hinputs : ∀ h ∈ [lightCount, fragPos, normal, albedo], h ∈ inputs) :
    Writes place inputs (emitLambert id calls inner lightCount fragPos normal albedo)
      (WritesNode.post inputs (some (lambertColor id))) := by
  have hcount : lightCount ∈ inputs := hinputs _ (by simp)
  have hposition : fragPos ∈ inputs := hinputs _ (by simp)
  have hnormal : normal ∈ inputs := hinputs _ (by simp)
  have halbedo : albedo ∈ inputs := hinputs _ (by simp)
  refine .read hnormal fun _ => .read halbedo fun _ => .read hcount fun _ =>
    .read hposition fun _ => .declare rfl (.append_last (.single ?_ ?_))
  · cases hshadowed : calls.shadowed <;>
      simp [Piece.declared?, LightCalls.radiance, LightCalls.fragToLight, hshadowed]
  · cases hshadowed : calls.shadowed <;>
      simp [Piece.Allowed, LightCalls.radiance, LightCalls.fragToLight, hshadowed, hcount, hposition,
        hnormal, halbedo]

theorem emit_writes (id : NodeId) (node : LightNode) :
    Writes place node.inputs (node.emit id) (WritesNode.post node.inputs (node.computed? id)) := by
  cases node with
  | lights max => exact addRoutines_writes _
  | shadowVertex max channel position matrix =>
    cases matrix with
    | none => exact .fail (by simp [NodeFailure.EarlyRead, GraphError.EarlyRead, GraphError.root])
    | some matrix =>
      refine .read (by simp [inputs]) fun factor => .read (by simp [inputs]) fun point => ?_
      exact Shadow.projectEach_writes _ (by simp [inputs]) (by simp [inputs]) _ _
  | shadowFragment max channel depthTextures =>
    have hmem : depthTextures ∈ (shadowFragment max channel depthTextures).inputs := by
      simp [inputs]
    refine (addRoutines_writes _).bind fun _ statements declared hroutines => ?_
    refine (Shadow.declareFactors_writes max hmem).bind fun _ more others hdeclared => ?_
    refine (Shadow.factorEach_writes hmem max.toNat 0).imp fun _ last final hfactors => ?_
    exact hroutines.append (hdeclared.append hfactors)
  | lambert calls inner lightCount fragPos normal albedo =>
    exact emitLambert_writes id calls inner fun h hmem => hmem

end LightNode

/-! ## Ambient Occlusion -/

namespace OcclusionNode

/-- A uniform needs no declaration. -/
theorem needsDeclaration_handle (u : OcclusionUniforms) (var : Variable) :
    (u.handle var).needsDeclaration = false := rfl

theorem emitUnproject_writes {inputs : List Handle} {depth screenPos : Handle} (id : NodeId)
    (u : OcclusionUniforms) (hdepth : depth ∈ inputs) (hscreen : screenPos ∈ inputs) :
    Writes place inputs (emitUnproject id u depth screenPos)
      (WritesNode.post inputs (some (position id))) := by
  refine .read hscreen fun screen => ?_
  cases hinverse : u.invProj? with
  | none => exact .fail (by
      simp [NodeFailure.EarlyRead, GraphError.EarlyRead, missingInverse, GraphError.root])
  | some invProj =>
    have huniform : invProj.needsDeclaration = false := by
      unfold OcclusionUniforms.invProj? at hinverse
      split at hinverse <;> cases hinverse
      rfl
    refine .declare rfl (.read hdepth fun _ => .append_last (.single ?_ ?_))
    · simp [Piece.declared?]
    · simp [Piece.Allowed, huniform, hdepth, hscreen]

theorem emitOcclusion_writes {inputs : List Handle} {noiseTex depthTex screenPos origin normal : Handle}
    (id : NodeId) (u : OcclusionUniforms) (component : String)
    (hinputs : ∀ h ∈ [noiseTex, depthTex, screenPos, origin, normal], h ∈ inputs) :
    Writes place inputs (emitOcclusion id u component noiseTex depthTex screenPos origin normal)
      (WritesNode.post inputs (some (color id))) := by
  have hnoise : ∃ h ∈ inputs, h.name = noiseTex.name := ⟨noiseTex, hinputs _ (by simp), rfl⟩
  have hdepth : ∃ h ∈ inputs, h.name = depthTex.name := ⟨depthTex, hinputs _ (by simp), rfl⟩
  have hscreen : screenPos ∈ inputs := hinputs _ (by simp)
  have horigin : origin ∈ inputs := hinputs _ (by simp)
  have hnormal : normal ∈ inputs := hinputs _ (by simp)
  refine .read horigin fun _ => .read hnormal fun _ => .declare rfl (.read hscreen fun _ =>
    .sample (.sample (.append_last (.single ?_ ?_))))
  · simp [Piece.declared?, Code.sample, Code.sampleOperand]
  · simp [Piece.Allowed, Code.sample, Code.sampleOperand, needsDeclaration_handle, hnoise, hdepth,
      hscreen, horigin, hnormal]

theorem emit_writes (id : NodeId) (node : OcclusionNode) :
    Writes place node.inputs (node.emit id) (WritesNode.post node.inputs (node.computed? id)) := by
  cases node with
  | uniforms inverse settings => exact .done (.nil _)
  | unproject u depth screenPos =>
    exact emitUnproject_writes id u (by simp [inputs]) (by simp [inputs])
  | occlusion u component noiseTex depthTex screenPos origin normal =>
    exact emitOcclusion_writes id u component fun h hmem => List.mem_cons_of_mem _ hmem

end OcclusionNode

/-! ## All Nodes of the Library -/

namespace LibraryNode

/-- What every node of the library writes. -/
theorem emit_writes (id : NodeId) (node : LibraryNode) :
    Writes place node.inputs (node.emit id) (WritesNode.post node.inputs (node.computed? id)) := by
  cases node with
  | endpoint node => exact node.emit_writes
  | arithmetic node => exact node.emit_writes id
  | camera => exact .done (.nil _)
  | texture node => exact node.emit_writes id
  | light node => exact node.emit_writes id
  | occlusion node => exact node.emit_writes id

/-- What the camera offers needs no declaration. -/
theorem needsDeclaration_camera {id : NodeId} {output : String × Handle}
    (hmem : output ∈ CameraNode.outputs id) : output.2.needsDeclaration = false := by
  simp only [CameraNode.outputs, List.mem_cons, List.not_mem_nil, or_false] at hmem
  rcases hmem with rfl | rfl | rfl | rfl <;> rfl

/-- What the uniforms of ambient occlusion offer needs no declaration. -/
theorem needsDeclaration_uniforms {u : OcclusionUniforms} {output : String × Handle}
    (hmem : output ∈ u.outputs) : output.2.needsDeclaration = false := by
  rcases List.mem_append.1 hmem with hmem | hmem
  · simp only [List.mem_cons, List.not_mem_nil, or_false] at hmem
    rcases hmem with rfl | rfl | rfl | rfl | rfl | rfl | rfl | rfl <;> rfl
  · unfold OcclusionUniforms.invProj? at hmem
    split at hmem
    · rw [Option.map_some, Option.toList_some, List.mem_singleton] at hmem
      rw [hmem]
      rfl
    · simp at hmem

/-- A computed value that a node offers is the one that it computes, unless the node only passes an
input on. -/
theorem mem_outputs {id : NodeId} {node : LibraryNode} {output : String × Handle}
    (hmem : output ∈ node.outputs id) (hneeds : output.2.needsDeclaration = true) :
    node.computed? id = some output.2 ∨ output.2 ∈ node.inputs := by
  cases node with
  | endpoint node =>
    -- Endpoints offer attributes, push constants and interface inputs, all declared outside the main
    -- routine.
    obtain ⟨handle, houtput, rfl⟩ := Option.map_eq_some_iff.1 (Option.mem_toList.1 hmem)
    cases node <;> cases houtput <;> cases hneeds
  | arithmetic node =>
    rw [List.mem_singleton.1 hmem]
    exact .inl rfl
  | camera => simp [needsDeclaration_camera hmem] at hneeds
  | texture node =>
    rw [List.mem_singleton.1 hmem] at hneeds ⊢
    cases node with
    | binding name arrayLen => cases hneeds
    | sample premultiply texture texCoord => exact .inl rfl
  | light node =>
    cases node with
    | lights max =>
      rw [List.mem_singleton.1 hmem] at hneeds
      cases hneeds
    | shadowVertex max channel position matrix => cases hmem
    | shadowFragment max channel depthTextures =>
      rcases List.mem_cons.1 hmem with rfl | hmem
      · cases hneeds
      · -- The array of depth textures is passed on.
        rw [List.mem_singleton.1 hmem]
        exact .inr List.mem_cons_self
    | lambert calls inner lightCount fragPos normal albedo =>
      rw [List.mem_singleton.1 hmem]
      exact .inl rfl
  | occlusion node =>
    cases node with
    | uniforms inverse settings => simp [needsDeclaration_uniforms hmem] at hneeds
    | unproject u depth screenPos =>
      rw [List.mem_singleton.1 hmem]
      exact .inl rfl
    | occlusion u component noiseTex depthTex screenPos origin normal =>
      rw [List.mem_singleton.1 hmem]
      exact .inl rfl

/-- The value that a node computes is a variable of the node, whose name begins with letters. -/
theorem computed?_eq_some {id : NodeId} {node : LibraryNode} {handle : Handle}
    (h : node.computed? id = some handle) :
    ∃ letters field ty, handle = .computed id letters field ty ∧
      letters.toList.all (fun c => !c.isDigit) = true := by
  -- The letters are tested by `all`: a bounded quantifier may be decided over every character.
  cases node with
  | endpoint node => cases h
  | arithmetic node =>
    cases h
    cases node with
    | math op ty left right => exact ⟨_, _, _, rfl, by cases op <;> decide +kernel⟩
    | screenQuad | split | combine | normalize | gamma | transform =>
      exact ⟨_, _, _, rfl, by decide +kernel⟩
  | camera => cases h
  | texture node =>
    cases node with
    | binding name arrayLen => cases h
    | sample premultiply texture texCoord =>
      cases h
      exact ⟨_, _, _, rfl, by decide +kernel⟩
  | light node =>
    cases node with
    | lights max | shadowVertex | shadowFragment => cases h
    | lambert calls inner lightCount fragPos normal albedo =>
      cases h
      exact ⟨_, _, _, rfl, by decide +kernel⟩
  | occlusion node =>
    cases node with
    | uniforms inverse settings => cases h
    | unproject | occlusion =>
      cases h
      exact ⟨_, _, _, rfl, by decide +kernel⟩

end LibraryNode

end ShaderWeave
