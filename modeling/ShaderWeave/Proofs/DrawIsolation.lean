import ShaderWeave.Proofs.WriteBounds

/-!
# Draws Leave No Traces

For every draw the uniform blocks of a shader are refreshed in staging buffers of the application. The
buffers may have any lengths and hold anything, also what a draw that failed has left, and there may be
more or fewer of them than blocks. After the draw a buffer holds what the routine of its block writes
for this draw, and nothing else: neither earlier draws nor the routines of other blocks show in it.

## Main definitions

* `RegisteredBlock.refreshFor`, `RegisteredBlock.failsFor`: what becomes of one block in a draw.
* `DrawnInto blocks parameters draw staging done`: what a draw leaves in staging buffers.

## Main results

* `updateBuffers_eq_mapM`: a draw refreshes the blocks that have a buffer, one by one.
* `drawnInto_of_updateBuffers`: what it leaves.
* `draw_updates_isolated`: for a compiled shader with any update routines, draws always succeed, do not
  depend on what the buffers held, can be repeated without effect, and keep blocks apart.
-/

namespace ShaderWeave

/-- The block as its routine leaves it for a draw, starting from zero. -/
def RegisteredBlock.refreshFor (parameters : ParameterStore) (draw : DrawContext)
    (registered : RegisteredBlock) : Option BlockShape.Refreshed :=
  registered.block.shape.refresh (registered.update draw parameters)

/-- Whether the routine of the block ends with an error for a draw. -/
def RegisteredBlock.failsFor (parameters : ParameterStore) (draw : DrawContext)
    (registered : RegisteredBlock) : Bool :=
  registered.block.shape.fails (registered.update draw parameters)

/-- What a draw leaves in staging buffers. -/
structure DrawnInto (blocks : List RegisteredBlock) (parameters : ParameterStore)
    (draw : DrawContext) (staging : List (List UInt8)) (done : Shader.Refreshed) : Prop where
  /-- There are as many buffers as before. -/
  length_eq : done.staging.length = staging.length
  /-- The buffer of a block has its size and holds what its routine writes for the draw; if the routine
  ends with an error, it is all zero. -/
  buffer_eq : ∀ (index : Nat) (registered : RegisteredBlock), blocks[index]? = some registered →
    index < staging.length →
      ∃ refreshed, registered.refreshFor parameters draw = some refreshed ∧
        done.staging[index]? = some refreshed.bytes ∧
        refreshed.bytes.length = registered.block.layout.size.toNat ∧
        (registered.failsFor parameters draw = true →
          refreshed.bytes = List.replicate registered.block.layout.size.toNat 0)
  /-- Buffers without a block stay as they are. -/
  untouched : ∀ index, blocks.length ≤ index → done.staging[index]? = staging[index]?
  /-- The routines that end with an error are counted, among the blocks that have a buffer. -/
  failed_eq : done.failed =
    (blocks.take staging.length).countP (RegisteredBlock.failsFor parameters draw)

section UpdateBuffers

variable {parameters : ParameterStore} {draw : DrawContext} {blocks : List RegisteredBlock}
  {staging : List (List UInt8)} {done : Shader.Refreshed}

/-- What is left after the blocks that have a buffer are refreshed. -/
def Shader.Refreshed.collect (blocks : List RegisteredBlock) (staging : List (List UInt8))
    (results : List BlockShape.Refreshed) : Shader.Refreshed where
  staging := results.map (·.bytes) ++ staging.drop blocks.length
  failed := results.countP (·.error.isSome)
  records := results.flatMap (·.records)

/-- A draw refreshes the blocks that have a buffer, one by one, and leaves the other buffers. -/
theorem updateBuffers_eq_mapM (parameters : ParameterStore) (draw : DrawContext)
    (blocks : List RegisteredBlock) (staging : List (List UInt8)) :
    Shader.updateBuffers parameters draw blocks staging =
      ((blocks.take staging.length).mapM (RegisteredBlock.refreshFor parameters draw)).map
        (Shader.Refreshed.collect blocks staging) := by
  induction blocks generalizing staging with
  | nil => simp [Shader.updateBuffers, Shader.Refreshed.collect]
  | cons registered rest ih =>
    cases staging with
    | nil => simp [Shader.updateBuffers, Shader.Refreshed.collect]
    | cons buffer staging =>
      rw [Shader.updateBuffers, BlockShape.refreshIn_eq, ih, List.length_cons, List.take_succ_cons,
        List.mapM_cons, RegisteredBlock.refreshFor]
      cases registered.block.shape.refresh (registered.update draw parameters) with
      | none => rfl
      | some first =>
        cases (rest.take staging.length).mapM (RegisteredBlock.refreshFor parameters draw) with
        | none => rfl
        | some results =>
          simp [Shader.Refreshed.collect, List.countP_cons, Nat.add_comm]

/-- Each entry has its result. -/
theorem forall₂_of_mapM {α β : Type} {f : α → Option β} {entries : List α} {results : List β}
    (h : entries.mapM f = some results) :
    List.Forall₂ (fun entry result => f entry = some result) entries results := by
  induction entries generalizing results with
  | nil =>
    cases h
    exact .nil
  | cons entry rest ih =>
    rw [List.mapM_cons] at h
    obtain ⟨first, hfirst, h⟩ := Option.bind_eq_some_iff.1 h
    obtain ⟨others, hothers, h⟩ := Option.bind_eq_some_iff.1 h
    cases h
    exact .cons hfirst (ih hothers)

/-- As many blocks have an error as have a routine that ends with one. -/
theorem countP_error_eq {results : List BlockShape.Refreshed}
    (h : List.Forall₂ (fun registered result =>
      RegisteredBlock.refreshFor parameters draw registered = some result) blocks results) :
    results.countP (·.error.isSome) = blocks.countP (RegisteredBlock.failsFor parameters draw) := by
  induction h with
  | nil => rfl
  | cons hfirst _ ih =>
    have herror := (BlockShape.refresh_eq_some hfirst).2.1
    rw [List.countP_cons, List.countP_cons, ih, herror]
    rfl

/-- A draw that comes to its end leaves in every buffer what its block has for the draw. -/
theorem drawnInto_of_updateBuffers
    (h : Shader.updateBuffers parameters draw blocks staging = some done) :
    DrawnInto blocks parameters draw staging done := by
  rw [updateBuffers_eq_mapM] at h
  obtain ⟨results, hresults, rfl⟩ := Option.map_eq_some_iff.1 h
  have hall := forall₂_of_mapM hresults
  have hlength := hall.length_eq
  rw [List.length_take] at hlength
  refine ⟨?_, ?_, ?_, ?_⟩
  · simp only [Shader.Refreshed.collect, List.length_append, List.length_map, List.length_drop]
    omega
  · intro index registered hregistered hindex
    have hblock : index < blocks.length := (List.getElem?_eq_some_iff.1 hregistered).1
    have hresult : registered.refreshFor parameters draw = some (results.get ⟨index, by omega⟩) := by
      have hentry := hall.get (i := index) (by rw [List.length_take]; omega) (by omega)
      rwa [List.get_eq_getElem, List.getElem_take, (List.getElem?_eq_some_iff.1 hregistered).2]
        at hentry
    obtain ⟨hsize, -, hzero⟩ := BlockShape.refresh_eq_some hresult
    refine ⟨_, hresult, ?_, hsize, hzero⟩
    simp only [Shader.Refreshed.collect]
    rw [List.getElem?_append_left (by rw [List.length_map]; omega), List.getElem?_map,
      List.getElem?_eq_getElem (by omega)]
    rfl
  · intro index hindex
    simp only [Shader.Refreshed.collect]
    by_cases hmany : blocks.length ≤ staging.length
    · rw [List.getElem?_append_right (by rw [List.length_map]; omega), List.getElem?_drop,
        List.length_map]
      congr 1
      omega
    · -- There are fewer buffers than blocks, so there is none without a block.
      rw [List.getElem?_eq_none, List.getElem?_eq_none (by omega)]
      rw [List.length_append, List.length_map, List.length_drop]
      omega
  · exact countP_error_eq hall

/-- If every block can be refreshed, the draw comes to its end. -/
theorem exists_updateBuffers
    (h : ∀ registered ∈ blocks, ∃ refreshed, registered.refreshFor parameters draw = some refreshed)
    (staging : List (List UInt8)) :
    ∃ done, Shader.updateBuffers parameters draw blocks staging = some done := by
  have hresults : ∀ entries : List RegisteredBlock, (∀ registered ∈ entries, registered ∈ blocks) →
      ∃ results, entries.mapM (RegisteredBlock.refreshFor parameters draw) = some results := by
    intro entries
    induction entries with
    | nil => exact fun _ => ⟨[], rfl⟩
    | cons registered rest ih =>
      intro hsub
      obtain ⟨first, hfirst⟩ := h registered (hsub registered List.mem_cons_self)
      obtain ⟨others, hothers⟩ := ih fun other hmem => hsub other (List.mem_cons_of_mem _ hmem)
      exact ⟨first :: others, by simp [List.mapM_cons, hfirst, hothers]⟩
  obtain ⟨results, hmapM⟩ := hresults (blocks.take staging.length)
    fun registered hmem => List.mem_of_mem_take hmem
  exact ⟨_, by rw [updateBuffers_eq_mapM, hmapM, Option.map_some]⟩

/-- The same draw once more changes nothing. -/
theorem updateBuffers_again
    (h : Shader.updateBuffers parameters draw blocks staging = some done) :
    Shader.updateBuffers parameters draw blocks done.staging = some done := by
  have hdrawn := drawnInto_of_updateBuffers h
  -- Only the buffers without a block are taken over from before, and these were left alone.
  have hrest : done.staging.drop blocks.length = staging.drop blocks.length := by
    refine List.ext_getElem? fun index => ?_
    rw [List.getElem?_drop, List.getElem?_drop]
    exact hdrawn.untouched _ (Nat.le_add_right _ _)
  rw [updateBuffers_eq_mapM] at h ⊢
  obtain ⟨results, hresults, hdone⟩ := Option.map_eq_some_iff.1 h
  rw [hdrawn.length_eq, hresults, Option.map_some, Shader.Refreshed.collect, hrest]
  exact congrArg some hdone

end UpdateBuffers

/-! ## Compiled Shaders -/

/-- The blocks of a compiled shader are laid out by the rules. -/
theorem compile_blocks_laid {m : Model} {input : CompileInput} {shader : Shader}
    (h : (m.compile input).outcome = .ok shader) :
    ∀ registered ∈ shader.blocks, ∃ vars, BlockLayout.std140? vars = some registered.block.layout := by
  have hstep : ∀ r r', Registration r r' →
      (∀ registered ∈ r.blocks, ∃ vars, BlockLayout.std140? vars = some registered.block.layout) →
      ∀ registered ∈ r'.blocks, ∃ vars,
        BlockLayout.std140? vars = some registered.block.layout := by
    intro r r' hregistration hr
    cases hregistration with
    | block name members update layout nextBinding hname hmembers hlayout hnext =>
      intro registered hmem
      rcases List.mem_append.1 hmem with hmem | hmem
      · exact hr registered hmem
      · rw [List.mem_singleton.1 hmem]
        exact ⟨members, hlayout⟩
    | output | channel | input | vertexAttribute | colorOutput | pushConstant | sampler => exact hr
  obtain ⟨hvertex, hfragment, -⟩ := compile_registrations h
  intro registered hmem
  rcases List.mem_append.1 hmem with hmem | hmem
  · exact hvertex.keep hstep (fun _ hnone => absurd hnone List.not_mem_nil) registered hmem
  · exact hfragment.keep hstep (fun _ hnone => absurd hnone List.not_mem_nil) registered hmem

/-- Draws leave no traces. Take a compiled shader without empty arrays in its blocks and give its blocks
any update routines. Whatever staging buffers there are, a draw comes to its end. Every buffer that has
a block gets the size of the block and what its own routine writes for this draw, or zeros if that
routine ends with an error; the other buffers stay as they are; and the routines that end with an error
are counted. The same draw once more changes nothing. A block has the same bytes in any other buffers
and beside any other blocks and routines, also such as fail. -/
theorem draw_updates_isolated {m : Model} {input : CompileInput} {compiled : Shader}
    (h : (m.compile input).outcome = .ok compiled)
    (hnonempty : ∀ registered ∈ compiled.blocks, registered.block.layout.NoEmptyArrays)
    {shader : Shader} (hblocks : shader.blocks.map (·.block) = compiled.blocks.map (·.block))
    (draw : DrawContext) (current : ParameterStore) (staging : List (List UInt8)) :
    ∃ done, shader.updateUniforms current draw staging = some done ∧
      DrawnInto shader.blocks current draw staging done ∧
      shader.updateUniforms current draw done.staging = some done ∧
      ∀ (other : Shader) (otherStaging : List (List UInt8)) (otherDone : Shader.Refreshed),
        other.updateUniforms current draw otherStaging = some otherDone →
          ∀ (index : Nat) (registered : RegisteredBlock),
            shader.blocks[index]? = some registered → other.blocks[index]? = some registered →
              index < staging.length → index < otherStaging.length →
                otherDone.staging[index]? = done.staging[index]? := by
  have hrefresh : ∀ registered ∈ shader.blocks, ∃ refreshed,
      registered.refreshFor current draw = some refreshed := by
    intro registered hmem
    -- The block is one of the compiled shader, with a routine of its own.
    have hblock : registered.block ∈ compiled.blocks.map (·.block) :=
      hblocks ▸ List.mem_map_of_mem hmem
    obtain ⟨original, horiginal, heq⟩ := List.mem_map.1 hblock
    obtain ⟨vars, hvars⟩ := compile_blocks_laid h original horiginal
    have harrays := hnonempty original horiginal
    rw [heq] at hvars harrays
    exact BlockShape.exists_refresh hvars harrays (registered.update draw current)
  simp only [Shader.updateUniforms_eq]
  obtain ⟨done, hdone⟩ := exists_updateBuffers hrefresh staging
  have hdrawn := drawnInto_of_updateBuffers hdone
  refine ⟨done, hdone, hdrawn, updateBuffers_again hdone, ?_⟩
  intro other otherStaging otherDone hother index registered hshader hotherBlock hindex hotherIndex
  obtain ⟨refreshed, hresult, hbytes, -⟩ := hdrawn.buffer_eq index registered hshader hindex
  obtain ⟨otherRefreshed, hotherResult, hotherBytes, -⟩ :=
    (drawnInto_of_updateBuffers hother).buffer_eq index registered hotherBlock hotherIndex
  -- Both are the result of one routine for one draw.
  rw [hresult] at hotherResult
  cases hotherResult
  rw [hbytes, hotherBytes]

/-- A scripted node with one block of a float and a vector. It writes the float, and for draws with the
given number of lights it then fails at a member that is not there. -/
def flagNode (name : String) (lights : Nat) : DesignNode :=
  let write (member : String) (value : Datum) (whenLights : Option Nat) : ScriptStep ScriptedWrite :=
    { action := { whenLights, member, source := .given value } }
  .scripted
    { name
      reported := []
      setup :=
        [{ action := .addBlock
            { name
              members := [{ name := "uFlag", ty := .float }, { name := "uTint", ty := .vec4 }]
              writes := some
                [write "uFlag" (.float ⟨0x3f800000⟩) none,
                  write "uMissing" (.float ⟨0x3f800000⟩) (some lights)] } }] }

/-- Two blocks, of which the first fails for a draw without lights. -/
def failingBlock : Design where
  name := "failing"
  vertex := [flagNode "First" 0]
  fragment := [flagNode "Second" 9]

/-- Into three buffers with something in them, one too short, one too long and one without a block, a
draw without lights puts zeros for the first block and a float for the second. -/
theorem failingBlock_isolated :
    ∃ shader done, (failingBlock.model.compile { target := .vulkan }).outcome = .ok shader ∧
      (∀ registered ∈ shader.blocks, registered.block.layout.NoEmptyArrays) ∧
      shader.updateUniforms {} .plain [[255], List.replicate 40 255, [7]] = some done ∧
      done.staging = [List.replicate 32 0, [0, 0, 128, 63] ++ List.replicate 28 0, [7]] ∧
      done.failed = 1 ∧
      DrawnInto shader.blocks {} .plain [[255], List.replicate 40 255, [7]] done ∧
      shader.updateUniforms {} .plain done.staging = some done := by
  have hcompiles : (failingBlock.model.compile { target := .vulkan }).outcome.toOption.map (fun shader =>
      (decide (∀ registered ∈ shader.blocks, registered.block.layout.NoEmptyArrays),
        (shader.updateUniforms {} .plain [[255], List.replicate 40 255, [7]]).map fun done =>
          (done.staging, done.failed))) =
      some (true, some
        ([List.replicate 32 0, [0, 0, 128, 63] ++ List.replicate 28 0, [7]], 1)) := by
    decide +kernel
  obtain ⟨shader, hshader, hcomputed⟩ := exists_ok_of_map_eq hcompiles
  obtain ⟨hnonempty, hdrawn⟩ := Prod.mk.inj hcomputed
  obtain ⟨done, hdone, hstaging⟩ := Option.map_eq_some_iff.1 hdrawn
  obtain ⟨hbuffers, hfailed⟩ := Prod.mk.inj hstaging
  have harrays := of_decide_eq_true hnonempty
  obtain ⟨again, hagain, hinto, hrepeat, -⟩ :=
    draw_updates_isolated hshader harrays rfl .plain {} [[255], List.replicate 40 255, [7]]
  cases hdone.symm.trans hagain
  exact ⟨shader, done, hshader, harrays, hdone, hbuffers, hfailed, hinto, hrepeat⟩

end ShaderWeave
