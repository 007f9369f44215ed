import ShaderWeave.Proofs.BindingRequests
import ShaderWeave.Proofs.BlockContents
import ShaderWeave.Proofs.PipelineLayout

/-!
# The Bytes of Push Constants

Before a draw, the push constants of both stages are written into one buffer of the application, each
at its offset, with the values that their cells have at that moment. The layout of a compiled shader
leaves each of them its own bytes, so that none is overwritten by another, and every one can be read
back from the buffer.

## Main definitions

* `readWords`: the words that a buffer holds, least significant byte first.
* `PushConstantSlot.Covers`: a byte belongs to a push constant.
* `EncodedConstants shader current bytes`: the buffer shows the push constants of the shader with the
  parameters `current`, and zeros elsewhere.

## Main results

* `encodeInto_packed`: push constants that are packed are all stored, each in its own bytes.
* `cell_setCells`: a cell is what the changes under its number make of it.
* `compile_push_constant_bytes`: the buffer of a compiled shader, whatever it held before.
-/

namespace ShaderWeave

/-! ## Words -/

/-- The word that has the given bytes, least significant first. -/
def wordOfBytes (b0 b1 b2 b3 : UInt8) : UInt32 :=
  UInt32.ofNat (b0.toNat + 256 * (b1.toNat + 256 * (b2.toNat + 256 * b3.toNat)))

/-- The words that a buffer holds one after another; a rest of less than four bytes is left out. -/
def readWords : List UInt8 → List UInt32
  | b0 :: b1 :: b2 :: b3 :: rest => wordOfBytes b0 b1 b2 b3 :: readWords rest
  | _ => []

theorem wordOfBytes_wordBytes (word : UInt32) :
    wordOfBytes word.toUInt8 (word >>> 8).toUInt8 (word >>> 16).toUInt8 (word >>> 24).toUInt8 =
      word := by
  apply UInt32.toNat.inj
  have hlt := word.toNat_lt
  simp only [wordOfBytes, UInt32.toNat_ofNat', UInt32.toNat_toUInt8, UInt32.toNat_shiftRight,
    Nat.shiftRight_eq_div_pow, UInt32.reduceToNat, Nat.reduceMod, Nat.reducePow]
  omega

/-- Words are read back from their bytes. -/
theorem readWords_flatMap (words : List UInt32) :
    readWords (words.flatMap Binary32.wordBytes) = words := by
  induction words with
  | nil => rfl
  | cons word rest ih =>
    rw [List.flatMap_cons, Binary32.wordBytes, List.cons_append, List.cons_append, List.cons_append,
      List.cons_append, List.nil_append, readWords, wordOfBytes_wordBytes, ih]

/-- The first bytes, four for each word, are those of the first words. -/
theorem take_flatMap_wordBytes (words : List UInt32) (count : Nat) :
    (words.flatMap Binary32.wordBytes).take (4 * count) =
      (words.take count).flatMap Binary32.wordBytes := by
  induction words generalizing count with
  | nil => simp
  | cons word rest ih =>
    cases count with
    | zero => rfl
    | succ count =>
      have hlength : (Binary32.wordBytes word).length = 4 := rfl
      rw [List.flatMap_cons, List.take_succ_cons, List.flatMap_cons, ← ih, List.take_append,
        List.take_of_length_le (by omega), hlength, show 4 * (count + 1) - 4 = 4 * count by omega]

/-! ## Cells -/

/-- A cell is what the changes under its number make of it, whoever makes them. -/
theorem cell_setCells {store : ParameterStore} {id : Nat} (hid : id < store.cells.length)
    (updates : List (Nat × CellValue)) :
    (store.setCells updates).cell id =
      (updates.filter (·.1 == id)).foldl (fun cell update => cell.set update.2) (store.cell id) := by
  induction updates generalizing store with
  | nil => rfl
  | cons update rest ih =>
    have hlength : (store.setCell update.1 update.2).cells.length = store.cells.length :=
      List.length_modify ..
    have hcell : (store.setCell update.1 update.2).cell id =
        if update.1 = id then (store.cell id).set update.2 else store.cell id := by
      simp only [ParameterStore.cell, ParameterStore.setCell, List.getD_eq_getElem?_getD,
        List.getElem?_modify, List.getElem?_eq_getElem hid]
      split <;> rfl
    rw [ParameterStore.setCells, List.foldl_cons]
    change ((store.setCell update.1 update.2).setCells rest).cell id = _
    rw [ih (hlength ▸ hid), hcell, List.filter_cons]
    by_cases hnumber : update.1 = id
    · simp [hnumber]
    · simp [hnumber]

/-! ## Stores -/

/-- A store changes the bytes from its offset on, as many as it has, and no others. -/
theorem BlockBuffer.getElem?_store {buffer after : BlockBuffer} {patch : Patch} {position : Nat}
    (h : buffer.store? patch position = some after) (index : Nat) :
    after.bytes[index]? =
      if patch.offset ≤ index ∧ index < patch.offset + patch.bytes.length then
        patch.bytes[index - patch.offset]?
      else
        buffer.bytes[index]? := by
  have hcontent := content_store h
  have hfits : patch.offset + patch.bytes.length ≤ buffer.size := by
    by_contra hlarge
    rw [store?, if_neg hlarge] at h
    cases h
  have hbytes : after.bytes = buffer.bytes.take patch.offset ++ patch.bytes
      ++ buffer.bytes.drop (patch.offset + patch.bytes.length) := by
    rw [bytes, hcontent, toList_storeFrom (by rwa [size_content])]
    rfl
  have htake : (buffer.bytes.take patch.offset).length = patch.offset := by
    rw [List.length_take, length_bytes]
    omega
  rw [hbytes, List.append_assoc]
  by_cases hbefore : index < patch.offset
  · rw [List.getElem?_append_left (by omega), List.getElem?_take_of_lt hbefore, if_neg (by omega)]
  · rw [List.getElem?_append_right (by omega), htake]
    by_cases hinside : index < patch.offset + patch.bytes.length
    · rw [List.getElem?_append_left (by omega), if_pos (by omega)]
    · rw [List.getElem?_append_right (by omega), List.getElem?_drop, if_neg (by omega)]
      congr 1
      omega

/-! ## Encoding -/

/-- The byte belongs to the push constant. -/
def PushConstantSlot.Covers (slot : PushConstantSlot) (index : Nat) : Prop :=
  slot.offset.toNat ≤ index ∧ index < slot.finish

theorem Packed.start_le_finish {start finish : Nat} {slots : List PushConstantSlot}
    (h : Packed start slots finish) : start ≤ finish := by
  induction slots generalizing start with
  | nil => exact Nat.le_of_eq h.symm
  | cons slot rest ih =>
    obtain ⟨align, size, -, -, -, hstart, -⟩ := h.1
    have hrest := ih h.2
    unfold PushConstantSlot.finish at hrest
    omega

/-- Types that can be push constants have one to four words. -/
theorem words_of_std430 {ty : ValueType} {align size : UInt32}
    (h : ty.std430 = some (align, size)) :
    size.toNat = 4 * (size.toNat / 4) ∧ 1 ≤ size.toNat / 4 ∧ size.toNat / 4 ≤ 4 := by
  unfold ValueType.std430 at h
  split at h <;> cases h <;> decide

theorem Cell.length_bytes (cell : Cell) : cell.bytes.length = 16 := rfl

/-- The bytes of a push constant are those of the first words of its cell. -/
theorem take_bytes_of_placed {slot : PushConstantSlot} {start : Nat} (h : slot.PlacedAfter start)
    (cell : Cell) :
    (cell.bytes.take slot.size.toNat).length = slot.size.toNat ∧
      cell.bytes.take slot.size.toNat =
        (cell.words.take (slot.size.toNat / 4)).flatMap Binary32.wordBytes := by
  obtain ⟨align, size, hty, hsize, -⟩ := h
  obtain ⟨hwords, -, hcount⟩ := words_of_std430 hty
  rw [hsize]
  refine ⟨?_, ?_⟩
  · rw [List.length_take, Cell.length_bytes]
    omega
  · rw [← take_flatMap_wordBytes, ← hwords]
    rfl

/-- One push constant is stored, if there is room for it, and changes just the bytes that belong to
it. -/
theorem store_pushConstant {slot : PushConstantSlot} {start : Nat} (hplaced : slot.PlacedAfter start)
    {buffer : BlockBuffer} (hfits : slot.finish ≤ buffer.size) (cell : Cell) :
    ∃ after, buffer.store?
        { offset := slot.offset.toNat, bytes := cell.bytes.take slot.size.toNat } 0 = some after ∧
      after.size = buffer.size ∧
      (∀ index, slot.Covers index →
        after.bytes[index]? = cell.bytes[index - slot.offset.toNat]?) ∧
      ∀ index, ¬ slot.Covers index → after.bytes[index]? = buffer.bytes[index]? := by
  obtain ⟨hlength, -⟩ := take_bytes_of_placed hplaced cell
  have hroom : slot.offset.toNat + (cell.bytes.take slot.size.toNat).length ≤ buffer.size := by
    rwa [hlength]
  obtain ⟨after, hafter⟩ : ∃ after, buffer.store?
      { offset := slot.offset.toNat, bytes := cell.bytes.take slot.size.toNat } 0 = some after :=
    ⟨_, if_pos hroom⟩
  have hbytes := BlockBuffer.getElem?_store hafter
  simp only [hlength] at hbytes
  refine ⟨after, hafter, BlockBuffer.size_store hafter, fun index hcovers => ?_,
    fun index huncovered => ?_⟩
  · obtain ⟨hoffset, hfinish⟩ := hcovers
    unfold PushConstantSlot.finish at hfinish
    rw [hbytes index, if_pos ⟨hoffset, hfinish⟩, List.getElem?_take_of_lt (by omega)]
  · rw [hbytes index]
    exact if_neg huncovered

/-- Push constants that are packed are all stored, if there is room up to their end. Each keeps its own
bytes, since the later ones begin after it, and all other bytes stay as they were. -/
theorem encodeInto_packed (current : ParameterStore) {constants : List RegisteredPushConstant}
    {start finish : Nat} (hpacked : Packed start (constants.map (·.slot)) finish)
    {buffer : BlockBuffer} (hfits : finish ≤ buffer.size) :
    ∃ after, Shader.encodeInto current (constants.map (·.slot)) (constants.map (·.cell)) buffer =
        some after ∧
      after.size = buffer.size ∧
      (∀ registered ∈ constants, ∀ index, registered.slot.Covers index →
        after.bytes[index]? =
          (current.cell registered.cell).bytes[index - registered.slot.offset.toNat]?) ∧
      ∀ index, (∀ registered ∈ constants, ¬ registered.slot.Covers index) →
        after.bytes[index]? = buffer.bytes[index]? := by
  induction constants generalizing start buffer with
  | nil => exact ⟨buffer, rfl, rfl, by simp, fun _ _ => rfl⟩
  | cons first rest ih =>
    obtain ⟨hplaced, hrest⟩ := hpacked
    obtain ⟨stored, hstored, hsize, hcovered, huncovered⟩ :=
      store_pushConstant hplaced (Nat.le_trans hrest.start_le_finish hfits) (current.cell first.cell)
    obtain ⟨after, hafter, hafterSize, hlater, houtside⟩ := ih hrest (hsize ▸ hfits)
    refine ⟨after, ?_, hafterSize.trans hsize, ?_, ?_⟩
    · rw [List.map_cons, List.map_cons, Shader.encodeInto]
      exact Option.bind_eq_some_iff.2 ⟨stored, hstored, hafter⟩
    · intro registered hmem index hcovers
      rcases List.mem_cons.1 hmem with rfl | hmem
      · -- The later constants begin after this one, so they leave its bytes as they are.
        rw [houtside index fun later hmem hlaterCovers => ?_]
        · exact hcovered index hcovers
        · have hstart : registered.slot.finish ≤ later.slot.offset.toNat :=
            hrest.start_le (List.mem_map_of_mem hmem)
          have hend : index < registered.slot.finish := hcovers.2
          have hoffset : later.slot.offset.toNat ≤ index := hlaterCovers.1
          omega
      · exact hlater registered hmem index hcovers
    · intro index hnone
      rw [houtside index fun later hmem => hnone later (List.mem_cons_of_mem first hmem)]
      exact huncovered index (hnone first List.mem_cons_self)

/-! ## The Buffer of a Compiled Shader -/

/-- The buffer shows the push constants of a shader with the given parameters, and zeros elsewhere. -/
structure EncodedConstants (shader : Shader) (current : ParameterStore) (bytes : List UInt8) :
    Prop where
  /-- The buffer has as many bytes as the push constants take. -/
  length_eq : bytes.length = shader.pushConstantSize.toNat
  /-- Every push constant lies in the buffer. -/
  finish_le : ∀ registered ∈ shader.pushConstants, registered.slot.finish ≤ bytes.length
  /-- A push constant is shown as the first words of its cell, as many as its size allows. -/
  bytes_eq : ∀ registered ∈ shader.pushConstants,
    (bytes.drop registered.slot.offset.toNat).take registered.slot.size.toNat =
      ((current.cell registered.cell).words.take (registered.slot.size.toNat / 4)).flatMap
        Binary32.wordBytes
  /-- These words can be read back. -/
  readWords_eq : ∀ registered ∈ shader.pushConstants,
    readWords ((bytes.drop registered.slot.offset.toNat).take registered.slot.size.toNat) =
      (current.cell registered.cell).words.take (registered.slot.size.toNat / 4)
  /-- What belongs to no push constant is zero. -/
  zero_of_uncovered : ∀ index < bytes.length,
    (∀ registered ∈ shader.pushConstants, ¬ registered.slot.Covers index) → bytes[index]? = some 0

/-- The push constants of both stages are packed as one. -/
theorem compile_packed {m : Model} {input : CompileInput} {shader : Shader}
    (h : (m.compile input).outcome = .ok shader) :
    Packed 0 (shader.pushConstants.map (·.slot)) shader.pushConstantSize.toNat := by
  obtain ⟨hvertex, hfragment, -⟩ := compile_registrations h
  have hvertexPacked : PackedConstants 0 shader.vertex.registry :=
    hvertex.keep (fun _ _ hstep => hstep.packedConstants) rfl
  have hfragmentPacked :
      PackedConstants shader.vertex.registry.pushConstantSize.toNat shader.fragment.registry :=
    hfragment.keep (fun _ _ hstep => hstep.packedConstants) rfl
  rw [Shader.pushConstants, List.map_append]
  exact packed_append_iff.2 ⟨_, hvertexPacked, hfragmentPacked⟩

theorem Packed.finish_le {start finish : Nat} {slots : List PushConstantSlot}
    (h : Packed start slots finish) {slot : PushConstantSlot} (hmem : slot ∈ slots) :
    slot.finish ≤ finish ∧ ∃ before, slot.PlacedAfter before := by
  induction slots generalizing start with
  | nil => cases hmem
  | cons first rest ih =>
    rcases List.mem_cons.1 hmem with rfl | hmem
    · exact ⟨h.2.start_le_finish, start, h.1⟩
    · exact ih h.2 hmem

/-- A buffer of zeros into which packed push constants are stored shows them. -/
theorem encodedConstants_of_packed {shader : Shader}
    (hpacked : Packed 0 (shader.pushConstants.map (·.slot)) shader.pushConstantSize.toNat)
    (current : ParameterStore) :
    ∃ buffer, shader.encoded current = some buffer ∧
      EncodedConstants shader current buffer.bytes := by
  obtain ⟨buffer, hencode, hsize, hcovered, huncovered⟩ :=
    encodeInto_packed current hpacked
      (Nat.le_refl ({ size := shader.pushConstantSize.toNat } : BlockBuffer).size)
  have hlength : buffer.bytes.length = shader.pushConstantSize.toNat := by
    rw [BlockBuffer.length_bytes, hsize]
  have hwindow : ∀ registered ∈ shader.pushConstants,
      (buffer.bytes.drop registered.slot.offset.toNat).take registered.slot.size.toNat =
        ((current.cell registered.cell).words.take (registered.slot.size.toNat / 4)).flatMap
          Binary32.wordBytes := by
    intro registered hmem
    obtain ⟨-, before, hplaced⟩ := hpacked.finish_le (List.mem_map_of_mem hmem)
    obtain ⟨-, hwords⟩ := take_bytes_of_placed hplaced (current.cell registered.cell)
    rw [← hwords]
    -- Byte by byte, up to the size of the push constant.
    refine List.ext_getElem? fun index => ?_
    rw [List.getElem?_take, List.getElem?_take, List.getElem?_drop]
    split
    · next hindex =>
      rw [hcovered registered hmem _ ⟨Nat.le_add_right _ _, Nat.add_lt_add_left hindex _⟩,
        Nat.add_sub_cancel_left]
    · rfl
  refine ⟨buffer, hencode, hlength, ?_, hwindow, ?_, ?_⟩
  · intro registered hmem
    rw [hlength]
    exact (hpacked.finish_le (List.mem_map_of_mem hmem)).1
  · intro registered hmem
    rw [hwindow registered hmem, readWords_flatMap]
  · intro index hindex hnone
    rw [huncovered index hnone]
    have hzeros : ({ size := shader.pushConstantSize.toNat } : BlockBuffer).bytes =
        List.replicate shader.pushConstantSize.toNat 0 := Array.toList_replicate ..
    rw [hzeros, List.getElem?_replicate, if_pos (hlength ▸ hindex)]

/-- Encoding push constants. After a model has compiled and cells have been set any number of times,
whoever holds them, the push constants are written into a buffer that may hold anything: the buffer gets
as many bytes as they take, each push constant of either stage shows the first words of its cell at
that moment and can be read back whatever the others are, and all other bytes are zero. The cell of a
push constant is the one that a node of its stage gave with it, and its value is what the changes under
its number have made of it. -/
theorem compile_push_constant_bytes {m : Model} {input : CompileInput} {shader : Shader}
    (h : (m.compile input).outcome = .ok shader) (updates : List (Nat × CellValue))
    (out : List UInt8) :
    (∃ bytes, shader.writePushConstants (input.parameters.setCells updates) out = some bytes ∧
      EncodedConstants shader (input.parameters.setCells updates) bytes) ∧
    ∀ registered ∈ shader.pushConstants,
      (∃ node ∈ (m.graph registered.slot.stage).nodes, ∃ constant,
        node.setup.MayMake (.addPushConstant constant) ∧
          registered.IsFor constant registered.slot.stage) ∧
      (registered.cell < input.parameters.cells.length →
        (input.parameters.setCells updates).cell registered.cell =
          (updates.filter (·.1 == registered.cell)).foldl (fun cell update => cell.set update.2)
            (input.parameters.cell registered.cell)) := by
  refine ⟨?_, fun registered hmem =>
    ⟨compile_pushConstants_asked h registered hmem, fun hcell => cell_setCells hcell updates⟩⟩
  obtain ⟨buffer, hencode, hencoded⟩ :=
    encodedConstants_of_packed (compile_packed h) (input.parameters.setCells updates)
  refine ⟨buffer.bytes, ?_, hencoded⟩
  rw [Shader.writePushConstants_eq, Shader.encodePushConstants, hencode]
  rfl

/-- A float and a vector in the vertex stage, and in the fragment stage a float that shows the same
cell as the first. -/
def sharedConstants : Design where
  name := "shared"
  vertex :=
    [.library (.endpoint (.pushConstant { var := { name := "uTime", ty := .float }, cell := 0 })),
      .library (.endpoint (.pushConstant { var := { name := "uTint", ty := .vec3 }, cell := 1 }))]
  fragment :=
    [.library (.endpoint (.pushConstant { var := { name := "uFade", ty := .float }, cell := 0 }))]

/-- Two cells, the second with something in its last word. -/
def sharedCells : ParameterStore where
  cells := [{}, { c3 := 7 }]

/-- The first cell is set twice, and of the second the first two words are set. -/
def sharedUpdates : List (Nat × CellValue) :=
  [(0, .int 5), (1, .ivec2 1 2), (0, .int 258)]

/-- Both floats show the first cell as it was set last, twelve bytes before the vector are zero, and of
the cell of the vector the last word is left out. -/
theorem sharedConstants_bytes :
    ∃ shader bytes, (sharedConstants.model.compile
        { target := .vulkan, parameters := sharedCells }).outcome = .ok shader ∧
      shader.writePushConstants (sharedCells.setCells sharedUpdates) [255, 255] = some bytes ∧
      bytes = [2, 1, 0, 0] ++ List.replicate 12 0 ++ [1, 0, 0, 0, 2, 0, 0, 0, 0, 0, 0, 0]
        ++ [2, 1, 0, 0] ∧
      EncodedConstants shader (sharedCells.setCells sharedUpdates) bytes := by
  have hcompiles : (sharedConstants.model.compile
      { target := .vulkan, parameters := sharedCells }).outcome.toOption.map (fun shader =>
      shader.writePushConstants (sharedCells.setCells sharedUpdates) [255, 255]) =
        some (some ([2, 1, 0, 0] ++ List.replicate 12 0 ++ [1, 0, 0, 0, 2, 0, 0, 0, 0, 0, 0, 0]
          ++ [2, 1, 0, 0])) := by
    decide +kernel
  obtain ⟨shader, hshader, hwritten⟩ := exists_ok_of_map_eq hcompiles
  obtain ⟨⟨bytes, hbytes, hencoded⟩, -⟩ :=
    compile_push_constant_bytes hshader sharedUpdates [255, 255]
  exact ⟨shader, bytes, hshader, hbytes, Option.some.inj (hbytes.symm.trans hwritten), hencoded⟩

end ShaderWeave
