import Mathlib.Algebra.GroupWithZero.Nat
import ShaderWeave.Proofs.Resources
import ShaderWeave.Proofs.Std140

/-!
# What Writes Leave in a Block

An update routine that goes through the members of a block in order, and through the elements of each
from the first one on, never writes at a place before one that it has written. So its writes only ever
add bytes at the end of what is written, zeros filling the gaps, and the block that it leaves can be
read off the values: each element at its stride, each member at its offset, and zeros elsewhere.

## Main definitions

* `BlockBuffer.Written buffer bytes`: the block holds the bytes, and zeros after them.
* `MemberContent`: values for the first elements of a member.
* `blockImage`: the bytes of a block that holds such values in its members.
* `Updating.writeAll`: the routine that makes the given writes.

## Main results

* `BlockBuffer.Written.store`: storing at the end of what is written, or after it, adds to it.
* `refresh_contents`: a routine that writes values of the right types leaves their image.
-/

namespace ShaderWeave

/-! ## Stores at the End -/

/-- What is stored replaces as many bytes from its offset on. -/
theorem toList_storeFrom {buffer : Array UInt8} {offset : Nat} {bytes : List UInt8}
    (hfits : offset + bytes.length ≤ buffer.size) :
    (storeFrom buffer offset bytes).toList =
      buffer.toList.take offset ++ bytes ++ buffer.toList.drop (offset + bytes.length) := by
  induction bytes generalizing buffer offset with
  | nil => simp [storeFrom]
  | cons byte rest ih =>
    rw [List.length_cons] at hfits
    have hlt : offset < buffer.toList.length := by
      rw [Array.length_toList]
      omega
    have hrest := @ih (buffer.setIfInBounds offset byte) (offset + 1)
      (by rw [Array.size_setIfInBounds]; omega)
    have htake : (buffer.toList.set offset byte).take (offset + 1) =
        buffer.toList.take offset ++ [byte] := by
      rw [List.take_add_one, List.take_set_of_le (Nat.le_refl offset), List.getElem?_set_self hlt]
      rfl
    rw [storeFrom, hrest, Array.toList_setIfInBounds, htake,
      List.drop_set_of_lt (by omega : offset < offset + 1 + rest.length), List.length_cons,
      show offset + 1 + rest.length = offset + (rest.length + 1) by omega]
    simp

namespace BlockBuffer

/-- The block holds the bytes, and zeros after them. -/
structure Written (buffer : BlockBuffer) (bytes : List UInt8) : Prop where
  /-- The bytes fit. -/
  fits : bytes.length ≤ buffer.size
  /-- What the block holds. -/
  bytes_eq : buffer.bytes = bytes.rightpad buffer.size 0

variable {buffer : BlockBuffer} {bytes : List UInt8}

/-- Zeros may count as written. -/
theorem Written.pad (h : buffer.Written bytes) (length : Nat) (hfits : length ≤ buffer.size) :
    buffer.Written (bytes.rightpad length 0) := by
  have hlength := h.fits
  refine ⟨by rw [List.length_rightpad]; omega, ?_⟩
  rw [h.bytes_eq]
  simp only [List.rightpad, List.length_append, List.length_replicate, List.append_assoc,
    List.replicate_append_replicate]
  congr 2
  omega

/-- A store that begins at the end of what is written, or after it, adds to it. -/
theorem Written.store (h : buffer.Written bytes) (patch : Patch) (position : Nat)
    (hoffset : bytes.length ≤ patch.offset)
    (hfits : patch.offset + patch.bytes.length ≤ buffer.size) :
    ∃ after, buffer.store? patch position = some after ∧ after.size = buffer.size ∧
      after.cursor = position ∧ after.Written (bytes.rightpad patch.offset 0 ++ patch.bytes) := by
  refine ⟨_, if_pos hfits, rfl, rfl, ?_⟩
  have hstored := toList_storeFrom
    (show patch.offset + patch.bytes.length ≤ buffer.content.size by rwa [size_content])
  have hcontent : buffer.content.toList = bytes.rightpad buffer.size 0 := h.bytes_eq
  refine ⟨by simp only [List.length_append, List.length_rightpad]; omega, ?_⟩
  change (storeFrom buffer.content patch.offset patch.bytes).toList = _
  rw [hstored, hcontent]
  -- Before the offset there are the bytes with zeros, and after the patch nothing but zeros.
  simp only [List.rightpad, List.take_append, List.drop_append, List.take_replicate,
    List.drop_replicate, List.length_append, List.length_replicate]
  rw [List.take_of_length_le hoffset, List.drop_eq_nil_of_le (by omega), List.nil_append]
  congr 2
  · congr 2
    omega
  · omega

end BlockBuffer

/-! ## Contents -/

/-- Values for the first elements of a member; a member that is not an array has one. -/
structure MemberContent where
  /-- The member. -/
  var : Variable
  /-- The values. -/
  entries : List Datum

/-- The write of a value to an element of a member. -/
def Write.elementWrite (var : Variable) (index : Nat) (entry : Datum) : Write where
  member := var.name
  value := entry
  index := var.arrayLen.map fun _ => UInt32.ofNat index

namespace MemberContent

/-- The values have the type of the member, and there are no more of them than elements. -/
structure Fits (content : MemberContent) : Prop where
  /-- The types. -/
  types : ∀ entry ∈ content.entries, entry.ty = content.var.ty
  /-- The number. -/
  count : content.entries.length ≤ content.var.elementCount.toNat

theorem Fits.single {var : Variable} {entry : Datum} (hty : entry.ty = var.ty)
    (hcount : 1 ≤ var.elementCount.toNat) : Fits ⟨var, [entry]⟩ :=
  ⟨fun other hmem => by rwa [List.mem_singleton.1 hmem], hcount⟩

theorem Fits.map {α : Type} {var : Variable} {max : UInt32} {entry : α → Datum} {items : List α}
    (hlen : var.arrayLen = some max) (hty : ∀ item, (entry item).ty = var.ty)
    (hcount : items.length ≤ max.toNat) : Fits ⟨var, items.map entry⟩ := by
  constructor
  · intro other hmem
    obtain ⟨item, -, rfl⟩ := List.mem_map.1 hmem
    exact hty item
  · rw [List.length_map, Variable.elementCount, hlen]
    exact hcount

/-- The writes of values to the elements from `start` on. -/
def elementWrites (var : Variable) : (start : Nat) → List Datum → List Write
  | _, [] => []
  | start, entry :: rest => .elementWrite var start entry :: elementWrites var (start + 1) rest

/-- The writes of the values. -/
def writes (content : MemberContent) : List Write :=
  elementWrites content.var 0 content.entries

end MemberContent

namespace Std140

/-- The least multiple of `align` that is not below `start`. -/
def roundUp (start align : Nat) : Nat :=
  (start + align - 1) / align * align

/-- What the offset of a member is a multiple of. -/
def memberAlignment (var : Variable) : Nat :=
  if var.arrayLen.isSome then 16 else alignment var.ty

/-- Bytes from one element of a member to the next. -/
def elementStride (var : Variable) : Nat :=
  if var.arrayLen.isSome then roundUp (size var.ty) 16 else size var.ty

/-- Bytes of a member. -/
def memberSize (var : Variable) : Nat :=
  elementStride var * var.elementCount.toNat

end Std140

open Std140

/-- The bytes of a member that holds the values: each at its stride, and zeros elsewhere. -/
def MemberContent.image (content : MemberContent) : List UInt8 :=
  (content.entries.flatMap fun entry =>
    entry.bytes.rightpad (elementStride content.var) 0).rightpad (memberSize content.var) 0

/-- The bytes up to the end of the last member, after what is there already: each member at the first
multiple of its alignment, and zeros between them. -/
def imageFrom (before : List UInt8) : List MemberContent → List UInt8
  | [] => before
  | content :: contents =>
    imageFrom
      (before.rightpad (roundUp before.length (memberAlignment content.var)) 0 ++ content.image)
      contents

/-- The bytes of a block that holds the values. -/
def blockImage (contents : List MemberContent) : List UInt8 :=
  let bytes := imageFrom [] contents
  bytes.rightpad (roundUp bytes.length 16) 0

theorem LeastMultiple.eq_roundUp {align start multiple : Nat}
    (h : LeastMultiple align start multiple) (halign : 0 < align) :
    multiple = roundUp start align := by
  have hdivision := Nat.div_add_mod (start + align - 1) align
  have hrest := Nat.mod_lt (start + align - 1) halign
  have hbound := h.least (roundUp start align) (Nat.dvd_mul_left _ _) (by
    rw [roundUp, Nat.mul_comm]
    omega)
  obtain ⟨⟨count, rfl⟩, hle, -⟩ := h
  refine Nat.le_antisymm hbound ?_
  rw [roundUp, Nat.mul_comm]
  refine Nat.mul_le_mul_left align (Nat.le_of_lt_succ ?_)
  rw [Nat.div_lt_iff_lt_mul halign, Nat.succ_mul, Nat.mul_comm count]
  omega

theorem Std140.memberAlignment_pos (var : Variable) : 0 < memberAlignment var := by
  unfold memberAlignment
  split
  · decide
  · rcases var.ty with ⟨_, _ | _ | _ | _⟩ | _ | _ <;> simp [alignment]

namespace Std140.Placed

variable {start : Nat} {var : Variable} {member : Member}

theorem offset_eq (h : Placed start var member) :
    member.offset.toNat = roundUp start (memberAlignment var) :=
  h.offset.eq_roundUp (memberAlignment_pos var)

theorem stride_eq (h : Placed start var member) :
    member.stride.toNat = elementStride var := by
  have hstride := h.stride
  unfold elementStride
  split at hstride
  · rw [if_pos ‹_›]
    exact hstride.eq_roundUp (by decide)
  · rwa [if_neg ‹_›]

theorem size_eq (h : Placed start var member) : member.size.toNat = memberSize var := by
  rw [h.size, h.stride_eq, memberSize]

/-- An element is not longer than the distance to the next one. -/
theorem size_le_stride (h : Placed start var member) :
    Std140.size member.ty ≤ member.stride.toNat := by
  rw [show member.ty = var.ty from congrArg Variable.ty h.variable_eq]
  have hstride := h.stride
  split at hstride
  · exact hstride.le
  · exact Nat.le_of_eq hstride.symm

end Std140.Placed

theorem Datum.length_bytes (d : Datum) : d.bytes.length = Std140.size d.ty := by
  cases d <;> rfl

theorem length_flatMap_rightpad {entries : List Datum} {stride : Nat}
    (h : ∀ entry ∈ entries, entry.bytes.length ≤ stride) :
    (entries.flatMap fun entry => entry.bytes.rightpad stride 0).length =
      entries.length * stride := by
  induction entries with
  | nil => simp
  | cons entry rest ih =>
    have hrest := ih fun other hmem => h other (List.mem_cons_of_mem entry hmem)
    have hentry := h entry List.mem_cons_self
    rw [List.flatMap_cons, List.length_append, List.length_rightpad, hrest, List.length_cons,
      Nat.add_one_mul, Nat.max_eq_left hentry, Nat.add_comm]

theorem rightpad_append (first rest : List UInt8) (length : Nat) :
    (first ++ rest).rightpad (first.length + length) 0 = first ++ rest.rightpad length 0 := by
  simp [List.rightpad, Nat.add_sub_add_left]

/-- Members take no less than their sizes. -/
theorem Std140.Laid.add_sum_le {start finish : Nat} {vars : List Variable} {members : List Member}
    (h : Laid start vars members finish) : start + (vars.map memberSize).sum ≤ finish := by
  induction h with
  | nil => exact Nat.le_refl _
  | cons hplaced _ ih =>
    have hoffset := hplaced.offset.le
    have hsize := hplaced.size_eq
    rw [List.map_cons, List.sum_cons]
    omega

theorem Std140.Laid.le {start finish : Nat} {vars : List Variable} {members : List Member}
    (h : Laid start vars members finish) : start ≤ finish :=
  Nat.le_trans (Nat.le_add_right _ _) h.add_sum_le

/-! ## Members Side by Side -/

theorem MemberContent.length_image {content : MemberContent} (hfits : content.Fits) :
    content.image.length = memberSize content.var := by
  have hstride : ∀ entry ∈ content.entries, entry.bytes.length ≤ elementStride content.var := by
    intro entry hmem
    rw [Datum.length_bytes, hfits.types entry hmem, elementStride]
    split
    · unfold roundUp
      omega
    · exact Nat.le_refl _
  have hentries : content.entries.length * elementStride content.var ≤ memberSize content.var := by
    rw [memberSize, Nat.mul_comm]
    exact Nat.mul_le_mul_left _ hfits.count
  rw [image, List.length_rightpad, length_flatMap_rightpad hstride, Nat.max_eq_left hentries]

/-- A single value fills its member. -/
theorem MemberContent.image_single {var : Variable} {entry : Datum} (hlen : var.arrayLen = none)
    (hty : entry.ty = var.ty) : image ⟨var, [entry]⟩ = entry.bytes := by
  have hlength : entry.bytes.length = Std140.size var.ty := by rw [Datum.length_bytes, hty]
  simp [image, memberSize, elementStride, Variable.elementCount, hlen, ← hlength, List.rightpad]

/-- Elements of whole rows of sixteen bytes lie in an array without gaps. -/
theorem Std140.elementStride_of_rows {var : Variable} {len : UInt32} (hlen : var.arrayLen = some len)
    (hrows : 16 ∣ Std140.size var.ty) : elementStride var = Std140.size var.ty := by
  rw [elementStride, hlen, if_pos Option.isSome_some, roundUp]
  omega

theorem Std140.memberSize_of_rows {var : Variable} {len : UInt32} (hlen : var.arrayLen = some len)
    (hrows : 16 ∣ Std140.size var.ty) : memberSize var = Std140.size var.ty * len.toNat := by
  rw [memberSize, elementStride_of_rows hlen hrows, Variable.elementCount, hlen]
  rfl

/-- The bytes of an array that holds the values in its first elements, up to its end. -/
def arrayBytes (size : Nat) (entries : List Datum) : List UInt8 :=
  (entries.flatMap Datum.bytes).rightpad size 0

theorem MemberContent.image_of_rows {α : Type} {var : Variable} {len : UInt32} {entry : α → Datum}
    {items : List α} (hlen : var.arrayLen = some len) (hrows : 16 ∣ Std140.size var.ty)
    (hty : ∀ item, (entry item).ty = var.ty) :
    image ⟨var, items.map entry⟩ =
      arrayBytes (Std140.size var.ty * len.toNat) (items.map entry) := by
  have hentries : (items.map entry).flatMap
      (fun entry => entry.bytes.rightpad (elementStride var) 0) =
        (items.map entry).flatMap Datum.bytes := by
    refine List.flatMap_congr fun other hmem => ?_
    obtain ⟨item, -, rfl⟩ := List.mem_map.1 hmem
    have hlength : (entry item).bytes.length = elementStride var := by
      rw [Datum.length_bytes, hty, elementStride_of_rows hlen hrows]
    simp [List.rightpad, hlength]
  rw [image, hentries, memberSize_of_rows hlen hrows, arrayBytes]

/-- From `start` on, each variable begins where the one before it ends. -/
def Gapless : Nat → List Variable → Prop
  | _, [] => True
  | start, var :: rest => memberAlignment var ∣ start ∧ Gapless (start + memberSize var) rest

/-- Without gaps, the images of the members lie side by side. -/
theorem imageFrom_of_gapless {before : List UInt8} {contents : List MemberContent}
    (hgapless : Gapless before.length (contents.map (·.var)))
    (hfits : ∀ content ∈ contents, content.Fits) :
    imageFrom before contents = before ++ contents.flatMap (·.image) := by
  induction contents generalizing before with
  | nil => simp [imageFrom]
  | cons content rest ih =>
    obtain ⟨haligned, hrest⟩ := hgapless
    have hfirst := hfits content List.mem_cons_self
    have hmultiple : LeastMultiple (memberAlignment content.var) before.length before.length :=
      ⟨haligned, Nat.le_refl _, fun _ _ hle => hle⟩
    have hround := hmultiple.eq_roundUp (memberAlignment_pos content.var)
    have hpad : before.rightpad before.length 0 = before := by simp [List.rightpad]
    rw [imageFrom, ← hround, hpad, ih _ fun other hmem => hfits other (List.mem_cons_of_mem _ hmem),
      List.flatMap_cons, List.append_assoc]
    rwa [List.length_append, MemberContent.length_image hfirst]

theorem length_flatMap_image {contents : List MemberContent}
    (hfits : ∀ content ∈ contents, content.Fits) :
    (contents.flatMap (·.image)).length = ((contents.map (·.var)).map memberSize).sum := by
  induction contents with
  | nil => rfl
  | cons content rest ih =>
    have hrest := ih fun other hmem => hfits other (List.mem_cons_of_mem content hmem)
    rw [List.flatMap_cons, List.length_append, hrest, List.map_cons, List.map_cons, List.sum_cons,
      MemberContent.length_image (hfits content List.mem_cons_self)]

/-- Without gaps, a block holds the images of its members side by side, up to a whole number of rows. -/
theorem blockImage_of_gapless {contents : List MemberContent}
    (hgapless : Gapless 0 (contents.map (·.var))) (hfits : ∀ content ∈ contents, content.Fits) :
    blockImage contents = (contents.flatMap (·.image)).rightpad
      (roundUp ((contents.map (·.var)).map memberSize).sum 16) 0 := by
  have hmembers := @imageFrom_of_gapless [] contents hgapless hfits
  rw [List.nil_append] at hmembers
  rw [blockImage, hmembers, length_flatMap_image hfits]

/-- A whole number of rows is not filled up. -/
theorem blockImage_of_rows {contents : List MemberContent}
    (hgapless : Gapless 0 (contents.map (·.var))) (hfits : ∀ content ∈ contents, content.Fits)
    (hrows : 16 ∣ ((contents.map (·.var)).map memberSize).sum) :
    blockImage contents = contents.flatMap (·.image) := by
  have hround : roundUp ((contents.map (·.var)).map memberSize).sum 16 =
      (contents.flatMap (·.image)).length := by
    rw [length_flatMap_image hfits, roundUp]
    omega
  rw [blockImage_of_gapless hgapless hfits, hround]
  simp [List.rightpad]

/-! ## Runs -/

/-- The routine that makes the writes, in order. -/
def Updating.writeAll : List Write → Updating Unit
  | [] => .done ()
  | w :: rest => do
    Updating.write w
    Updating.writeAll rest

theorem Updating.writeAll_append (first rest : List Write) :
    writeAll (first ++ rest) = (do writeAll first; writeAll rest) := by
  induction first with
  | nil => rfl
  | cons w first ih =>
    rw [List.cons_append, writeAll, writeAll, ih]
    simp only [bind_assoc]

namespace BlockShape

variable {shape : BlockShape} {state : UpdateState}

theorem run_writeAll_cons {w : Write} {rest : List Write} {buffer : BlockBuffer}
    (h : shape.write state.buffer w = .stored buffer) :
    shape.run (.writeAll (w :: rest)) state =
      shape.run (.writeAll rest) { state with buffer } := by
  change EStateM.bind (shape.answer (.write w)) _ state = _
  simp only [EStateM.bind, answer, h]
  rfl

/-- The element of a member that a write of the values names. -/
theorem element_eq {member : Member} {index : Nat} (h : index < member.elementCount.toNat) :
    shape.element member (member.arrayLen.map fun _ => UInt32.ofNat index) =
      .ok (UInt32.ofNat index) := by
  unfold Variable.elementCount at h
  cases hlen : member.arrayLen with
  | none =>
    rw [hlen] at h
    obtain rfl : index = 0 := Nat.lt_one_iff.1 h
    rfl
  | some len =>
    rw [hlen] at h
    have hlt : UInt32.ofNat index < len := by
      rw [UInt32.lt_iff_toNat_lt, UInt32.toNat_ofNat_of_lt' (Nat.lt_trans h len.toNat_lt)]
      exact h
    simp [element, hlen, hlt]

/-- Where members have different names, each is found by its name. -/
theorem member?_eq_some {before after : List Member} {member : Member}
    (hmembers : shape.layout.members = before ++ member :: after)
    (hnames : (shape.layout.members.map (·.name)).Nodup) :
    shape.member? member.name = some (member, before.length) := by
  unfold member?
  rw [hmembers, List.zipIdx_append, List.find?_append, List.find?_eq_none.2]
  · simp
  · -- No member before this one has its name.
    rintro ⟨other, position⟩ hmem heq
    rw [hmembers, List.map_append, List.map_cons] at hnames
    have hother : other ∈ before := List.fst_mem_of_mem_zipIdx hmem
    have hname : other.name = member.name := by simpa using heq
    exact (List.nodup_append.1 hnames).2.2 _ (List.mem_map_of_mem hother) _ List.mem_cons_self hname

/-- A write of one value to the next element of a member adds its bytes. -/
theorem write_element {member : Member} {position index : Nat} {entry : Datum}
    {buffer : BlockBuffer} {bytes : List UInt8}
    (hmember : shape.member? member.name = some (member, position))
    (hty : entry.ty = member.ty) (hindex : index < member.elementCount.toNat)
    (hstride : Std140.size member.ty ≤ member.stride.toNat)
    (hsize : member.offset.toNat + member.stride.toNat * member.elementCount.toNat ≤ buffer.size)
    (hcursor : buffer.cursor ≤ position) (hwritten : buffer.Written bytes)
    (hbytes : bytes.length = member.offset.toNat + index * member.stride.toNat) :
    ∃ after, shape.write buffer (.elementWrite member.toVariable index entry) = .stored after ∧
      after.size = buffer.size ∧ after.cursor = position ∧
      after.Written (bytes ++ entry.bytes.rightpad member.stride.toNat 0) := by
  -- The element ends before the member does, and so before the block does.
  have hend : (index + 1) * member.stride.toNat ≤
      member.stride.toNat * member.elementCount.toNat := by
    rw [Nat.mul_comm member.stride.toNat]
    exact Nat.mul_le_mul_right _ hindex
  rw [Nat.add_one_mul] at hend
  have hlength : entry.bytes.length ≤ member.stride.toNat := by
    rwa [Datum.length_bytes, hty]
  have htoNat : (UInt32.ofNat index).toNat = index :=
    UInt32.toNat_ofNat_of_lt' (Nat.lt_trans hindex (UInt32.toNat_lt _))
  have hlocate : shape.locate buffer.cursor (.elementWrite member.toVariable index entry) =
      .ok (position, bytes.length) := by
    unfold locate Write.elementWrite
    simp only [hmember, hty, ne_eq, not_true_eq_false, ↓reduceIte, Nat.not_lt.2 hcursor,
      element_eq hindex, htoNat, hbytes]
  have hfits : bytes.length + entry.bytes.length ≤ buffer.size := by omega
  obtain ⟨after, hstore, hafterSize, hafterCursor, hafter⟩ :=
    hwritten.store ⟨bytes.length, entry.bytes⟩ position (Nat.le_refl _) hfits
  refine ⟨after, ?_, hafterSize, hafterCursor, ?_⟩
  · unfold write
    rw [hlocate]
    simp only [Write.elementWrite, hstore]
  · have hpadded := hafter.pad (bytes.length + member.stride.toNat) (by omega)
    have hunpadded : bytes.rightpad bytes.length 0 = bytes := by simp [List.rightpad]
    rwa [hunpadded, rightpad_append] at hpadded

/-- Writing values to the elements of a member one after another adds their bytes, each up to the next
element. -/
theorem run_elementWrites (rest : List Write) {member : Member} {position start : Nat}
    {entries : List Datum} {bytes : List UInt8}
    (hmember : shape.member? member.name = some (member, position))
    (htypes : ∀ entry ∈ entries, entry.ty = member.ty)
    (hcount : start + entries.length ≤ member.elementCount.toNat)
    (hstride : Std140.size member.ty ≤ member.stride.toNat)
    (hsize : member.offset.toNat + member.stride.toNat * member.elementCount.toNat ≤
      state.buffer.size)
    (hcursor : state.buffer.cursor ≤ position) (hwritten : state.buffer.Written bytes)
    (hbytes : bytes.length = member.offset.toNat + start * member.stride.toNat) :
    ∃ buffer, shape.run (.writeAll
          (MemberContent.elementWrites member.toVariable start entries ++ rest)) state =
        shape.run (.writeAll rest) { state with buffer } ∧
      buffer.size = state.buffer.size ∧ buffer.cursor ≤ position ∧
      buffer.Written
        (bytes ++ entries.flatMap fun entry => entry.bytes.rightpad member.stride.toNat 0) := by
  induction entries generalizing start state bytes with
  | nil => exact ⟨state.buffer, rfl, rfl, hcursor, by simpa using hwritten⟩
  | cons entry entries ih =>
    rw [List.length_cons] at hcount
    have hty := htypes entry List.mem_cons_self
    obtain ⟨after, hwrite, hafterSize, hafterCursor, hafter⟩ :=
      write_element hmember hty (by omega) hstride hsize hcursor hwritten hbytes
    -- The bytes of the element end where the next one begins.
    have hlength : (bytes ++ entry.bytes.rightpad member.stride.toNat 0).length =
        member.offset.toNat + (start + 1) * member.stride.toNat := by
      rw [List.length_append, List.length_rightpad, Datum.length_bytes, hty, hbytes,
        Nat.max_eq_left hstride, Nat.add_one_mul]
      omega
    obtain ⟨buffer, hrun, hbufferSize, hbufferCursor, hbuffer⟩ :=
      @ih { state with buffer := after } (start + 1) _
        (fun other hmem => htypes other (List.mem_cons_of_mem entry hmem)) (by omega)
        (hafterSize ▸ hsize) (Nat.le_of_eq hafterCursor) hafter hlength
    refine ⟨buffer, ?_, hbufferSize.trans hafterSize, hbufferCursor, ?_⟩
    · rw [MemberContent.elementWrites, List.cons_append, run_writeAll_cons hwrite, hrun]
    · rwa [List.flatMap_cons, ← List.append_assoc]

/-- Writing the values of a member that lies after what is written adds zeros up to the member and then
its image. -/
theorem run_member {content : MemberContent} {member : Member} {start position : Nat}
    {bytes : List UInt8} (hplaced : Std140.Placed start content.var member)
    (hmember : shape.member? member.name = some (member, position)) (hfits : content.Fits)
    (hsize : member.offset.toNat + member.size.toNat ≤ state.buffer.size)
    (hcursor : state.buffer.cursor ≤ position) (hwritten : state.buffer.Written bytes)
    (hbytes : bytes.length = start) (rest : List Write) :
    ∃ buffer, shape.run (.writeAll (content.writes ++ rest)) state =
        shape.run (.writeAll rest) { state with buffer } ∧
      buffer.size = state.buffer.size ∧ buffer.cursor ≤ position ∧
      buffer.Written (bytes.rightpad member.offset.toNat 0 ++ content.image) ∧
      (bytes.rightpad member.offset.toNat 0 ++ content.image).length =
        member.offset.toNat + member.size.toNat := by
  have hvar : member.toVariable = content.var := hplaced.variable_eq
  have htypes : ∀ entry ∈ content.entries, entry.ty = member.ty := by
    rw [show member.ty = content.var.ty from congrArg Variable.ty hvar]
    exact hfits.types
  have hcount : content.entries.length ≤ member.elementCount.toNat := by
    rw [hvar]
    exact hfits.count
  have hstride := hplaced.size_le_stride
  have hmemberSize : member.size.toNat = member.stride.toNat * member.elementCount.toNat := by
    rw [hplaced.size, hvar]
  have hlength : (bytes.rightpad member.offset.toNat 0).length = member.offset.toNat := by
    have hstart := hplaced.offset.le
    rw [List.length_rightpad]
    omega
  have hentries : (content.entries.flatMap fun entry =>
      entry.bytes.rightpad member.stride.toNat 0).length ≤ member.size.toNat := by
    have hbound : ∀ entry ∈ content.entries, entry.bytes.length ≤ member.stride.toNat := by
      intro entry hmem
      rwa [Datum.length_bytes, htypes entry hmem]
    rw [length_flatMap_rightpad hbound, hmemberSize, Nat.mul_comm]
    exact Nat.mul_le_mul_left _ hcount
  -- Zeros up to the member, then its elements, then zeros up to its end.
  have hpadded := hwritten.pad member.offset.toNat (by omega)
  obtain ⟨buffer, hrun, hbufferSize, hbufferCursor, hbuffer⟩ :=
    run_elementWrites rest hmember htypes (show 0 + _ ≤ _ by omega) hstride (by omega) hcursor
      hpadded (by omega)
  have himage := hbuffer.pad
    ((bytes.rightpad member.offset.toNat 0).length + member.size.toNat) (by omega)
  have himageEq : content.image = (content.entries.flatMap fun entry =>
      entry.bytes.rightpad member.stride.toNat 0).rightpad member.size.toNat 0 := by
    rw [hplaced.stride_eq, hplaced.size_eq]
    rfl
  rw [rightpad_append, ← himageEq] at himage
  refine ⟨buffer, ?_, hbufferSize, hbufferCursor, himage, ?_⟩
  · rw [MemberContent.writes, ← hvar, hrun]
  · rw [List.length_append, hlength, himageEq, List.length_rightpad, Nat.max_eq_left hentries]

/-- Writing the values of all members one after another, from the first member that is not written yet,
adds their images. -/
theorem run_contents {before members : List Member} {contents : List MemberContent}
    {start finish : Nat} {bytes : List UInt8}
    (hmembers : shape.layout.members = before ++ members)
    (hnames : (shape.layout.members.map (·.name)).Nodup)
    (hlaid : Std140.Laid start (contents.map (·.var)) members finish)
    (hfits : ∀ content ∈ contents, content.Fits) (hfinish : finish ≤ state.buffer.size)
    (hcursor : state.buffer.cursor ≤ before.length) (hwritten : state.buffer.Written bytes)
    (hbytes : bytes.length = start) :
    ∃ buffer, shape.run (.writeAll (contents.flatMap (·.writes))) state =
        .ok () { state with buffer } ∧
      buffer.size = state.buffer.size ∧
      buffer.Written (imageFrom bytes contents) ∧ (imageFrom bytes contents).length = finish := by
  -- The cursor is not past the members before these, so that none of the writes is out of order.
  induction contents generalizing before members start state bytes with
  | nil =>
    cases hlaid
    exact ⟨state.buffer, rfl, rfl, hwritten, hbytes⟩
  | cons content contents ih =>
    cases hlaid with
    | @cons _ _ _ _ member others hplaced hrest =>
      have hend := hrest.le
      obtain ⟨after, hrun, hafterSize, hafterCursor, hafter, hlength⟩ :=
        run_member hplaced (member?_eq_some hmembers hnames) (hfits content List.mem_cons_self)
          (by omega) hcursor hwritten hbytes (contents.flatMap (·.writes))
      obtain ⟨buffer, hrunRest, hbufferSize, hbuffer⟩ :=
        @ih { state with buffer := after } (before ++ [member]) others _ _
          (by rw [hmembers, List.append_assoc]; rfl) hrest
          (fun other hmem => hfits other (List.mem_cons_of_mem content hmem))
          (hafterSize ▸ hfinish)
          (by rw [List.length_append]; exact Nat.le_trans hafterCursor (Nat.le_add_right _ _))
          hafter hlength
      have hoffset := hplaced.offset_eq
      rw [← hbytes] at hoffset
      rw [hoffset] at hbuffer
      refine ⟨buffer, ?_, hbufferSize.trans hafterSize, hbuffer⟩
      rw [List.flatMap_cons, hrun, hrunRest]

/-- A routine that goes through the members of a block in order and writes values that fit them leaves
the image of the values, with no error and no record. -/
theorem refresh_contents {contents : List MemberContent}
    (hlayout : BlockLayout.std140? (contents.map (·.var)) = some shape.layout)
    (hnames : (contents.map (·.var.name)).Nodup) (hfits : ∀ content ∈ contents, content.Fits) :
    ∃ buffer, shape.refresh (.writeAll (contents.flatMap (·.writes))) =
        some { buffer, error := none, records := [] } ∧
      buffer.bytes = blockImage contents := by
  obtain ⟨finish, hlaid, hsize⟩ := std140?_isStd140 hlayout
  have hmemberNames : shape.layout.members.map (·.name) = contents.map (·.var.name) := by
    have hvars := congrArg (List.map Variable.name) (members_of_std140? hlayout)
    rwa [List.map_map, List.map_map] at hvars
  have hblank : shape.blank.Written [] := by
    refine ⟨Nat.zero_le _, ?_⟩
    simp [BlockBuffer.bytes, BlockBuffer.content, blank, List.rightpad]
  obtain ⟨buffer, hrun, hbufferSize, hbuffer, hlength⟩ :=
    @run_contents shape { buffer := shape.blank, records := [] } [] shape.layout.members contents 0
      finish [] rfl (hmemberNames ▸ hnames) hlaid hfits hsize.le (Nat.le_refl 0) hblank rfl
  refine ⟨buffer, ?_, ?_⟩
  · unfold refresh
    rw [EStateM.run, hrun]
  · have hblankSize : shape.blank.size = roundUp finish 16 := hsize.eq_roundUp (by decide)
    rw [hbuffer.bytes_eq, hbufferSize, hblankSize, ← hlength]
    rfl

end BlockShape

end ShaderWeave
