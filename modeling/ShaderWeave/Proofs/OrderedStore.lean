import ShaderWeave.Proofs.ExactLayout
import ShaderWeave.Proofs.PushConstantBytes

/-!
# Blocks as Ordered Stores

A block is written by a sequence of writes, each of which is stored or refused, and a refused one does
not end the sequence. Whatever the sequence is, the block then is a store with one cell for each element
of each member: a cell holds the value that was stored in it last, and what is in no cell is zero.

The argument has three parts. What is said to a write depends on the members and on the member written
last, and on nothing else. The cells of a layout do not overlap, so a write that is stored changes one of
them and leaves the others. Both together are kept by every write, and so hold after any sequence.

## Main definitions

* `Std140.encoding`: the bytes of a value, read off its columns.
* `BlockShape.Refuses`, `BlockShape.Accepts`: what is said to a write after the member written last.
* `BlockShape.attempt`: writes made one after another, whatever is said to them.
* `BlockShape.Tracks shape last buffer`: the cursor is at the member written last.
* `BlockShape.Contains shape stored bytes`: the bytes are those of a store after the given writes.

## Main results

* `refuses_or_accepts`, `Refuses.unique`: a write is refused for one reason, or it is accepted.
* `BlockLayout.Conforms.cells_disjoint`: different cells do not overlap.
* `Stores.answerWrite`: what one write does to a store.
* `exists_attempt`: what a sequence of writes does.
* `writes_stored_in_order`: both, for every sequence and every write after it.
-/

namespace ShaderWeave

open Std140

/-! ## Encodings -/

/-- The columns of a value, each with the words of its components; a scalar or vector is one column. -/
def Datum.columns : Datum → List (List UInt32)
  | float x => [[x.bits]]
  | int n => [[n.toUInt32]]
  | vec2 v => [[v.x.bits, v.y.bits]]
  | ivec2 x y => [[x.toUInt32, y.toUInt32]]
  | vec3 v => [[v.x.bits, v.y.bits, v.z.bits]]
  | vec4 v => [[v.x.bits, v.y.bits, v.z.bits, v.w.bits]]
  | mat3 m => [m.x, m.y, m.z].map fun column => [column.x.bits, column.y.bits, column.z.bits]
  | mat4 m => [m.x, m.y, m.z, m.w].map fun column =>
    [column.x.bits, column.y.bits, column.z.bits, column.w.bits]

namespace Std140

/-- A byte of a value in a block: columns begin every sixteen bytes, components every four, and their
bytes stand with the least significant one first. Where no component is, the byte is zero. -/
def byteAt (d : Datum) (index : Nat) : UInt8 :=
  let word := (d.columns[index / 16]?.bind (·[index % 16 / 4]?)).getD 0
  UInt8.ofNat (word.toNat / 256 ^ (index % 4))

/-- The bytes of a value in a block. -/
def encoding (d : Datum) : List UInt8 :=
  (List.range (Std140.size d.ty)).map (byteAt d)

end Std140

theorem Binary32.wordBytes_eq (word : UInt32) :
    wordBytes word = (List.range 4).map fun place => UInt8.ofNat (word.toNat / 256 ^ place) := by
  have hbyte : ∀ (byte : UInt8) (n : Nat), byte.toNat = n % 256 → byte = UInt8.ofNat n := by
    intro byte n h
    apply UInt8.toNat.inj
    rw [h, UInt8.toNat_ofNat']
  have hrange : List.range 4 = [0, 1, 2, 3] := rfl
  simp only [wordBytes, hrange, List.map_cons, List.map_nil, List.cons.injEq, and_true]
  refine ⟨hbyte _ _ ?_, hbyte _ _ ?_, hbyte _ _ ?_, hbyte _ _ ?_⟩ <;>
    simp only [UInt32.toNat_toUInt8, UInt32.toNat_shiftRight, Nat.shiftRight_eq_div_pow,
      UInt32.reduceToNat, Nat.reduceMod, Nat.reducePow, Nat.div_one]

/-- What is written of a value is its encoding. -/
theorem Datum.bytes_eq_encoding (d : Datum) : d.bytes = encoding d := by
  rw [bytes, funext Binary32.wordBytes_eq]
  cases d <;> rfl

/-! ## What Is Said to a Write -/

/-- The element that a write names; without an index it is the first one. -/
def Write.element (w : Write) : Nat :=
  (w.index.getD 0).toNat

/-- Why a write is refused, if the member at position `last` was the last one written. The reasons are
in the order in which they are looked for: each supposes that none before it applies. -/
inductive BlockShape.Refuses (shape : BlockShape) (last : Option Nat) (w : Write) :
    WriteError → Prop where
  /-- No member has the name. -/
  | unknownMember (hnone : ∀ member ∈ shape.layout.members, member.name ≠ w.member) :
      Refuses shape last w (.unknownMember shape.name w.member)
  /-- The value has another type than the member. -/
  | typeMismatch {position : Nat} {member : Member}
      (hmember : shape.layout.members[position]? = some member) (hname : member.name = w.member)
      (hty : member.ty ≠ w.value.ty) :
      Refuses shape last w (.typeMismatch shape.name w.member member.ty w.value.ty)
  /-- The member lies before the one written last. -/
  | outOfOrder {position previous : Nat} {member previousMember : Member}
      (hmember : shape.layout.members[position]? = some member) (hname : member.name = w.member)
      (hty : member.ty = w.value.ty) (hlast : last = some previous)
      (hprevious : shape.layout.members[previous]? = some previousMember)
      (horder : position < previous) :
      Refuses shape last w (.outOfOrder shape.name w.member previousMember.name)
  /-- An element is named, and the member is not an array. -/
  | notAnArray {position : Nat} {member : Member} {index : UInt32}
      (hmember : shape.layout.members[position]? = some member) (hname : member.name = w.member)
      (hty : member.ty = w.value.ty) (horder : ∀ previous, last = some previous → previous ≤ position)
      (hindex : w.index = some index) (hlen : member.arrayLen = none) :
      Refuses shape last w (.indexOutOfRange shape.name w.member index 1)
  /-- An element is named that the array does not have. -/
  | outOfRange {position : Nat} {member : Member} {index len : UInt32}
      (hmember : shape.layout.members[position]? = some member) (hname : member.name = w.member)
      (hty : member.ty = w.value.ty) (horder : ∀ previous, last = some previous → previous ≤ position)
      (hindex : w.index = some index) (hlen : member.arrayLen = some len) (hrange : len ≤ index) :
      Refuses shape last w (.indexOutOfRange shape.name w.member index len)

/-- A write to the member at a position is not refused. -/
structure BlockShape.Accepts (shape : BlockShape) (last : Option Nat) (w : Write) (position : Nat)
    (member : Member) : Prop where
  /-- The member is there. -/
  member_eq : shape.layout.members[position]? = some member
  /-- It has the name. -/
  name_eq : member.name = w.member
  /-- It has the type of the value. -/
  ty_eq : member.ty = w.value.ty
  /-- It does not lie before the one written last. -/
  order : ∀ previous, last = some previous → previous ≤ position
  /-- An element is named only if it is one of an array. -/
  index : ∀ i, w.index = some i → ∃ len, member.arrayLen = some len ∧ i < len

namespace BlockShape

variable {shape : BlockShape} {last : Option Nat} {w : Write}

/-- A write is refused or accepted. -/
theorem refuses_or_accepts (shape : BlockShape) (w : Write)
    (hlast : ∀ previous, last = some previous → previous < shape.layout.members.length) :
    (∃ error, shape.Refuses last w error) ∨
      ∃ position member, shape.Accepts last w position member := by
  by_cases hknown : ∃ member ∈ shape.layout.members, member.name = w.member
  swap
  · exact .inl ⟨_, .unknownMember fun member hmem hname => hknown ⟨member, hmem, hname⟩⟩
  obtain ⟨member, hmem, hname⟩ := hknown
  obtain ⟨position, hmember⟩ := List.getElem?_of_mem hmem
  by_cases hty : member.ty = w.value.ty
  swap
  · exact .inl ⟨_, .typeMismatch hmember hname hty⟩
  by_cases horder : ∀ previous, last = some previous → previous ≤ position
  swap
  · simp only [not_forall, Nat.not_le] at horder
    obtain ⟨previous, hprevious, hlt⟩ := horder
    have hthere := List.getElem?_eq_getElem (hlast previous hprevious)
    exact .inl ⟨_, .outOfOrder hmember hname hty hprevious hthere hlt⟩
  cases hindex : w.index with
  | none =>
    refine .inr ⟨position, member, hmember, hname, hty, horder, fun i hi => ?_⟩
    rw [hindex] at hi
    cases hi
  | some index =>
    cases hlen : member.arrayLen with
    | none => exact .inl ⟨_, .notAnArray hmember hname hty horder hindex hlen⟩
    | some len =>
      by_cases hrange : len ≤ index
      · exact .inl ⟨_, .outOfRange hmember hname hty horder hindex hlen hrange⟩
      · refine .inr ⟨position, member, hmember, hname, hty, horder, fun i hi => ?_⟩
        rw [hindex] at hi
        cases hi
        exact ⟨len, hlen, UInt32.not_le.1 hrange⟩

theorem member?_of_getElem? (hnames : (shape.layout.members.map (·.name)).Nodup) {position : Nat}
    {member : Member} (hmember : shape.layout.members[position]? = some member) :
    shape.member? member.name = some (member, position) := by
  obtain ⟨hlt, rfl⟩ := List.getElem?_eq_some_iff.1 hmember
  have hsplit : shape.layout.members = shape.layout.members.take position ++
      shape.layout.members[position] :: shape.layout.members.drop (position + 1) := by
    rw [List.getElem_cons_drop, List.take_append_drop]
  rw [member?_eq_some hsplit hnames, List.length_take_of_le (Nat.le_of_lt hlt)]

theorem member?_eq_none (hnone : ∀ member ∈ shape.layout.members, member.name ≠ w.member) :
    shape.member? w.member = none := by
  refine List.find?_eq_none.2 ?_
  rintro ⟨member, position⟩ hmem
  simpa using hnone member (List.fst_mem_of_mem_zipIdx hmem)

/-- A write of the right type to a member that is not too early depends on its element only. -/
theorem locate_of_member (hnames : (shape.layout.members.map (·.name)).Nodup) {position : Nat}
    {member : Member} (hmember : shape.layout.members[position]? = some member)
    (hname : member.name = w.member) (hty : member.ty = w.value.ty)
    (horder : ∀ previous, last = some previous → previous ≤ position) :
    shape.locate (last.getD 0) w = (shape.element member w.index).map fun element =>
      (position, member.offset.toNat + element.toNat * member.stride.toNat) := by
  have hcursor : ¬ position < last.getD 0 := by
    cases last with
    | none => exact Nat.not_lt_zero _
    | some previous => exact Nat.not_lt.2 (horder previous rfl)
  unfold locate
  rw [← hname, member?_of_getElem? hnames hmember]
  simp only [ne_eq, hty, not_true_eq_false, ↓reduceIte, hcursor]
  cases shape.element member w.index <;> rfl

/-- The reasons to refuse a write are found. -/
theorem locate_of_refuses (hnames : (shape.layout.members.map (·.name)).Nodup) {error : WriteError}
    (h : shape.Refuses last w error) : shape.locate (last.getD 0) w = .error error := by
  cases h with
  | unknownMember hnone =>
    unfold locate
    rw [member?_eq_none hnone]
  | typeMismatch hmember hname hty =>
    unfold locate
    rw [← hname, member?_of_getElem? hnames hmember]
    simp only [ne_eq, hty, not_false_eq_true, ↓reduceIte]
  | outOfOrder hmember hname hty hlast hprevious horder =>
    unfold locate
    rw [← hname, member?_of_getElem? hnames hmember]
    simp only [ne_eq, hty, not_true_eq_false, ↓reduceIte, hlast, Option.getD_some, horder,
      memberName, hprevious, Option.map_some]
  | notAnArray hmember hname hty horder hindex hlen =>
    rw [locate_of_member hnames hmember hname hty horder, hindex, ← hname]
    simp only [element, hlen, Except.map]
  | outOfRange hmember hname hty horder hindex hlen hrange =>
    rw [locate_of_member hnames hmember hname hty horder, hindex, ← hname]
    simp only [element, hlen, UInt32.not_lt.2 hrange, ↓reduceIte, Except.map]

/-- A write that is accepted goes to the element that it names. -/
theorem locate_of_accepts (hnames : (shape.layout.members.map (·.name)).Nodup) {position : Nat}
    {member : Member} (h : shape.Accepts last w position member) :
    shape.locate (last.getD 0) w =
      .ok (position, member.offset.toNat + w.element * member.stride.toNat) := by
  rw [locate_of_member hnames h.member_eq h.name_eq h.ty_eq h.order, Write.element]
  cases hindex : w.index with
  | none => rfl
  | some index =>
    obtain ⟨len, hlen, hlt⟩ := h.index index hindex
    simp only [element, hlen, hlt, ↓reduceIte, Except.map, Option.getD_some]

/-- Of the reasons to refuse a write, at most one applies. -/
theorem Refuses.unique (hnames : (shape.layout.members.map (·.name)).Nodup) {error other : WriteError}
    (h : shape.Refuses last w error) (hother : shape.Refuses last w other) : error = other := by
  have hlocate := locate_of_refuses hnames h
  rw [locate_of_refuses hnames hother] at hlocate
  cases hlocate
  rfl

/-- None of them applies to a write that is accepted. -/
theorem Accepts.not_refuses (hnames : (shape.layout.members.map (·.name)).Nodup) {position : Nat}
    {member : Member} (h : shape.Accepts last w position member) (error : WriteError) :
    ¬ shape.Refuses last w error := by
  intro hrefuses
  have hlocate := locate_of_refuses hnames hrefuses
  rw [locate_of_accepts hnames h] at hlocate
  cases hlocate

theorem Accepts.element_lt {position : Nat} {member : Member}
    (h : shape.Accepts last w position member) (hlen : member.arrayLen ≠ some 0) :
    w.element < member.elementCount.toNat := by
  have helement : shape.element member w.index = .ok (w.index.getD 0) := by
    cases hindex : w.index with
    | none => rfl
    | some index =>
      obtain ⟨len, hsome, hlt⟩ := h.index index hindex
      simp only [element, hsome, hlt, ↓reduceIte, Option.getD_some]
  exact BlockShape.element_lt hlen helement

end BlockShape

/-! ## Cells -/

/-- First byte of an element of a member. -/
def Member.elementStart (member : Member) (element : Nat) : Nat :=
  member.offset.toNat + element * member.stride.toNat

theorem BlockBuffer.cursor_store {buffer after : BlockBuffer} {patch : Patch} {position : Nat}
    (h : buffer.store? patch position = some after) : after.cursor = position := by
  unfold store? at h
  split at h
  · cases h
    rfl
  · cases h

/-- A store replaces the bytes at its place. -/
theorem BlockBuffer.slice_store_self {buffer after : BlockBuffer} {patch : Patch} {position : Nat}
    (h : buffer.store? patch position = some after) :
    (after.bytes.drop patch.offset).take patch.bytes.length = patch.bytes := by
  refine List.ext_getElem? fun index => ?_
  by_cases hindex : index < patch.bytes.length
  · rw [List.getElem?_take_of_lt hindex, List.getElem?_drop, getElem?_store h, if_pos (by omega),
      Nat.add_sub_cancel_left]
  · rw [List.getElem?_eq_none (by rw [List.length_take]; omega), List.getElem?_eq_none (by omega)]

/-- A store leaves the bytes at other places. -/
theorem BlockBuffer.slice_store_of_disjoint {buffer after : BlockBuffer} {patch : Patch}
    {position start count : Nat} (h : buffer.store? patch position = some after)
    (hdisjoint : start + count ≤ patch.offset ∨ patch.offset + patch.bytes.length ≤ start) :
    (after.bytes.drop start).take count = (buffer.bytes.drop start).take count := by
  refine List.ext_getElem? fun index => ?_
  by_cases hindex : index < count
  · rw [List.getElem?_take_of_lt hindex, List.getElem?_take_of_lt hindex, List.getElem?_drop,
      List.getElem?_drop, getElem?_store h, if_neg (by omega)]
  · rw [List.getElem?_eq_none (by rw [List.length_take]; omega),
      List.getElem?_eq_none (by rw [List.length_take]; omega)]

namespace BlockLayout.Conforms

variable {vars : List Variable} {layout : BlockLayout}

theorem size_le_stride (h : layout.Conforms vars) {member : Member} (hmem : member ∈ layout.members) :
    Std140.size member.ty ≤ member.stride.toNat := by
  have hstride := h.stride member hmem
  split at hstride
  · exact hstride.le
  · exact Nat.le_of_eq hstride.symm

/-- A cell lies inside its member. -/
theorem cell_le_finish (h : layout.Conforms vars) {member : Member} (hmem : member ∈ layout.members)
    {element : Nat} (helement : element < member.elementCount.toNat) :
    member.elementStart element + Std140.size member.ty ≤ member.finish := by
  have hlength := h.size_le_stride hmem
  have hnext : (element + 1) * member.stride.toNat ≤ member.size.toNat := by
    rw [h.memberSize member hmem, Nat.mul_comm member.stride.toNat]
    exact Nat.mul_le_mul_right _ helement
  rw [Nat.add_one_mul] at hnext
  unfold Member.elementStart Member.finish
  omega

/-- Different cells do not overlap. -/
theorem cells_disjoint (h : layout.Conforms vars) {position other : Nat} {member otherMember : Member}
    (hmember : layout.members[position]? = some member)
    (hother : layout.members[other]? = some otherMember) {element otherElement : Nat}
    (helement : element < member.elementCount.toNat)
    (hotherElement : otherElement < otherMember.elementCount.toNat)
    (hne : ¬ (position = other ∧ element = otherElement)) :
    member.elementStart element + Std140.size member.ty ≤ otherMember.elementStart otherElement ∨
      otherMember.elementStart otherElement + Std140.size otherMember.ty ≤
        member.elementStart element := by
  have hfinish := h.cell_le_finish (List.mem_of_getElem? hmember) helement
  have hotherFinish := h.cell_le_finish (List.mem_of_getElem? hother) hotherElement
  have hstart : member.offset.toNat ≤ member.elementStart element := Nat.le_add_right _ _
  have hotherStart : otherMember.offset.toNat ≤ otherMember.elementStart otherElement :=
    Nat.le_add_right _ _
  obtain ⟨hposition, rfl⟩ := List.getElem?_eq_some_iff.1 hmember
  obtain ⟨hotherPosition, rfl⟩ := List.getElem?_eq_some_iff.1 hother
  have hpairwise := List.pairwise_iff_getElem.1 h.disjoint
  rcases Nat.lt_trichotomy position other with hlt | rfl | hgt
  · have hapart := hpairwise position other hposition hotherPosition hlt
    exact .inl (by omega)
  · -- Elements of one member are a stride apart.
    have hlength := h.size_le_stride (List.getElem_mem hposition)
    unfold Member.elementStart
    rcases Nat.lt_or_ge element otherElement with hlt | hge
    · have hnext := Nat.mul_le_mul_right layout.members[position].stride.toNat hlt
      rw [Nat.succ_mul] at hnext
      exact .inl (by omega)
    · have hgt : otherElement < element := by omega
      have hnext := Nat.mul_le_mul_right layout.members[position].stride.toNat hgt
      rw [Nat.succ_mul] at hnext
      exact .inr (by omega)
  · have hapart := hpairwise other position hotherPosition hposition hgt
    exact .inr (by omega)

end BlockLayout.Conforms

/-! ## Stores -/

/-- The writes that were stored, by what was said to them. -/
def storedWrites (writes : List Write) (answers : List (Except WriteError Unit)) : List Write :=
  ((writes.zip answers).filter (·.2.isOk)).map (·.1)

theorem storedWrites_append_ok {writes : List Write} {answers : List (Except WriteError Unit)}
    (hlength : answers.length = writes.length) (w : Write) :
    storedWrites (writes ++ [w]) (answers ++ [.ok ()]) = storedWrites writes answers ++ [w] := by
  simp [storedWrites, List.zip_append hlength.symm, Except.isOk, Except.toBool]

theorem storedWrites_append_error {writes : List Write} {answers : List (Except WriteError Unit)}
    (hlength : answers.length = writes.length) (w : Write) (error : WriteError) :
    storedWrites (writes ++ [w]) (answers ++ [.error error]) = storedWrites writes answers := by
  simp [storedWrites, List.zip_append hlength.symm, Except.isOk, Except.toBool]

namespace BlockShape

/-- Position of the member that a write names. -/
def position? (shape : BlockShape) (w : Write) : Option Nat :=
  shape.layout.members.findIdx? (·.name == w.member)

/-- Positions of the members that writes name, in order. -/
def positions (shape : BlockShape) (writes : List Write) : List Nat :=
  writes.filterMap shape.position?

/-- Position of the member that was written last. -/
def lastPosition (shape : BlockShape) (stored : List Write) : Option Nat :=
  (shape.positions stored).getLast?

/-- Whether a write goes to the given element of the member at a position. -/
def writesTo (shape : BlockShape) (position element : Nat) (w : Write) : Bool :=
  shape.position? w == some position && w.element == element

/-- The bytes of a block are those of a store in which the given writes were stored one after the
other. -/
structure Contains (shape : BlockShape) (stored : List Write) (bytes : List UInt8) : Prop where
  /-- The block has its size. -/
  length_eq : bytes.length = shape.layout.size.toNat
  /-- An element holds the encoding of the last value that was stored in it, and zeros if there is
  none. -/
  element_eq : ∀ position member element, shape.layout.members[position]? = some member →
    element < member.elementCount.toNat →
      (bytes.drop (member.elementStart element)).take (Std140.size member.ty) =
        (((stored.filter (shape.writesTo position element)).getLast?).map fun w =>
          encoding w.value).getD (List.replicate (Std140.size member.ty) 0)
  /-- What belongs to no element is zero. -/
  elsewhere : ∀ index < shape.layout.size.toNat,
    (∀ member ∈ shape.layout.members, ∀ element < member.elementCount.toNat,
      ¬ (member.elementStart element ≤ index ∧
        index < member.elementStart element + Std140.size member.ty)) →
      bytes[index]? = some 0

/-- The answer to a write. -/
def answerWrite (shape : BlockShape) (w : Write) :
    EStateM UpdateFailure UpdateState (Except WriteError Unit) :=
  shape.answer (.write w)

/-- Make writes one after another, whatever is said to them: the answers and what is left behind. -/
def attempt (shape : BlockShape) (writes : List Write) :
    EStateM.Result UpdateFailure UpdateState (List (Except WriteError Unit)) :=
  (writes.mapM shape.answerWrite).run { buffer := shape.blank, records := [] }

/-- What a block is after the given writes were stored: a store of them, with the cursor at the member
written last. -/
structure Stores (shape : BlockShape) (stored : List Write) (buffer : BlockBuffer) : Prop where
  /-- The bytes. -/
  contains : shape.Contains stored buffer.bytes
  /-- The cursor. -/
  cursor_eq : buffer.cursor = (shape.lastPosition stored).getD 0
  /-- No member was written after a later one. -/
  ordered : (shape.positions stored).Pairwise (· ≤ ·)

/-- The block has its size, and its cursor is at the member written last. -/
structure Tracks (shape : BlockShape) (last : Option Nat) (buffer : BlockBuffer) : Prop where
  /-- The size. -/
  size_eq : buffer.size = shape.layout.size.toNat
  /-- The cursor. -/
  cursor_eq : buffer.cursor = last.getD 0
  /-- The member written last is there. -/
  last_lt : ∀ previous, last = some previous → previous < shape.layout.members.length

variable {shape : BlockShape} {writes stored : List Write} {w : Write} {buffer : BlockBuffer}

theorem attempt_append_singleton {answers : List (Except WriteError Unit)} {state next : UpdateState}
    {answer : Except WriteError Unit} (h : shape.attempt writes = .ok answers state)
    (hanswer : shape.answerWrite w state = .ok answer next) :
    shape.attempt (writes ++ [w]) = .ok (answers ++ [answer]) next := by
  have hone : [w].mapM shape.answerWrite state = .ok [answer] next := by
    rw [List.mapM_cons, List.mapM_nil]
    change EStateM.bind (shape.answerWrite w) _ state = _
    simp only [EStateM.bind, hanswer]
    rfl
  unfold attempt EStateM.run at h ⊢
  rw [List.mapM_append]
  change EStateM.bind (writes.mapM shape.answerWrite) _ _ = _
  simp only [EStateM.bind, h]
  change EStateM.bind ([w].mapM shape.answerWrite) _ _ = _
  simp only [EStateM.bind, hone]
  rfl

theorem position?_lt {position : Nat} (h : shape.position? w = some position) :
    position < shape.layout.members.length :=
  (List.findIdx?_eq_some_iff_getElem.1 h).1

theorem lastPosition_lt (stored : List Write) (previous : Nat)
    (h : shape.lastPosition stored = some previous) : previous < shape.layout.members.length := by
  obtain ⟨w, -, hw⟩ := List.mem_filterMap.1 (List.mem_of_getLast? h)
  exact position?_lt hw

theorem position?_eq (hnames : (shape.layout.members.map (·.name)).Nodup) {position : Nat}
    {member : Member} (hmember : shape.layout.members[position]? = some member)
    (hname : member.name = w.member) : shape.position? w = some position := by
  obtain ⟨hlt, rfl⟩ := List.getElem?_eq_some_iff.1 hmember
  refine List.findIdx?_eq_some_iff_getElem.2 ⟨hlt, by simpa using hname, fun earlier hearlier => ?_⟩
  have hne := List.pairwise_iff_getElem.1 hnames earlier position (by rw [List.length_map]; omega)
    (by rwa [List.length_map]) hearlier
  rw [List.getElem_map, List.getElem_map, hname] at hne
  simpa using hne

theorem bytes_blank (shape : BlockShape) :
    shape.blank.bytes = List.replicate shape.layout.size.toNat 0 :=
  Array.toList_replicate ..

/-- Before the first write, the store is empty. -/
theorem stores_blank {vars : List Variable} (hconforms : shape.layout.Conforms vars) :
    shape.Stores [] shape.blank := by
  refine ⟨⟨?_, ?_, ?_⟩, rfl, .nil⟩
  · rw [bytes_blank, List.length_replicate]
  · intro position member element hmember helement
    have hmem := List.mem_of_getElem? hmember
    have hroom := Nat.le_trans (hconforms.cell_le_finish hmem helement) (hconforms.inside member hmem)
    rw [bytes_blank, List.drop_replicate, List.take_replicate, Nat.min_eq_left (by omega)]
    rfl
  · intro index hindex _
    rw [bytes_blank, List.getElem?_replicate, if_pos hindex]

/-- Elements of a list that only grows are not above its last one. -/
theorem le_of_mem_of_getLast? {positions : List Nat} (h : positions.Pairwise (· ≤ ·)) {last : Nat}
    (hlast : positions.getLast? = some last) : ∀ position ∈ positions, position ≤ last := by
  obtain ⟨front, rfl⟩ := List.getLast?_eq_some_iff.1 hlast
  intro position hmem
  rcases List.mem_append.1 hmem with hmem | hmem
  · exact (List.pairwise_append.1 h).2.2 position hmem last List.mem_cons_self
  · exact Nat.le_of_eq (List.mem_singleton.1 hmem)

/-- A write that is refused changes nothing. -/
theorem write_of_refuses (hnames : (shape.layout.members.map (·.name)).Nodup) {last : Option Nat}
    (hcursor : buffer.cursor = last.getD 0) {error : WriteError} (h : shape.Refuses last w error) :
    shape.write buffer w = .refused error := by
  unfold write
  rw [hcursor, locate_of_refuses hnames h]

/-- A write that is accepted goes to its cell, and is stored if that lies in the block. -/
theorem write_of_accepts (hnames : (shape.layout.members.map (·.name)).Nodup) {last : Option Nat}
    (hcursor : buffer.cursor = last.getD 0) {position : Nat} {member : Member}
    (h : shape.Accepts last w position member) :
    shape.write buffer w =
      (buffer.store? { offset := member.elementStart w.element, bytes := w.value.bytes }
        position).elim .overrun .stored := by
  unfold write Member.elementStart
  rw [hcursor, locate_of_accepts hnames h]
  simp only
  split <;> rename_i hstore <;> rw [hstore] <;> rfl

/-- The answer to a write that is refused. -/
theorem answerWrite_of_refused {state : UpdateState} {error : WriteError}
    (h : shape.write state.buffer w = .refused error) :
    shape.answerWrite w state = .ok (.error error) state := by
  simp only [answerWrite, answer, h]
  rfl

/-- The answer to a write that is stored. -/
theorem answerWrite_of_stored {state : UpdateState} {after : BlockBuffer}
    (h : shape.write state.buffer w = .stored after) :
    shape.answerWrite w state = .ok (.ok ()) { state with buffer := after } := by
  simp only [answerWrite, answer, h]
  rfl

/-- A write that is accepted is stored if there is room for it, and the cursor moves. -/
theorem Tracks.stored_of_accepts (hnames : (shape.layout.members.map (·.name)).Nodup)
    {last : Option Nat} (h : shape.Tracks last buffer) {position : Nat} {member : Member}
    (haccepts : shape.Accepts last w position member)
    (hroom : member.elementStart w.element + Std140.size member.ty ≤ shape.layout.size.toNat) :
    ∃ after, buffer.store? { offset := member.elementStart w.element, bytes := w.value.bytes }
        position = some after ∧
      shape.write buffer w = .stored after ∧ shape.Tracks (some position) after := by
  rw [← h.size_eq, haccepts.ty_eq, ← Datum.length_bytes] at hroom
  obtain ⟨after, hstore⟩ : ∃ after, buffer.store?
      { offset := member.elementStart w.element, bytes := w.value.bytes } position = some after :=
    ⟨_, if_pos hroom⟩
  refine ⟨after, hstore, ?_, ?_, BlockBuffer.cursor_store hstore, fun previous hprevious => ?_⟩
  · rw [write_of_accepts hnames h.cursor_eq haccepts, hstore]
    rfl
  · rw [BlockBuffer.size_store hstore, h.size_eq]
  · cases hprevious
    exact (List.getElem?_eq_some_iff.1 haccepts.member_eq).1

theorem Stores.tracks (h : shape.Stores stored buffer) :
    shape.Tracks (shape.lastPosition stored) buffer := by
  refine ⟨?_, h.cursor_eq, lastPosition_lt stored⟩
  rw [← BlockBuffer.length_bytes, h.contains.length_eq]

/-- Storing a value in its cell replaces what the cell holds, and leaves the other cells. -/
theorem Contains.store {vars : List Variable} (hconforms : shape.layout.Conforms vars)
    (hnames : (shape.layout.members.map (·.name)).Nodup) (h : shape.Contains stored buffer.bytes)
    {position : Nat} {member : Member} (hmember : shape.layout.members[position]? = some member)
    (hname : member.name = w.member) (hty : member.ty = w.value.ty)
    (helement : w.element < member.elementCount.toNat) {after : BlockBuffer}
    (hstore : buffer.store?
      { offset := member.elementStart w.element, bytes := w.value.bytes } position = some after) :
    shape.Contains (stored ++ [w]) after.bytes := by
  have hposition := position?_eq hnames hmember hname
  have hlength : w.value.bytes.length = Std140.size member.ty := by
    rw [Datum.length_bytes, hty]
  refine ⟨?_, ?_, ?_⟩
  · rw [BlockBuffer.length_bytes, BlockBuffer.size_store hstore, ← BlockBuffer.length_bytes,
      h.length_eq]
  · intro other otherMember element hother hotherElement
    rw [List.filter_append]
    by_cases hsame : other = position ∧ element = w.element
    · obtain ⟨rfl, rfl⟩ := hsame
      obtain rfl : otherMember = member := Option.some.inj (hother.symm.trans hmember)
      have hself := BlockBuffer.slice_store_self hstore
      rw [hlength] at hself
      have hlast : [w].filter (shape.writesTo other w.element) = [w] := by
        simp [writesTo, hposition]
      rw [hself, hlast, List.getLast?_concat, Datum.bytes_eq_encoding]
      rfl
    · -- The cell is another one, so the write neither touches it nor counts as one to it.
      have hdisjoint := hconforms.cells_disjoint hother hmember hotherElement helement hsame
      rw [← hlength] at hdisjoint
      have hnone : [w].filter (shape.writesTo other element) = [] := by
        refine List.filter_eq_nil_iff.2 fun written hwritten hwrites => ?_
        rw [List.mem_singleton.1 hwritten, writesTo, hposition, Bool.and_eq_true, beq_iff_eq,
          beq_iff_eq, Option.some.injEq] at hwrites
        exact hsame ⟨hwrites.1.symm, hwrites.2.symm⟩
      rw [BlockBuffer.slice_store_of_disjoint hstore hdisjoint, hnone, List.append_nil]
      exact h.element_eq other otherMember element hother hotherElement
  · intro index hindex houtside
    have hnotCell := houtside member (List.mem_of_getElem? hmember) w.element helement
    rw [BlockBuffer.getElem?_store hstore, hlength, if_neg hnotCell]
    exact h.elsewhere index hindex houtside

/-- A write that is accepted is stored, and the store has it after the writes before it. -/
theorem Stores.store {vars : List Variable} (hconforms : shape.layout.Conforms vars)
    (hnames : (shape.layout.members.map (·.name)).Nodup) (h : shape.Stores stored buffer)
    {position : Nat} {member : Member}
    (haccepts : shape.Accepts (shape.lastPosition stored) w position member)
    (hnonempty : member.arrayLen ≠ some 0) :
    ∃ after, shape.write buffer w = .stored after ∧ shape.Stores (stored ++ [w]) after := by
  have hmem := List.mem_of_getElem? haccepts.member_eq
  have helement := haccepts.element_lt hnonempty
  have hroom : member.elementStart w.element + Std140.size member.ty ≤ shape.layout.size.toNat :=
    Nat.le_trans (hconforms.cell_le_finish hmem helement) (hconforms.inside member hmem)
  obtain ⟨after, hstore, hwrite, htracks⟩ := h.tracks.stored_of_accepts hnames haccepts hroom
  have hpositions : shape.positions (stored ++ [w]) = shape.positions stored ++ [position] := by
    have hposition := position?_eq hnames haccepts.member_eq haccepts.name_eq
    simp [positions, hposition]
  refine ⟨after, hwrite, ?_, ?_, ?_⟩
  · exact h.contains.store hconforms hnames haccepts.member_eq haccepts.name_eq haccepts.ty_eq
      helement hstore
  · rw [htracks.cursor_eq, lastPosition, hpositions, List.getLast?_concat]
  · rw [hpositions]
    refine List.pairwise_append.2 ⟨h.ordered, List.pairwise_singleton _ _, ?_⟩
    intro earlier hearlier later hlater
    rw [List.mem_singleton.1 hlater]
    -- The earlier positions are not above the last one, which the write does not go back behind.
    cases hlast : shape.lastPosition stored with
    | none =>
      rw [List.getLast?_eq_none_iff.1 hlast] at hearlier
      exact absurd hearlier List.not_mem_nil
    | some previous =>
      exact Nat.le_trans (le_of_mem_of_getLast? h.ordered hlast earlier hearlier)
        (haccepts.order previous hlast)

/-- What one write does to a store: it is refused for a reason and changes nothing, or it is stored. -/
theorem Stores.answerWrite {vars : List Variable} (hconforms : shape.layout.Conforms vars)
    (hnames : (shape.layout.members.map (·.name)).Nodup) (hnonempty : shape.layout.NoEmptyArrays)
    (h : shape.Stores stored buffer) (w : Write) :
    (∃ error, shape.Refuses (shape.lastPosition stored) w error ∧
      ∀ records, shape.answerWrite w { buffer, records } = .ok (.error error) { buffer, records }) ∨
    (∃ after, shape.Stores (stored ++ [w]) after ∧
      (∀ error, ¬ shape.Refuses (shape.lastPosition stored) w error) ∧
      ∀ records, shape.answerWrite w { buffer, records } =
        .ok (.ok ()) { buffer := after, records }) := by
  rcases refuses_or_accepts shape w (lastPosition_lt stored) with
    ⟨error, hrefuses⟩ | ⟨position, member, haccepts⟩
  · have hwrite := write_of_refuses hnames h.cursor_eq hrefuses
    exact .inl ⟨error, hrefuses, fun records => answerWrite_of_refused hwrite⟩
  · have hlen := hnonempty member (List.mem_of_getElem? haccepts.member_eq)
    obtain ⟨after, hwrite, hafter⟩ := h.store hconforms hnames haccepts hlen
    exact .inr ⟨after, hafter, haccepts.not_refuses hnames, fun records =>
      answerWrite_of_stored hwrite⟩

/-- After any sequence of writes, the block stores those that were not refused. -/
theorem exists_attempt {vars : List Variable} (hconforms : shape.layout.Conforms vars)
    (hnames : (shape.layout.members.map (·.name)).Nodup) (hnonempty : shape.layout.NoEmptyArrays)
    (writes : List Write) :
    ∃ answers buffer, shape.attempt writes = .ok answers { buffer, records := [] } ∧
      answers.length = writes.length ∧ shape.Stores (storedWrites writes answers) buffer := by
  induction writes using List.reverseRecOn with
  | nil => exact ⟨[], shape.blank, rfl, rfl, stores_blank hconforms⟩
  | append_singleton writes w ih =>
    obtain ⟨answers, buffer, hattempt, hlength, hstores⟩ := ih
    rcases hstores.answerWrite hconforms hnames hnonempty w with
      ⟨error, -, hanswer⟩ | ⟨after, hafter, -, hanswer⟩
    · refine ⟨answers ++ [.error error], buffer, attempt_append_singleton hattempt (hanswer []), ?_, ?_⟩
      · simp [hlength]
      · rwa [storedWrites_append_error hlength]
    · refine ⟨answers ++ [.ok ()], after, attempt_append_singleton hattempt (hanswer []), ?_, ?_⟩
      · simp [hlength]
      · rwa [storedWrites_append_ok hlength]

end BlockShape

/-- A block is an ordered store. Take a layout of members with different names and without empty arrays,
and make any writes one after another. None of them overruns; the positions of those that are stored
never decrease; and each element of each member holds the encoding of the last value that was stored in
it, all other bytes being zero. A write after that is refused exactly for the reasons of `Refuses`, seen
from the member written last, and a refused write changes neither the bytes nor the cursor. -/
theorem writes_stored_in_order {vars : List Variable} {shape : BlockShape}
    (hlayout : BlockLayout.std140? vars = some shape.layout) (hnames : (vars.map (·.name)).Nodup)
    (hnonempty : ∀ var ∈ vars, var.arrayLen ≠ some 0) (writes : List Write) :
    ∃ answers buffer, shape.attempt writes = .ok answers { buffer, records := [] } ∧
      answers.length = writes.length ∧
      (shape.positions (storedWrites writes answers)).Pairwise (· ≤ ·) ∧
      shape.Contains (storedWrites writes answers) buffer.bytes ∧
      ∀ w, ∃ answer next, shape.attempt (writes ++ [w]) =
          .ok (answers ++ [answer]) { buffer := next, records := [] } ∧
        (∀ error, answer = .error error ↔
          shape.Refuses (shape.lastPosition (storedWrites writes answers)) w error) ∧
        ((∃ error, answer = .error error) → next = buffer) := by
  have hconforms := (std140?_isStd140 hlayout).conforms
  have hmemberNames : (shape.layout.members.map (·.name)).Nodup := by
    rw [← hconforms.variables_eq, List.map_map] at hnames
    exact hnames
  have hmemberArrays : shape.layout.NoEmptyArrays := by
    intro member hmem
    refine hnonempty member.toVariable ?_
    rw [← hconforms.variables_eq]
    exact List.mem_map_of_mem hmem
  obtain ⟨answers, buffer, hattempt, hlength, hstores⟩ :=
    BlockShape.exists_attempt hconforms hmemberNames hmemberArrays writes
  refine ⟨answers, buffer, hattempt, hlength, hstores.ordered, hstores.contains, fun w => ?_⟩
  rcases hstores.answerWrite hconforms hmemberNames hmemberArrays w with
    ⟨error, hrefuses, hanswer⟩ | ⟨after, -, hrefuses, hanswer⟩
  · refine ⟨.error error, buffer, BlockShape.attempt_append_singleton hattempt (hanswer []),
      fun other => ?_, fun _ => rfl⟩
    constructor
    · intro hother
      cases hother
      exact hrefuses
    · intro hother
      rw [hrefuses.unique hmemberNames hother]
  · refine ⟨.ok (), after, BlockShape.attempt_append_singleton hattempt (hanswer []),
      fun error => ?_, ?_⟩
    · exact ⟨fun hother => (by cases hother), fun hother => absurd hother (hrefuses error)⟩
    · rintro ⟨error, herror⟩
      cases herror

/-- A block of a float, an array and a matrix of three columns. -/
def steppedMembers : List Variable :=
  [{ name := "uGain", ty := .float }, { name := "uSteps", ty := .vec3, arrayLen := some 2 },
    { name := "uTurn", ty := .mat3 }]

/-- The block with its layout. -/
def steppedShape : BlockShape :=
  { name := "Stepped", layout := (BlockLayout.std140? steppedMembers).getD default }

/-- Writes to the elements of the array, the second of which is written twice, and in between writes that
are out of order, out of range, of another type and to no member. -/
def steppedWrites : List Write :=
  [{ member := "uSteps", value := .vec3 ⟨.one, .one, .one⟩, index := some 1 },
    { member := "uGain", value := .float .one },
    { member := "uSteps", value := .vec3 ⟨.one, .zero, .zero⟩, index := some 2 },
    { member := "uSteps", value := .vec3 ⟨.zero, .zero, .one⟩, index := some 1 },
    { member := "uSteps", value := .vec4 ⟨.one, .one, .one, .one⟩ },
    { member := "uMissing", value := .int 1 },
    { member := "uSteps", value := .vec3 ⟨.zero, .one, .zero⟩ }]

/-- Of the writes to the elements of the array, the later ones are what the block holds. -/
theorem steppedWrites_stored :
    BlockLayout.std140? steppedMembers = some steppedShape.layout ∧
      (steppedMembers.map (·.name)).Nodup ∧ (∀ var ∈ steppedMembers, var.arrayLen ≠ some 0) ∧
      ∃ buffer, steppedShape.attempt steppedWrites = .ok
          [.ok (), .error (.outOfOrder "Stepped" "uGain" "uSteps"),
            .error (.indexOutOfRange "Stepped" "uSteps" 2 2), .ok (),
            .error (.typeMismatch "Stepped" "uSteps" .vec3 .vec4),
            .error (.unknownMember "Stepped" "uMissing"), .ok ()]
          { buffer, records := [] } ∧
        (buffer.bytes.drop 16).take 12 = encoding (.vec3 ⟨.zero, .one, .zero⟩) ∧
        (buffer.bytes.drop 32).take 12 = encoding (.vec3 ⟨.zero, .zero, .one⟩) := by
  have hlayout : BlockLayout.std140? steppedMembers = some steppedShape.layout := by decide
  have hnames : (steppedMembers.map (·.name)).Nodup := by decide
  have hnonempty : ∀ var ∈ steppedMembers, var.arrayLen ≠ some 0 := by decide
  obtain ⟨answers, buffer, hattempt, -, -, hcontains, -⟩ :=
    writes_stored_in_order hlayout hnames hnonempty steppedWrites
  have hanswers : ∃ computed, steppedShape.attempt steppedWrites = .ok
      [.ok (), .error (.outOfOrder "Stepped" "uGain" "uSteps"),
        .error (.indexOutOfRange "Stepped" "uSteps" 2 2), .ok (),
        .error (.typeMismatch "Stepped" "uSteps" .vec3 .vec4),
        .error (.unknownMember "Stepped" "uMissing"), .ok ()]
      { buffer := computed, records := [] } := ⟨_, rfl⟩
  obtain ⟨computed, hcomputed⟩ := hanswers
  cases hcomputed.symm.trans hattempt
  refine ⟨hlayout, hnames, hnonempty, buffer, hattempt, ?_, ?_⟩
  · exact hcontains.element_eq 1 _ 0 rfl (by decide)
  · exact hcontains.element_eq 1 _ 1 rfl (by decide)

end ShaderWeave
