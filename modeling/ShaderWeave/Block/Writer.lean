import ShaderWeave.Block.Layout
import ShaderWeave.Error
import ShaderWeave.Geometry.Matrix

/-!
# Writing Blocks

The bytes of a uniform block are written member by member, in order of declaration. A member may be
written again, as the elements of an array are, but not one before it. What is never written is zero.

A write that breaks the layout is refused and changes nothing. A write to an array of length zero that
names no element is not refused; where it would go past the end of the block it overruns, which ends
everything.
-/

namespace ShaderWeave

/-- A value to write into a block. -/
inductive Datum where
  /-- A float. -/
  | float (x : Binary32)
  /-- An integer. -/
  | int (n : Int32)
  /-- Two floats. -/
  | vec2 (v : Vec2)
  /-- Two integers. -/
  | ivec2 (x y : Int32)
  /-- Three floats. -/
  | vec3 (v : Vec3)
  /-- Four floats. -/
  | vec4 (v : Vec4)
  /-- Three columns of three floats. -/
  | mat3 (m : Mat3)
  /-- Four columns of four floats. -/
  | mat4 (m : Mat4)
deriving DecidableEq

namespace Datum

/-- Type of the value. -/
def ty : Datum → ValueType
  | float _ => .float
  | int _ => .int
  | vec2 _ => .vec2
  | ivec2 _ _ => .ivec2
  | vec3 _ => .vec3
  | vec4 _ => .vec4
  | mat3 _ => .mat3
  | mat4 _ => .mat4

/-- The 32-bit words of the value. A column of three floats is filled up to four words. -/
def words : Datum → List UInt32
  | float x => [x.bits]
  | int n => [n.toUInt32]
  | vec2 v => v.toList.map (·.bits)
  | ivec2 x y => [x.toUInt32, y.toUInt32]
  | vec3 v => v.toList.map (·.bits)
  | vec4 v => v.toList.map (·.bits)
  | mat3 m => [m.x, m.y, m.z].flatMap fun column => column.toList.map (·.bits) ++ [0]
  | mat4 m => m.toList.map (·.bits)

/-- The bytes of the value in a block. -/
def bytes (d : Datum) : List UInt8 :=
  d.words.flatMap Binary32.wordBytes

end Datum

/-- A write to a member, or to one element of an array. -/
structure Write where
  /-- Name of the member. -/
  member : String
  /-- What is written. -/
  value : Datum
  /-- Which element is written; without an index it is the first one. -/
  index : Option UInt32 := none
deriving DecidableEq

/-- A block as writes see it. -/
structure BlockShape where
  /-- Name of the block. -/
  name : String
  /-- Its members and size. -/
  layout : BlockLayout
deriving DecidableEq, Inhabited

/-- Bytes that are stored from an offset on. -/
structure Patch where
  /-- Where the first byte goes. -/
  offset : Nat
  /-- The bytes. -/
  bytes : List UInt8
deriving DecidableEq, Inhabited

/-- Store bytes one after another, the first of them at `offset`. -/
def storeFrom : (buffer : Array UInt8) → (offset : Nat) → List UInt8 → Array UInt8
  | buffer, _, [] => buffer
  | buffer, offset, byte :: rest => storeFrom (buffer.setIfInBounds offset byte) (offset + 1) rest

/-- A buffer brought to a length: what is too long is cut off, what is missing is filled with zeros. -/
def resize (buffer : List UInt8) (length : Nat) : List UInt8 :=
  (buffer.take length).rightpad length 0

/-- A buffer of the same length filled with zeros. -/
def zeroFill (buffer : List UInt8) : List UInt8 :=
  buffer.map fun _ => 0

/-- A block while it is written. -/
structure BlockBuffer where
  /-- Number of bytes. -/
  size : Nat
  /-- What has been stored, last first. -/
  patches : List Patch := []
  /-- Position of the last member that was written, zero before the first write. -/
  cursor : Nat := 0
deriving DecidableEq, Inhabited

namespace BlockBuffer

/-- The bytes as an array: zero where nothing is stored. -/
def content (buffer : BlockBuffer) : Array UInt8 :=
  buffer.patches.foldr (fun patch bytes => storeFrom bytes patch.offset patch.bytes)
    (Array.replicate buffer.size 0)

/-- The bytes. -/
def bytes (buffer : BlockBuffer) : List UInt8 :=
  buffer.content.toList

/-- What has been stored, put into a buffer of the application. -/
def copyInto (buffer : BlockBuffer) (out : List UInt8) : List UInt8 :=
  (buffer.patches.foldr (fun patch bytes => storeFrom bytes patch.offset patch.bytes)
    out.toArray).toList

/-- Store a patch, if it lies in the block, and move to the member at a position. -/
def store? (buffer : BlockBuffer) (patch : Patch) (position : Nat) : Option BlockBuffer :=
  if patch.offset + patch.bytes.length ≤ buffer.size then
    some { buffer with patches := patch :: buffer.patches, cursor := position }
  else
    none

end BlockBuffer

@[simp]
theorem size_storeFrom (buffer : Array UInt8) (offset : Nat) (bytes : List UInt8) :
    (storeFrom buffer offset bytes).size = buffer.size := by
  induction bytes generalizing buffer offset with
  | nil => rfl
  | cons byte rest ih => simp [storeFrom, ih]

@[simp]
theorem BlockBuffer.size_content (buffer : BlockBuffer) : buffer.content.size = buffer.size := by
  unfold content
  induction buffer.patches with
  | nil => simp
  | cons patch rest ih => simp [ih]

@[simp]
theorem BlockBuffer.length_bytes (buffer : BlockBuffer) : buffer.bytes.length = buffer.size := by
  simp [bytes]

theorem BlockBuffer.content_store {buffer after : BlockBuffer} {patch : Patch} {position : Nat}
    (h : buffer.store? patch position = some after) :
    after.content = storeFrom buffer.content patch.offset patch.bytes := by
  unfold store? at h
  split at h
  · cases h
    rfl
  · cases h

theorem BlockBuffer.size_store {buffer after : BlockBuffer} {patch : Patch} {position : Nat}
    (h : buffer.store? patch position = some after) : after.size = buffer.size := by
  unfold store? at h
  split at h
  · cases h
    rfl
  · cases h

theorem zeroFill_eq (buffer : List UInt8) : zeroFill buffer = List.replicate buffer.length 0 :=
  List.map_const' ..

@[simp]
theorem length_resize (buffer : List UInt8) (length : Nat) :
    (resize buffer length).length = length := by
  rw [resize, List.length_rightpad, List.length_take]
  omega

/-- An emptied buffer is filled up with nothing but zeros. -/
theorem resize_resize_zero (buffer : List UInt8) (length : Nat) :
    resize (resize buffer 0) length = List.replicate length 0 := by
  simp [resize, List.rightpad]

@[simp]
theorem BlockBuffer.length_copyInto (buffer : BlockBuffer) (out : List UInt8) :
    (buffer.copyInto out).length = out.length := by
  unfold copyInto
  induction buffer.patches with
  | nil => simp
  | cons patch rest ih => simpa using ih

/-- What is put into a buffer of zeros is the block. -/
theorem BlockBuffer.copyInto_zeros (buffer : BlockBuffer) :
    buffer.copyInto (List.replicate buffer.size 0) = buffer.bytes := by
  rw [copyInto, List.toArray_replicate]
  rfl

/-- What becomes of a write. -/
inductive WriteResult where
  /-- The value is stored. -/
  | stored (buffer : BlockBuffer)
  /-- The write breaks the layout and changes nothing. -/
  | refused (error : WriteError)
  /-- The write would go past the end of the block. -/
  | overrun
deriving DecidableEq

namespace BlockShape

/-- The block before the first write, filled with zeros. -/
def blank (shape : BlockShape) : BlockBuffer :=
  { size := shape.layout.size.toNat }

/-- The element that a write names. -/
def element (shape : BlockShape) (member : Member) : Option UInt32 → Except WriteError UInt32
  | none => .ok 0
  | some i =>
    match member.arrayLen with
    | some len =>
      if i < len then .ok i else .error (.indexOutOfRange shape.name member.name i len)
    | none => .error (.indexOutOfRange shape.name member.name i 1)

/-- The first member of the given name, with its position. -/
def member? (shape : BlockShape) (name : String) : Option (Member × Nat) :=
  shape.layout.members.zipIdx.find? fun (member, _) => member.name == name

/-- Name of the member at a position. -/
def memberName (shape : BlockShape) (position : Nat) : String :=
  (shape.layout.members[position]?.map (·.name)).getD ""

/-- Position of the member that a write names and first byte that it writes. -/
def locate (shape : BlockShape) (cursor : Nat) (w : Write) : Except WriteError (Nat × Nat) :=
  match shape.member? w.member with
  | none => .error (.unknownMember shape.name w.member)
  | some (member, position) =>
    if member.ty ≠ w.value.ty then
      .error (.typeMismatch shape.name member.name member.ty w.value.ty)
    else if position < cursor then
      .error (.outOfOrder shape.name member.name (shape.memberName cursor))
    else
      match shape.element member w.index with
      | .error error => .error error
      | .ok element =>
        .ok (position, member.offset.toNat + element.toNat * member.stride.toNat)

/-- Perform a write. -/
def write (shape : BlockShape) (buffer : BlockBuffer) (w : Write) : WriteResult :=
  match shape.locate buffer.cursor w with
  | .error error => .refused error
  | .ok (position, offset) =>
    match buffer.store? { offset, bytes := w.value.bytes } position with
    | some buffer => .stored buffer
    | none => .overrun

end BlockShape

end ShaderWeave
