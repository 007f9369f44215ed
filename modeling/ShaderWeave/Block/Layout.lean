import ShaderWeave.Variable

/-!
# Block Layout

Where the members of a uniform block lie, under the std140 rules: members in the order of their
declaration, each at the next multiple of its alignment; elements of arrays at multiples of sixteen
bytes; the block rounded up to sixteen bytes. Sizes and offsets are 32-bit words, and members that do
not fit into a block of such a size have no layout.
-/

namespace ShaderWeave

/-- Alignment and size of one value in a uniform block. -/
def ValueType.std140 : ValueType → UInt32 × UInt32
  | .vector _ .one => (4, 4)
  | .vector _ .two => (8, 8)
  | .vector _ .three => (16, 12)
  | .vector _ .four => (16, 16)
  | .matrix .two => (16, 32)
  | .matrix .three => (16, 48)
  | .matrix .four => (16, 64)
  | .sampler _ => (0, 0)

/-- Alignment and size of one value among push constants, which hold scalars and vectors only. -/
def ValueType.std430 : ValueType → Option (UInt32 × UInt32)
  | .vector _ .one => some (4, 4)
  | .vector _ .two => some (8, 8)
  | .vector _ .three => some (16, 12)
  | .vector _ .four => some (16, 16)
  | _ => none

/-- A member of a block, with its place. -/
structure Member extends Variable where
  /-- First byte of the member in the block. -/
  offset : UInt32
  /-- Bytes from one array element to the next; the size if the member is not an array. -/
  stride : UInt32
  /-- Bytes of the member. -/
  size : UInt32
deriving DecidableEq, Inhabited

/-- What a member takes, before it has a place. -/
structure Footprint where
  /-- What the offset is a multiple of. -/
  align : UInt32
  /-- Bytes from one array element to the next. -/
  stride : UInt32
  /-- Bytes altogether. -/
  size : UInt32
deriving DecidableEq

/-- What a variable takes as a member. -/
def Variable.footprint? (var : Variable) : Option Footprint :=
  let (align, size) := var.ty.std140
  match var.arrayLen with
  | some len => do
    let stride ← Word.roundUp? size 16
    let total ← Word.mul? stride len
    return { align := 16, stride, size := total }
  | none => some { align, stride := size, size }

/-- The members of a block and its size. -/
structure BlockLayout where
  /-- The members, in order of declaration. -/
  members : List Member
  /-- Bytes of the block. -/
  size : UInt32
deriving DecidableEq, Inhabited

namespace BlockLayout

/-- A variable as a member at the first place from `start` on that fits its alignment. -/
def placeMember? (start : UInt32) (var : Variable) : Option Member := do
  let footprint ← var.footprint?
  let offset ← Word.roundUp? start footprint.align
  return { var with offset, stride := footprint.stride, size := footprint.size }

/-- The members placed one after another from `start` on, and the end of the last one. -/
def place? : (start : UInt32) → List Variable → Option (List Member × UInt32)
  | start, [] => some ([], start)
  | start, var :: rest => do
    let member ← placeMember? start var
    let finish ← Word.add? member.offset member.size
    let (members, last) ← place? finish rest
    return (member :: members, last)

/-- The layout of a block with the given members. -/
def std140? (vars : List Variable) : Option BlockLayout := do
  let (members, finish) ← place? 0 vars
  let size ← Word.roundUp? finish 16
  return { members, size }

end BlockLayout

end ShaderWeave
