import ShaderWeave.Geometry.Vector
import ShaderWeave.Random.Shuffle

/-!
# Sample Kernel and Noise

Ambient occlusion looks at samples in a hemisphere around each point. The kernel of samples is cosine
weighted around the third axis, with lengths that grow quadratically and are shuffled, so that every
leading part of it covers all lengths. A small texture of random rotations turns the kernel from pixel
to pixel.
-/

namespace ShaderWeave.AmbientOcclusion

/-- Number of samples of the kernel. -/
def kernelSize : Nat := 64

/-- Width and height of the noise texture in texels. -/
def noiseSize : Nat := 4

/-- The ratio of a circle's circumference to its diameter. -/
def pi : Binary32 := ⟨0x40490fdb⟩

/-- A word with its bits in reverse order. -/
def reverseBits (word : UInt32) : UInt32 :=
  (List.range 32).foldl (fun reversed i => (reversed <<< 1) ||| ((word >>> i.toUInt32) &&& 1)) 0

/-- The binary digits of a word reflected at the binary point. -/
def radicalInverse (word : UInt32) : Binary32 :=
  Binary32.ofUInt32 (reverseBits word) * ⟨0x2f800000⟩

/-- Point `i` of `n` points spread evenly over the unit square. -/
def hammersley (i n : UInt32) : Vec2 :=
  ⟨Binary32.ofUInt32 i / Binary32.ofUInt32 n, radicalInverse i⟩

/-- Length of sample `i` of `n`, before the lengths are shuffled. -/
def sampleLength (i n : UInt32) : Binary32 :=
  let ratio := Binary32.ofUInt32 i / Binary32.ofUInt32 n
  let least : Binary32 := ⟨0x3dcccccd⟩
  least + ratio * ratio * (.one - least)

/-- Direction of sample `i` of `n`. -/
def sampleDirection (i n : UInt32) : Vec3 :=
  let point := hammersley i n
  let phi := ⟨0x40c90fdb⟩ * point.x
  let cosTheta := (.one - point.y).sqrt
  let sinTheta := (.one - cosTheta * cosTheta).sqrt
  Vec3.normalizeOr ⟨sinTheta * phi.cos, sinTheta * phi.sin, cosTheta⟩ .unitZ

/-- A kernel of `n` samples. -/
def generateKernel (n : Nat) : List Vec3 :=
  let indices := (List.range n).map Nat.toUInt32
  let lengths := shuffle (.ofSeed 17) (indices.map fun i => sampleLength i n.toUInt32)
  List.zipWith (fun i length => (sampleDirection i n.toUInt32).scale length) indices lengths

/-- A number between minus one and one as a byte. -/
def toUnsignedByte (x : Binary32) : UInt8 :=
  ((x * ⟨0x3f000000⟩ + ⟨0x3f000000⟩) * ⟨0x437f0000⟩).toByte

/-- The texels of the noise texture, four bytes each: cosine and sine of an angle, zero, and opaque. -/
def noiseTexture : List UInt8 :=
  let angles := (List.range (noiseSize * noiseSize)).map fun i =>
    pi * Binary32.ofUInt32 i.toUInt32 / ⟨0x41000000⟩
  (shuffle (.ofSeed 29) angles).flatMap fun angle =>
    [toUnsignedByte angle.cos, toUnsignedByte angle.sin, 0, 255]

end ShaderWeave.AmbientOcclusion
