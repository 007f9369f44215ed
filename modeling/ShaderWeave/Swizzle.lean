import ShaderWeave.Error

/-!
# Swizzles

A swizzle selects components of a value by their names. There are three sets of names, for positions,
colors and texture coordinates, and one swizzle takes all its names from the same set.
-/

namespace ShaderWeave

namespace Swizzle

/-- The sets of channel names; a swizzle takes its names from one of them. -/
def channelSets : List (List Char) :=
  [['x', 'y', 'z', 'w'], ['r', 'g', 'b', 'a'], ['s', 't', 'p', 'q']]

/-- The set that a channel name belongs to and its component. -/
def channel? (c : Char) : Option (Nat × Nat) :=
  channelSets.zipIdx.findSome? fun (names, set) => (names.idxOf? c).map fun i => (set, i)

/-- Whether all channels are among the first `components` of one set; `set` is the one that earlier
channels belong to. -/
def checkChannels (components : Nat) (set : Option Nat) : List Char → Bool
  | [] => true
  | c :: rest =>
    match channel? c with
    | none => false
    | some (channelSet, component) =>
      if components ≤ component || set.any (· != channelSet) then false
      else checkChannels components (some channelSet) rest

/-- Check that channels select from a value of the given type. -/
def validate (ty : ValueType) (channels : String) : Except GraphError Unit :=
  match ty.components with
  | none => .error (.invalidSwizzle channels)
  | some components =>
    if channels.utf8ByteSize = 0 ∨ 4 < channels.utf8ByteSize then .error (.invalidSwizzle channels)
    else if checkChannels components none channels.toList then .ok ()
    else .error (.invalidSwizzle channels)

end Swizzle

end ShaderWeave
