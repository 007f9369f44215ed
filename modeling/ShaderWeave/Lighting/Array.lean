import ShaderWeave.Pass.Emit
import ShaderWeave.Resource.Binding

/-!
# Arrays of Lights

The lights of a draw as a uniform block, and the routines that code calls to get at one of them.
-/

namespace ShaderWeave

/-- The expressions that call the light routines. -/
structure LightCalls where
  /-- Whether radiance is scaled by the shadow factor of the light. -/
  shadowed : Bool
deriving DecidableEq, Inhabited

namespace LightCalls

/-- The vector from a position to the light with the given index. -/
def fragToLight (index position : Code) : Code :=
  .text "light_getFragToLight(" :: index ++ .text ", " :: position ++ [.text ")"]

/-- The radiance of the light with the given index. -/
def radiance (calls : LightCalls) (index toLight innerAngle : Code) : Code :=
  let call :=
    .text "light_getRadiance(" :: index ++ .text ", " :: toLight ++ .text ", " :: innerAngle
      ++ [.text ")"]
  if calls.shadowed then .text "(" :: call ++ .text " * shadowFacs[" :: index ++ [.text "])"]
  else call

end LightCalls

namespace LightArray

/-- Positions, with the kind of the light in the fourth component. -/
def positions (max : UInt32) : Variable :=
  { name := "lightPositions", ty := .vec4, arrayLen := some max }

/-- Colors, with the intensity in the fourth component. -/
def colors (max : UInt32) : Variable :=
  { name := "lightColors", ty := .vec4, arrayLen := some max }

/-- Directions, with the cosine of half the spot angle in the fourth component. -/
def directions (max : UInt32) : Variable :=
  { name := "lightDirections", ty := .vec4, arrayLen := some max }

/-- Number of active lights. -/
def count : Variable := { name := "lightCount", ty := .int }

/-- Write one entry of a member for each light, from entry `start` on. -/
def writeEach (member : String) (entry : Light → Datum) : (start : UInt32) → List Light →
    Updating Unit
  | _, [] => .done ()
  | start, light :: rest => do
    Updating.write { member, value := entry light, index := some start }
    writeEach member entry (start + 1) rest

/-- Refreshes the lights; those beyond the length of the array are left out. -/
def update (max : UInt32) : UpdateRoutine := fun draw _ => do
  let active := draw.lights.take max.toNat
  writeEach "lightPositions" (fun light => .vec4 (light.position.extend light.kind.encoded)) 0 active
  writeEach "lightColors" (fun light => .vec4 light.color) 0 active
  writeEach "lightDirections" (fun light => .vec4 (light.direction.extend light.cosHalfAngle)) 0
    active
  Updating.write { member := count.name, value := .int (Int32.ofNat active.length) }

/-- The block of an array of lights. -/
def block (max : UInt32) : BlockRequest where
  name := "Lights"
  members := [positions max, colors max, directions max, count]
  update := some (update max)

/-- Name of the routine that gives the vector to a light. -/
def fragToLightName : String := "light_getFragToLight"

/-- The routine that gives the vector to a light. -/
def fragToLightBody : String := String.intercalate "\n" [
  "vec3 light_getFragToLight(int idx, vec3 fragPos) \x7b",
  "    if (lightPositions[idx].w == 0.0) \x7b",
  "        return -lightDirections[idx].xyz;",
  "    \x7d",
  "    return lightPositions[idx].xyz - fragPos;",
  "\x7d"]

/-- Name of the routine that gives the radiance of a light. -/
def radianceName : String := "light_getRadiance"

/-- The routine that gives the radiance of a light. -/
def radianceBody : String := String.intercalate "\n" [
  "vec3 light_getRadiance(int idx, vec3 fragToLight, float innerAngle) \x7b",
  "    if (lightPositions[idx].w == 0.0) \x7b",
  "        return lightColors[idx].rgb * lightColors[idx].w;",
  "    \x7d",
  "    float dist = length(fragToLight);",
  "    if (lightPositions[idx].w == 1.0) \x7b",
  "        return lightColors[idx].rgb * lightColors[idx].w / (dist * dist);",
  "    \x7d",
  "    vec3 lightDir = -normalize(fragToLight);",
  "    float spotAng = lightDirections[idx].w;",
  "    float innerAng = spotAng + (1.0 - spotAng) * (1.0 - innerAngle);",
  "    float ang = dot(lightDir, lightDirections[idx].xyz);",
  "    float angVal = cos(clamp((innerAng - ang) / (innerAng - spotAng), 0.0, 1.0) * 3.1415927)"
    ++ " * 0.5 + 0.5;",
  "    return lightColors[idx].rgb * lightColors[idx].w / (dist * dist) * angVal;",
  "\x7d"]

/-- Adds the light routines. -/
def addRoutines : Emit Unit := do
  Emit.helper fragToLightName fragToLightBody
  Emit.helper radianceName radianceBody

end LightArray

end ShaderWeave
