import ShaderWeave.Proofs.CodeLines
import ShaderWeave.Proofs.Emission
import ShaderWeave.Lighting.Shadow

/-!
# Unrolled Loops over Lights with Shadows

The positions in the clip spaces of lights and the shadow factors are computed by loops over the lights
that are unrolled where the code is written. For any number of lights, what is written is one statement
for each light in the vertex stage, and one group of statements for each light in the fragment stage, in
increasing order.

## Main definitions

* `Shadow.projection`, `Shadow.factorStatements`: what is written for one light.
* `Shadow.projectionLine`, `Shadow.factorLines`: its lines.

## Main results

* `Emit.emission_bind`: what one routine after another writes.
* `Shadow.emission_projectEach`, `Shadow.emission_factorEach`: what the loops write.
* `Shadow.lines_projections`: the lines of the first.
* `Shadow.filter_lines_declaration`, `Shadow.filter_lines_factors`: those lines of the second that
  mention the shadow factors.
-/

namespace ShaderWeave

namespace Emit

variable {α β : Type}

/-- A statement is written before what follows it. -/
theorem emission_append (place : CodePlace) (code : Code) (next : Unit → Emit β) :
    (append code >>= next).emission place =
      { (next ()).emission place with
        statements := code :: ((next ()).emission place).statements } := rfl

/-- One routine after another writes and declares what both do. -/
theorem emission_bind {place : CodePlace} {first : Emit α} {value : α}
    (h : (first.emission place).result = .ok value) (next : α → Emit β) :
    (first >>= next).emission place =
      { result := ((next value).emission place).result
        statements := (first.emission place).statements ++ ((next value).emission place).statements
        declared := (first.emission place).declared ++ ((next value).emission place).declared } := by
  induction first with
  | done value =>
    cases h
    rfl
  | fail failure => cases h
  | call request rest ih =>
    cases request with
    | place => exact ih place h
    | append code =>
      have hrest := ih () h
      exact (emission_append place code fun _ => rest () >>= next).trans (by rw [hrest]; rfl)
    | helper name body => exact ih true h
    | declare handle =>
      cases hcheck : handle.value.checkDeclarable with
      | ok answer =>
        simp only [emission, hcheck] at h
        have hrest : emission place ((rest (.ok ())).bind next) = _ := ih (.ok ()) h
        simp only [Bind.bind, Routine.bind, emission, hcheck, hrest, List.cons_append]
      | error error =>
        simp only [emission, hcheck] at h
        have hrest : emission place ((rest (.error error)).bind next) = _ := ih (.error error) h
        simp only [Bind.bind, Routine.bind, emission, hcheck, hrest]
    | read handle ty widening => exact ih _ h
    | note note => exact ih () h

end Emit

namespace Shadow

/-! ## What the Loops Write -/

/-- An element of an array. -/
def element (name : String) (index : Nat) : String :=
  name ++ "[" ++ toString index ++ "]"

/-- The statement that projects the position for a light. -/
def projection (target : String) (matrix position : Piece) (light : Nat) : Code :=
  let place := "[" ++ toString light ++ "]"
  [target, place, " = lightMvp", place, " * (", matrix, " * ", position, ");"]

section Emissions

variable (place : CodePlace)

/-- One statement is written for each light. -/
theorem emission_projectEach (target : String) (matrix position : Piece) (count start : Nat) :
    (projectEach target matrix position count start).emission place =
      { result := .ok ()
        statements := (List.range' start count).map (projection target matrix position) } := by
  induction count generalizing start with
  | zero => rfl
  | succ count ih =>
    have hstep := Emit.emission_append place (projection target matrix position start)
      fun _ => projectEach target matrix position count (start + 1)
    rw [ih (start + 1)] at hstep
    exact hstep

/-- The statement that adds up whether a light is seen at an offset. -/
def accumulation (target : Target) (textures : Handle) (light : Nat) (offset : Vec2) : Code :=
  .text ("shadowFacs[" ++ toString light ++ "] += step(shadowCoord.z - 0.001, ")
    :: Code.sample target textures.name (some light.toUInt32)
      ["shadowCoord.xy + vec2(shadowDx * ", offset.x.literal, ", shadowDy * ", offset.y.literal, ")"]
    ++ [.text ".x);"]

theorem emission_accumulate (textures : Handle) (light : Nat) (spread : List Vec2) :
    (accumulate textures light spread).emission place =
      { result := .ok (), statements := spread.map (accumulation place.target textures light) } := by
  induction spread with
  | nil => rfl
  | cons offset rest ih =>
    have hstep := Emit.emission_append place (accumulation place.target textures light offset)
      fun _ => accumulate textures light rest
    rw [ih] at hstep
    exact hstep

/-- The rows of the block that begins the shadow factor of a light. -/
def openingRows (light : Nat) : List Code :=
  let place := "[" ++ toString light ++ "]"
  [["shadowProjPos = ifPosLightSpace", place, ";"],
    ["shadowCoord = shadowProjPos.xyz / shadowProjPos.w;"],
    ["shadowFacs", place, " = 0.0;"]]

/-- The statement that ends the shadow factor of a light. -/
def division (light : Nat) : Code :=
  ["shadowFacs", "[" ++ toString light ++ "]", " /= ", offsetCount, ";"]

/-- The statements that compute the shadow factor of a light. -/
def factorStatements (target : Target) (textures : Handle) (light : Nat) : List Code :=
  Code.block 16 (openingRows light) :: offsets.map (accumulation target textures light)
    ++ [division light]

theorem emission_factor (textures : Handle) (light : Nat) :
    (factor textures light).emission place =
      { result := .ok (), statements := factorStatements place.target textures light } := by
  have haccumulate := emission_accumulate place textures light offsets
  have hrest := Emit.emission_bind (congrArg Emission.result haccumulate)
    fun _ => Emit.append (division light)
  rw [haccumulate] at hrest
  have hstep := Emit.emission_append place (Code.block 16 (openingRows light))
    fun _ => accumulate textures light offsets >>= fun _ => Emit.append (division light)
  rw [hrest] at hstep
  exact hstep

/-- One group of statements is written for each light. -/
theorem emission_factorEach (textures : Handle) (count start : Nat) :
    (factorEach textures count start).emission place =
      { result := .ok ()
        statements := (List.range' start count).flatMap (factorStatements place.target textures) } := by
  induction count generalizing start with
  | zero => rfl
  | succ count ih =>
    have hfactor := emission_factor place textures start
    have hboth := Emit.emission_bind (congrArg Emission.result hfactor)
      fun _ => factorEach textures count (start + 1)
    rw [hfactor, ih (start + 1)] at hboth
    exact hboth

end Emissions

/-- The rows that declare the shadow factors. -/
def declarationRows (target : Target) (max : UInt32) (textures : Handle) : List Code :=
  [["float shadowFacs[", toString max, "];"],
    .text "ivec2 shadowMapSize = " :: Code.textureSize target textures.name (some 0) "0"
      ++ [.text ";"],
    ["float shadowDx = 1.5 / float(shadowMapSize.x);"],
    ["float shadowDy = 1.5 / float(shadowMapSize.y);"],
    ["vec4 shadowProjPos;"],
    ["vec3 shadowCoord;"]]

/-! ## The Lines -/

/-- The sum over the offsets is divided by their number. -/
theorem offsetCount_eq : offsetCount = "9.0" := by
  decide

/-- The line that projects the position for a light. -/
def projectionLine (matrix position : String) (light : Nat) : String :=
  element "ifPosLightSpace" light ++ " = " ++ element "lightMvp" light ++ " * (" ++ matrix ++ " * "
    ++ position ++ ");"

/-- The line that adds up whether a light is seen at an offset. -/
def accumulationLine (target : Target) (light : Nat) (offset : Vec2) : String :=
  element "shadowFacs" light ++ " += step(shadowCoord.z - 0.001, texture("
    ++ target.textureOperand "depthTextures" (some light.toUInt32)
    ++ ", shadowCoord.xy + vec2(shadowDx * " ++ offset.x.literal ++ ", shadowDy * "
    ++ offset.y.literal ++ ")).x);"

/-- The lines that compute the shadow factor of a light, of those that mention it. -/
def factorLines (target : Target) (light : Nat) : List String :=
  (element "shadowFacs" light ++ " = 0.0;") :: offsets.map (accumulationLine target light)
    ++ [element "shadowFacs" light ++ " /= 9.0;"]

section Lines

variable {target : Target}

theorem lines_projection {matrix position : Piece} (hmatrix : '\n' ∉ matrix.render.toList)
    (hposition : '\n' ∉ position.render.toList) (light : Nat) :
    (projection "ifPosLightSpace" matrix position light).lines =
      [projectionLine matrix.render position.render light] := by
  have hlight : '\n' ∉ Nat.toDigits 10 light := not_mem_toDigits light (by decide)
  refine Code.lines_of_tight ?_ (Code.tight_render ?_ rfl rfl (by decide) (by decide))
  · rw [← String.toList_inj]
    simp [projection, projectionLine, element]
  · simp [projection, hmatrix, hposition, hlight]

/-- The lines of the projections for some lights. -/
theorem lines_projections {matrix position : Piece} (hmatrix : '\n' ∉ matrix.render.toList)
    (hposition : '\n' ∉ position.render.toList) (lights : List Nat) :
    (lights.map (projection "ifPosLightSpace" matrix position)).flatMap (·.lines) =
      lights.map (projectionLine matrix.render position.render) := by
  rw [List.flatMap_map, List.map_eq_flatMap]
  exact List.flatMap_congr fun light _ => lines_projection hmatrix hposition light

theorem lines_accumulation {textures : Handle} (hname : textures.name = "depthTextures") (light : Nat)
    {offset : Vec2} (hoffset : offset ∈ offsets) :
    (accumulation target textures light offset).lines = [accumulationLine target light offset] := by
  have hlight : '\n' ∉ Nat.toDigits 10 light := not_mem_toDigits light (by decide)
  have hfeed : ∀ offset ∈ offsets,
      '\n' ∉ offset.x.literal.toList ∧ '\n' ∉ offset.y.literal.toList := by
    decide +kernel
  have hoperand : '\n' ∉ (target.textureOperand "depthTextures" (some light.toUInt32)).toList :=
    (tight_textureOperand (by decide) target _).no_feed
  have hbegins : Text.isSolidEnd
      ("shadowFacs[" ++ toString light ++ "] += step(shadowCoord.z - 0.001, ").toList.head? = true :=
    Text.isSolidEnd_iff.2 ⟨'s', by simp, by decide⟩
  refine Code.lines_of_tight ?_ (Code.tight_render ?_ rfl rfl hbegins (by decide))
  · rw [← String.toList_inj]
    simp [accumulation, accumulationLine, element, Code.sample, Code.sampleOperand, hname]
  · simpa [accumulation, Code.sample, Code.sampleOperand, hname, hlight, hfeed offset hoffset]
      using hoperand

theorem lines_division (light : Nat) :
    (division light).lines = [element "shadowFacs" light ++ " /= 9.0;"] := by
  have hlight : '\n' ∉ Nat.toDigits 10 light := not_mem_toDigits light (by decide)
  refine Code.lines_of_tight ?_ (Code.tight_render ?_ rfl rfl (by decide) (by decide))
  · rw [← String.toList_inj]
    simp [division, element, offsetCount_eq]
  · simp [division, hlight, offsetCount_eq]

theorem lines_opening (light : Nat) :
    (Code.block 16 (openingRows light)).lines =
      ["shadowProjPos = " ++ element "ifPosLightSpace" light ++ ";",
        "shadowCoord = shadowProjPos.xyz / shadowProjPos.w;",
        element "shadowFacs" light ++ " = 0.0;"] := by
  have hlight : '\n' ∉ Nat.toDigits 10 light := not_mem_toDigits light (by decide)
  refine Code.lines_block_of_tight 16 ?_ ?_
  · simp only [openingRows, List.map_cons, List.map_nil, List.cons.injEq, and_true]
    refine ⟨?_, Code.render_literal _, ?_⟩ <;> rw [← String.toList_inj] <;> simp [element]
  · simp only [openingRows, List.forall_mem_cons, List.not_mem_nil, false_implies, implies_true,
      and_true]
    refine ⟨Code.tight_render ?_ rfl rfl (by decide) (by decide),
      Code.tight_literal rfl (by decide),
      Code.tight_render ?_ rfl rfl (by decide) (by decide)⟩ <;> simp [hlight]

theorem lines_declaration {textures : Handle} (hname : textures.name = "depthTextures")
    (max : UInt32) :
    (Code.block 12 (declarationRows target max textures)).lines =
      ["float " ++ element "shadowFacs" max.toNat ++ ";",
        "ivec2 shadowMapSize = textureSize(" ++ target.textureOperand "depthTextures" (some 0)
          ++ ", 0);",
        "float shadowDx = 1.5 / float(shadowMapSize.x);",
        "float shadowDy = 1.5 / float(shadowMapSize.y);",
        "vec4 shadowProjPos;",
        "vec3 shadowCoord;"] := by
  have hprinted : toString max = toString max.toNat := rfl
  have hmax : '\n' ∉ Nat.toDigits 10 max.toNat := not_mem_toDigits _ (by decide)
  have hoperand : '\n' ∉ (target.textureOperand "depthTextures" (some 0)).toList :=
    (tight_textureOperand (by decide) target _).no_feed
  refine Code.lines_block_of_tight 12 ?_ ?_
  · simp only [declarationRows, List.map_cons, List.map_nil, List.cons.injEq, and_true]
    refine ⟨?_, ?_, Code.render_literal _, Code.render_literal _, Code.render_literal _,
      Code.render_literal _⟩ <;> rw [← String.toList_inj]
    · simp [element, hprinted]
    · simp [Code.textureSize, Code.operandSize, hname]
  · simp only [declarationRows, List.forall_mem_cons, List.not_mem_nil, false_implies, implies_true,
      and_true]
    refine ⟨Code.tight_render ?_ rfl rfl (by decide) (by decide),
      Code.tight_render ?_ rfl rfl (by decide) (by decide),
      Code.tight_literal rfl (by decide), Code.tight_literal rfl (by decide),
      Code.tight_literal rfl (by decide), Code.tight_literal rfl (by decide)⟩
    · simp [hprinted, hmax]
    · simp [Code.textureSize, Code.operandSize, hname, hoperand]

/-! ## Mentions of the Shadow Factors -/

theorem mentions_element (name : String) (index : Nat) (before after : String) :
    mentions name (before ++ (element name index ++ after)) = true := by
  simpa only [element, String.append_assoc] using
    mentions_append before name ("[" ++ toString index ++ "]" ++ after)

/-- Every line that projects a position mentions where it is stored. -/
theorem filter_projectionLines (matrix position : String) (lights : List Nat) :
    (lights.map (projectionLine matrix position)).filter (mentions "ifPosLightSpace") =
      lights.map (projectionLine matrix position) := by
  refine List.filter_eq_self.2 fun line hline => ?_
  obtain ⟨light, -, rfl⟩ := List.mem_map.1 hline
  have hmentions := mentions_element "ifPosLightSpace" light "" (" = " ++ element "lightMvp" light
    ++ " * (" ++ matrix ++ " * " ++ position ++ ");")
  simpa only [projectionLine, String.append_assoc, String.empty_append] using hmentions

/-- Of what is written for a light, the lines that mention the shadow factors. -/
theorem filter_lines_factor {textures : Handle} (hname : textures.name = "depthTextures")
    (light : Nat) :
    ((factorStatements target textures light).flatMap (·.lines)).filter (mentions "shadowFacs") =
      factorLines target light := by
  have haccumulations : (offsets.map (accumulation target textures light)).flatMap (·.lines) =
      offsets.map (accumulationLine target light) := by
    rw [List.flatMap_map, List.map_eq_flatMap]
    exact List.flatMap_congr fun offset hoffset => lines_accumulation hname light hoffset
  have hfactor (rest : String) :
      mentions "shadowFacs" (element "shadowFacs" light ++ rest) = true := by
    simpa only [String.empty_append] using mentions_element "shadowFacs" light "" rest
  -- The line that reads the position for the light has no capital F.
  have hposition : mentions "shadowFacs" ("shadowProjPos = " ++ element "ifPosLightSpace" light ++ ";") =
      false := by
    refine mentions_eq_false_of_char (c := 'F') (by decide) ?_
    simp [element, not_mem_toDigits]
  have hcoordinate : mentions "shadowFacs" "shadowCoord = shadowProjPos.xyz / shadowProjPos.w;" =
      false :=
    mentions_eq_false_of_char (c := 'F') (by decide)
      (Text.of_ofList (P := ('F' ∉ ·)) rfl (by decide))
  have hterms : (offsets.map (accumulationLine target light)).filter (mentions "shadowFacs") =
      offsets.map (accumulationLine target light) := by
    refine List.filter_eq_self.2 fun line hline => ?_
    obtain ⟨offset, -, rfl⟩ := List.mem_map.1 hline
    simpa only [accumulationLine, String.append_assoc] using hfactor _
  rw [factorStatements, List.flatMap_append, List.flatMap_cons, haccumulations, lines_opening,
    List.flatMap_singleton, lines_division, List.filter_append, List.filter_append, hterms]
  simp [hposition, hcoordinate, hfactor, factorLines]

/-- Of the declaration, the line that mentions the shadow factors. -/
theorem filter_lines_declaration {textures : Handle} (hname : textures.name = "depthTextures")
    (max : UInt32) :
    (Code.block 12 (declarationRows target max textures)).lines.filter (mentions "shadowFacs") =
      ["float " ++ element "shadowFacs" max.toNat ++ ";"] := by
  have hfactors : mentions "shadowFacs" ("float " ++ element "shadowFacs" max.toNat ++ ";") = true := by
    rw [String.append_assoc]
    exact mentions_element "shadowFacs" max.toNat "float " ";"
  -- The other lines have no capital F.
  have hchar : 'F' ∈ "shadowFacs".toList := by decide
  have hoperand : 'F' ∉ (target.textureOperand "depthTextures" (some 0)).toList := by
    cases target <;> decide +kernel
  have hsize : mentions "shadowFacs" ("ivec2 shadowMapSize = textureSize("
      ++ target.textureOperand "depthTextures" (some 0) ++ ", 0);") = false := by
    refine mentions_eq_false_of_char hchar ?_
    simp [hoperand]
  rw [lines_declaration hname, List.filter_cons_of_pos hfactors,
    List.filter_cons_of_neg (by rw [hsize]; decide)]
  refine congrArg _ ?_
  iterate 4 refine (filter_mentions_cons hchar rfl (by decide) _).trans ?_
  rfl

/-- Of what is written for some lights, the lines that mention the shadow factors. -/
theorem filter_lines_factors {textures : Handle} (hname : textures.name = "depthTextures")
    (lights : List Nat) :
    ((lights.flatMap (factorStatements target textures)).flatMap (·.lines)).filter
      (mentions "shadowFacs") = lights.flatMap (factorLines target) := by
  rw [List.flatMap_assoc, List.filter_flatMap]
  exact List.flatMap_congr fun light _ => filter_lines_factor hname light

end Lines

end Shadow

end ShaderWeave
