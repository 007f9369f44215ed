import Mathlib.Data.List.Perm.Basic
import ShaderWeave.Proofs.ManifestFromSource

/-!
# Identifiers Are Read off Declarations

The identifiers that a stage declares at global scope are listed by what it has registered. Here they are
read off the text instead. A reader that knows no target and no kind of resource takes the last word of
each declaration, before the length of an array, and where there are braces the word before them and the
last word of each member. It stops at the first routine.

What it finds in the source of a compiled stage, for any target, are the listed identifiers.

## Main definitions

* `Source.identifiers`: reads the identifiers of a declaration.
* `Source.readIdentifiers`: the identifiers that are declared at the beginning of a source.
* `Source.Declares`: a text consists of declarations of the given identifiers.

## Main results

* `Source.declares_plain`, `Source.declares_block`: declarations without and with braces.
* `Source.declares_globalIdentifiers`: what the sections of declarations of a stage declare.
* `readIdentifiers_of_compile`: the source of a compiled stage declares its global identifiers.
-/

namespace ShaderWeave

namespace Source

/-! ## The Reader -/

/-- The name at the end of a declaration, before the length of an array. -/
def nameAtEnd? (tokens : List Token) : Option String :=
  match tokens.reverse with
  | .word name :: _ => some name
  | .symbol ']' :: .word _ :: .symbol '[' :: .word name :: _ => some name
  | _ => none

/-- Read the name of a variable or of a member. -/
def nameOf : Reader String := fun (tokens : List Token) => (nameAtEnd? tokens).map (·, [])

/-- Whether a token opens braces. -/
def opensBraces (token : Token) : Bool :=
  token == .symbol '\x7b'

/-- Read the identifiers of a declaration: of a variable, or of a block and its members, since a block
has no instance name. A routine is not a declaration. -/
def identifiers : Reader (List String) := fun (tokens : List Token) =>
  if startsRoutine tokens then none
  else do
    let name ← nameAtEnd? (tokens.takeWhile (!opensBraces ·))
    let rest := tokens.dropWhile (!opensBraces ·)
    if rest.isEmpty then return ([name], [])
    else
      let (members, rest) ← braced nameOf rest
      return (name :: members, rest)

/-- The identifiers that are declared at the beginning of a source for a target. -/
def readIdentifiers (target : Target) (source : String) : Option (List String) :=
  (phrase target.preamble (lex source)).map fun (_, rest) =>
    (readWhile identifiers (statements rest)).flatten

/-! ## Names at the End -/

/-- What stands before a name makes no difference. -/
theorem nameAtEnd?_append {tokens : List Token} {name : String} (h : nameAtEnd? tokens = some name)
    (before : List Token) : nameAtEnd? (before ++ tokens) = some name := by
  unfold nameAtEnd? at h ⊢
  rw [List.reverse_append]
  split at h
  · rename_i heq
    rw [heq]
    exact h
  · rename_i heq
    rw [heq]
    exact h
  · cases h

theorem nameAtEnd?_declaration {var : Variable} (hname : IsWord var.name) :
    nameAtEnd? (lex var.declaration) = some var.name := by
  rw [lex_declaration hname]
  cases var.arrayLen <;> rfl

/-! ## Declarations without Braces -/

/-- Tokens are declarations of the given identifiers. -/
def Declares (tokens : List Token) (names : List String) : Prop :=
  ∃ found, Lists tokens identifiers found ∧ found.flatten = names

namespace Declares

theorem nil : Declares [] [] :=
  ⟨[], .nil, rfl⟩

theorem append {tokens more : List Token} {names others : List String} (h : Declares tokens names)
    (hmore : Declares more others) : Declares (tokens ++ more) (names ++ others) := by
  obtain ⟨found, hfound, rfl⟩ := h
  obtain ⟨foundMore, hfoundMore, rfl⟩ := hmore
  exact ⟨found ++ foundMore, hfound.append hfoundMore, List.flatten_append⟩

/-- Printed texts, of which each declares some identifiers. -/
theorem flatMap {α : Type} {list : List α} {print : α → String} {names : α → List String}
    (h : ∀ a ∈ list, Declares (lex (print a)) (names a)) :
    Declares ((list.map print).flatMap lex) (list.flatMap names) := by
  induction list with
  | nil => exact nil
  | cons a rest ih =>
    exact (h a List.mem_cons_self).append (ih fun b hb => h b (List.mem_cons_of_mem a hb))

/-- Printed texts, of which each declares one identifier. -/
theorem map {α : Type} {list : List α} {print name : α → String}
    (h : ∀ a ∈ list, Declares (lex (print a)) [name a]) :
    Declares ((list.map print).flatMap lex) (list.map name) := by
  have hnames : list.map name = list.flatMap fun a => [name a] := List.map_eq_flatMap
  rw [hnames]
  exact flatMap h

end Declares

/-- A text can stand before a type and a name in a declaration. -/
structure Qualifies (text : String) : Prop where
  /-- It is part of one statement. -/
  flat : FlatText text
  /-- The declaration does not begin like a routine. -/
  not_routine (ty name : String) (more : List Token) :
    startsRoutine (lex text ++ .word ty :: .word name :: more) = false

theorem qualifies_layout {rest : String} (h : FlatText rest) : Qualifies ("layout(" ++ rest) := by
  refine ⟨flatText_append.2 ⟨by decide, h⟩, fun ty name more => ?_⟩
  rw [lex_append (.inl (by decide))]
  rfl

theorem qualifies_uniform : Qualifies "uniform" :=
  ⟨by decide, fun _ _ _ => rfl⟩

/-- Flat text has no brace at which to split. -/
theorem span_of_flat {tokens : List Token} (h : Flat tokens) (rest : List Token) :
    (tokens ++ rest).takeWhile (!opensBraces ·) = tokens ++ rest.takeWhile (!opensBraces ·) ∧
      (tokens ++ rest).dropWhile (!opensBraces ·) = rest.dropWhile (!opensBraces ·) := by
  have hnone : ∀ token ∈ tokens, (!opensBraces token) = true := by
    intro token hmem
    simpa [opensBraces] using (h token hmem).2.1
  exact ⟨List.takeWhile_append_of_pos hnone, List.dropWhile_append_of_pos hnone⟩

/-- A declaration without braces declares the name at its end. -/
theorem declares_plain {head tail ty name : String} {more : List Token} (hhead : Qualifies head)
    (htail : FlatText tail) (hlex : lex tail = .word ty :: .word name :: more)
    (hname : nameAtEnd? (lex tail) = some name) :
    Declares (lex (head ++ " " ++ tail ++ ";")) [name] := by
  have hflat : FlatText (head ++ " " ++ tail) := by
    simp only [flatText_append]
    exact ⟨⟨hhead.flat, by decide⟩, htail⟩
  -- The blank keeps the last word before it and the first one after it apart.
  have htokens : lex (head ++ " " ++ tail) = lex head ++ lex tail := by
    rw [String.append_assoc, lex_append (.inr (startsApart_append (by decide) rfl)),
      lex_blank_append rfl rfl]
  have hroutine : startsRoutine (lex (head ++ " " ++ tail)) = false := by
    rw [htokens, hlex]
    exact hhead.not_routine ty name more
  have hend : nameAtEnd? (lex (head ++ " " ++ tail)) = some name := by
    rw [htokens]
    exact nameAtEnd?_append hname _
  obtain ⟨htake, hdrop⟩ := span_of_flat hflat.flat []
  simp only [List.append_nil, List.takeWhile_nil, List.dropWhile_nil] at htake hdrop
  refine ⟨[[name]], Lists.statement hflat.closed ?_, rfl⟩
  simp only [ReadsAll, identifiers, hroutine, htake, hdrop, hend]
  rfl

theorem declares_variable {head : String} {var : Variable} (hhead : Qualifies head)
    (hname : IsWord var.name) :
    Declares (lex (head ++ " " ++ var.declaration ++ ";")) [var.name] :=
  declares_plain hhead (flatText_contract hname) (lex_declaration hname)
    (nameAtEnd?_declaration hname)

/-- As for variables, but the type may be one that no variable has. -/
theorem declares_typed {head ty name : String} (hhead : Qualifies head) (hty : IsWord ty)
    (hname : IsWord name) : Declares (lex (head ++ " " ++ (ty ++ " " ++ name) ++ ";")) [name] := by
  have hlex : lex (ty ++ " " ++ name) = [.word ty, .word name] := by
    rw [String.append_assoc, lex_append (.inr (startsApart_append (by decide) rfl)),
      lex_blank_append rfl rfl, lex_word hty, lex_word hname]
    rfl
  refine declares_plain hhead ?_ hlex (by rw [hlex]; rfl)
  simp only [flatText_append]
  exact ⟨⟨hty.flatText, by decide⟩, hname.flatText⟩

/-! ## Located Variables -/

theorem qualifies_location (location : UInt32) {rest : String} (h : FlatText rest) :
    Qualifies (Target.location location ++ rest) := by
  -- A parenthesis after the first word is what tells a layout from a routine.
  have hopen : "layout(location = " = "layout(" ++ "location = " := by decide
  have htext : Target.location location ++ rest =
      "layout(" ++ ("location = " ++ toString location ++ ") " ++ rest) := by
    unfold Target.location
    rw [hopen]
    simp only [String.append_assoc]
  rw [htext]
  refine qualifies_layout ?_
  simp only [flatText_append]
  exact ⟨⟨⟨by decide, flatText_word32 location⟩, by decide⟩, h⟩

theorem qualifies_flow (flat : Bool) (direction : Direction) :
    Qualifies ((if flat then "flat " else "") ++ direction.keyword) := by
  refine ⟨?_, fun ty name more => ?_⟩
  · cases flat <;> cases direction <;> decide
  · cases flat <;> cases direction <;> rfl

theorem declares_vertexInput (target : Target) {a : BoundAttribute} (hname : IsWord a.name) :
    Declares (lex (target.vertexInput a)) [a.name] := by
  have hhead : Qualifies (Target.location a.location ++ "in") := qualifies_location _ (by decide)
  have htext : target.vertexInput a =
      Target.location a.location ++ "in" ++ " " ++ (a.ty.glsl ++ " " ++ a.name) ++ ";" := by
    have hin : "in " = "in" ++ " " := by decide
    unfold Target.vertexInput
    rw [hin]
    simp only [String.append_assoc]
  rw [htext]
  exact declares_typed hhead (isWord_glsl a.ty) hname

theorem declares_interfaceVariable (target : Target) (direction : Direction) {slot : InterfaceSlot}
    (hname : IsWord slot.var.name) :
    Declares (lex (target.interfaceVariable slot direction)) [slot.var.name] := by
  have hflow := qualifies_flow slot.var.isFlat direction
  cases target with
  | webgl2 => exact declares_variable hflow hname
  | vulkan | opengl =>
    have hlocated := declares_variable (qualifies_location slot.slot hflow.flat) hname
    simp only [Target.interfaceVariable, String.append_assoc] at hlocated ⊢
    exact hlocated

theorem declares_colorOutput (target : Target) {output : ColorOutput} (hname : IsWord output.name) :
    Declares (lex (target.colorOutput output)) [output.name] := by
  have hhead : Qualifies (Target.location output.location ++ "out") :=
    qualifies_location _ (by decide)
  have htext : target.colorOutput output =
      Target.location output.location ++ "out" ++ " " ++ ("vec4" ++ " " ++ output.name) ++ ";" := by
    have hout : "out vec4 " = "out" ++ " " ++ ("vec4" ++ " ") := by decide
    unfold Target.colorOutput
    rw [hout]
    simp only [String.append_assoc]
  rw [htext]
  exact declares_typed hhead (by decide) hname

/-! ## Blocks -/

/-- A block declares its name and what is read of its lines. -/
theorem declares_block {layout name : String} {lines names : List String} (hlayout : FlatText layout)
    (hname : IsWord name)
    (hlines : ∀ line ∈ lines, ∀ c ∈ line.toList, c ≠ '\x7b' ∧ c ≠ '\x7d')
    (hnames : Lists (lines.flatMap lex) nameOf names) :
    Declares (lex (Target.braced ("layout(" ++ layout ++ ") uniform" ++ (" " ++ name)) lines))
      (name :: names) := by
  let head := "layout(" ++ layout ++ ") uniform" ++ (" " ++ name)
  have hflat : FlatText head := by
    simp only [head, flatText_append]
    exact ⟨⟨⟨by decide, hlayout⟩, by decide⟩, by decide, hname.flatText⟩
  have hend : nameAtEnd? (lex head) = some name := by
    have hlast : lex (" " ++ name) = [.word name] := by
      rw [lex_blank_append rfl rfl, lex_word hname]
    rw [lex_append (.inr (startsApart_append (by decide) rfl)), hlast]
    exact nameAtEnd?_append rfl _
  have hroutine : startsRoutine (lex head ++ lex (bracedText lines)) = false := by
    simp only [head, String.append_assoc]
    rw [lex_append (.inl (by decide))]
    rfl
  have hbraced : braced nameOf (lex (bracedText lines)) = some (names, []) := readsAll_braced hnames
  have hopens : opensBraces (.symbol '\x7b') = true := rfl
  -- The first brace is the one before the members.
  obtain ⟨htake, hdrop⟩ := span_of_flat hflat.flat (lex (bracedText lines))
  refine ⟨[name :: names], lists_braced hflat hlines ?_, List.append_nil _⟩
  rw [ReadsAll, lex_append (.inr (startsApart_bracedText lines)), identifiers, hroutine, htake, hdrop]
  rw [lex_bracedText] at hbraced ⊢
  simp only [List.takeWhile_cons, List.dropWhile_cons, hopens, Bool.not_true, List.append_nil, hend,
    hbraced, Bool.false_eq_true, if_false, List.isEmpty_cons]
  rfl

/-- Members are on lines of their own, with a semicolon after each. -/
theorem lists_lines {α : Type} {list : List α} {print name : α → String}
    (hflat : ∀ a ∈ list, FlatText (print a))
    (hname : ∀ a ∈ list, nameAtEnd? (lex (print a)) = some (name a)) :
    (∀ line ∈ list.map (print · ++ ";"), ∀ c ∈ line.toList, c ≠ '\x7b' ∧ c ≠ '\x7d') ∧
      Lists ((list.map (print · ++ ";")).flatMap lex) nameOf (list.map name) := by
  constructor
  · intro line hline
    obtain ⟨a, ha, rfl⟩ := List.mem_map.1 hline
    exact (hflat a ha).no_brace
  · refine Lists.map fun a ha => Lists.statement (hflat a ha).closed ?_
    rw [ReadsAll, nameOf, hname a ha]
    rfl

theorem declares_uniformBlock (target : Target) {block : UniformBlock} (hname : IsWord block.name)
    (hmembers : ∀ member ∈ block.layout.members, IsWord member.name) :
    Declares (lex (target.uniformBlock block))
      (block.name :: block.layout.members.map (·.name)) := by
  obtain ⟨hlines, hnames⟩ := @lists_lines _ block.layout.members
    (fun member => "    " ++ member.declaration) (·.name)
    (fun member hmember => flatText_append.2
      ⟨by decide, flatText_contract (hmembers member hmember)⟩)
    (fun member hmember => by
      rw [lex_blank_append rfl rfl]
      exact nameAtEnd?_declaration (hmembers member hmember))
  have hclose : ") uniform" = ")" ++ " uniform" := by decide
  have huniform : " uniform " = " uniform" ++ " " := by decide
  -- Targets differ in the layout only.
  obtain ⟨layout, hlayout, htext⟩ : ∃ layout, FlatText layout ∧ target.uniformBlock block =
      Target.braced ("layout(" ++ layout ++ ") uniform" ++ (" " ++ block.name))
        (block.layout.members.map fun member => "    " ++ member.declaration ++ ";") := by
    unfold Target.uniformBlock
    rw [hclose, huniform]
    cases target with
    | vulkan =>
      have hopen : "layout(std140, set = 0, binding = " =
        "layout(" ++ "std140, set = 0, binding = " := by decide
      refine ⟨"std140, set = 0, binding = " ++ toString block.binding,
        flatText_append.2 ⟨by decide, flatText_word32 block.binding⟩, ?_⟩
      simp only [hopen, String.append_assoc]
    | opengl | webgl2 =>
      have hopen : "layout(std140)" = "layout(" ++ "std140" ++ ")" := by decide
      refine ⟨"std140", by decide, ?_⟩
      simp only [hopen, String.append_assoc]
  rw [htext]
  exact declares_block hlayout hname hlines hnames

/-! ## Push Constants -/

/-- In a block, push constants are declared after it. -/
theorem declares_constantBlock (stage : StageMask) {slots : List PushConstantSlot}
    (hnames : ∀ slot ∈ slots, IsWord slot.name) :
    Declares (lex (Target.vulkan.pushConstants stage slots))
      (Target.pushConstantBlock stage :: slots.map (·.name)) := by
  let line (slot : PushConstantSlot) : String :=
    "    layout(offset = " ++ toString slot.offset ++ ") " ++ slot.ty.glsl ++ (" " ++ slot.name)
  have hflat (slot : PushConstantSlot) (hslot : slot ∈ slots) : FlatText (line slot) := by
    simp only [line, flatText_append]
    exact ⟨⟨⟨⟨by decide, flatText_word32 _⟩, by decide⟩, (isWord_glsl _).flatText⟩, by decide,
      (hnames slot hslot).flatText⟩
  have hend (slot : PushConstantSlot) (hslot : slot ∈ slots) :
      nameAtEnd? (lex (line slot)) = some slot.name := by
    have hlast : lex (" " ++ slot.name) = [.word slot.name] := by
      rw [lex_blank_append rfl rfl, lex_word (hnames slot hslot)]
    rw [lex_append (.inr (startsApart_append (by decide) rfl)), hlast]
    exact nameAtEnd?_append rfl _
  obtain ⟨hlines, hlists⟩ := lists_lines hflat hend
  have hblock : IsWord (Target.pushConstantBlock stage) := by
    unfold Target.pushConstantBlock
    split <;> decide
  have hhead : "layout(push_constant) uniform " =
      "layout(" ++ "push_constant" ++ ") uniform" ++ " " := by decide
  have htext : Target.vulkan.pushConstants stage slots = Target.braced
      ("layout(" ++ "push_constant" ++ ") uniform" ++ (" " ++ Target.pushConstantBlock stage))
      (slots.map (line · ++ ";")) := by
    unfold Target.pushConstants
    simp only [line, hhead, String.append_assoc]
  rw [htext]
  exact declares_block (by decide) hblock hlines hlists

/-- Where there is no block, push constants are uniforms. -/
theorem declares_constantUniforms {slots : List PushConstantSlot}
    (hnames : ∀ slot ∈ slots, IsWord slot.name) :
    Declares (lex (String.intercalate "\n" (slots.map fun slot =>
      "uniform " ++ slot.ty.glsl ++ " " ++ slot.name ++ ";"))) (slots.map (·.name)) := by
  have huniform : "uniform " = "uniform" ++ " " := by decide
  rw [lex_intercalate (by decide) (by decide) (by decide) (by decide)]
  refine Declares.map fun slot hslot => ?_
  have htyped := declares_typed qualifies_uniform (isWord_glsl slot.ty) (hnames slot hslot)
  rw [huniform]
  simpa only [String.append_assoc] using htyped

theorem declares_pushConstants (target : Target) {r : Registry}
    (hnames : ∀ constant ∈ r.pushConstants, IsWord constant.slot.name) :
    Declares ((if r.pushConstants.isEmpty then []
        else [target.pushConstants r.stage.mask (r.pushConstants.map (·.slot))]).flatMap lex)
      ((target.pushConstantBlock? r).toList ++ r.pushConstants.map (·.slot.name)) := by
  have hslots : ∀ slot ∈ r.pushConstants.map (·.slot), IsWord slot.name := by
    intro slot hslot
    obtain ⟨constant, hconstant, rfl⟩ := List.mem_map.1 hslot
    exact hnames constant hconstant
  have hmap : r.pushConstants.map (·.slot.name) = (r.pushConstants.map (·.slot)).map (·.name) :=
    List.map_map.symm
  split
  · rename_i hempty
    have hnone : target.pushConstantBlock? r = none := by
      cases target <;> simp [Target.pushConstantBlock?, hempty]
    rw [hnone, List.isEmpty_iff.1 hempty]
    exact Declares.nil
  · rename_i hsome
    rw [List.flatMap_singleton, hmap]
    cases target with
    | vulkan =>
      rw [Target.pushConstantBlock?, if_neg hsome]
      exact declares_constantBlock _ hslots
    | opengl | webgl2 => exact declares_constantUniforms hslots

/-! ## Textures and Samplers -/

theorem declares_boundUniform (binding : Nat) {ty name : String} (hty : IsWord ty)
    (hname : IsWord name) : Declares (lex (Target.boundUniform binding ty name)) [name] := by
  have hopen : "layout(set = 0, binding = " = "layout(" ++ "set = 0, binding = " := by decide
  have huniform : ") uniform " = ") uniform" ++ " " := by decide
  have hhead : Qualifies
      ("layout(" ++ ("set = 0, binding = " ++ (toString binding ++ ") uniform"))) := by
    refine qualifies_layout ?_
    simp only [flatText_append]
    exact ⟨by decide, flatText_toString binding, by decide⟩
  have htyped := declares_typed hhead hty hname
  unfold Target.boundUniform
  simp only [hopen, huniform, String.append_assoc] at htyped ⊢
  exact htyped

theorem declares_sampler (target : Target) {s : SamplerBinding} (hname : IsWord s.name) :
    Declares (lex (target.sampler s)) (target.samplerIdentifiers s) := by
  have huniform : "uniform " = "uniform" ++ " " := by decide
  cases target with
  | vulkan =>
    -- The textures come first, and then the sampler object that they share.
    rw [lex_sampler]
    refine (Declares.map fun texture hmem => ?_).append ?_
    · exact declares_boundUniform _ (isWord_textureType s.dim) (isWord_separateTextures hname hmem)
    · exact declares_boundUniform _ (by decide) (isWord_samplerObjectName hname)
  | opengl | webgl2 =>
    have hvariable := @declares_variable "uniform"
      { name := s.name, ty := .sampler s.dim, arrayLen := s.arrayLen } qualifies_uniform hname
    unfold Target.sampler
    rw [huniform]
    exact hvariable

/-! ## A Stage -/

/-- The sections of declarations of a stage declare its global identifiers. -/
theorem declares_globalIdentifiers (target : Target) {r : Registry} (hnames : WordNames r) :
    ∃ names, Declares ((target.attributeSection r ++ target.interfaceSection r
      ++ target.bindingSection r).flatMap lex) names ∧
      names.Perm (target.globalIdentifiers r) := by
  have hattributes : Declares ((target.attributeSection r).flatMap lex) _ :=
    Declares.map fun a ha => declares_vertexInput target (hnames.attributes a ha)
  have hinputs : Declares (((r.inputs.mergeSort (·.slot ≤ ·.slot)).map
      (target.interfaceVariable · .input)).flatMap lex) _ :=
    Declares.map fun input hinput => declares_interfaceVariable target .input
      (hnames.inputs input (List.mem_mergeSort.1 hinput))
  have houtputs : Declares ((r.outputs.map (target.interfaceVariable · .output)).flatMap lex) _ :=
    Declares.map fun output houtput => declares_interfaceVariable target .output
      (hnames.outputs output houtput)
  have hcolors : Declares ((r.colorOutputs.map target.colorOutput).flatMap lex)
      (r.colorOutputs.map (·.name)) :=
    Declares.map fun color hcolor => declares_colorOutput target (hnames.colorOutputs color hcolor)
  have hblocks : Declares ((r.blocks.map fun registered =>
      target.uniformBlock registered.block).flatMap lex) _ :=
    Declares.flatMap fun registered hmem => declares_uniformBlock target
      (hnames.blocks registered hmem).1 (hnames.blocks registered hmem).2
  have hconstants := declares_pushConstants target hnames.pushConstants
  have hsamplers : Declares ((r.samplers.map target.sampler).flatMap lex) _ :=
    Declares.flatMap fun s hs => declares_sampler target (hnames.samplers s hs)
  have hall := (((((hattributes.append hinputs).append houtputs).append hcolors).append
    hblocks).append hconstants).append hsamplers
  unfold Target.interfaceSection Target.bindingSection
  simp only [List.flatMap_append, ← List.append_assoc] at hall ⊢
  refine ⟨_, hall, List.perm_iff_count.2 fun name => ?_⟩
  -- Inputs are sorted, and the members of a block follow it.
  have hsorted := ((List.mergeSort_perm r.inputs (·.slot ≤ ·.slot)).map (·.var.name)).count_eq name
  have hmembers := (List.map_append_flatMap_perm r.blocks (·.block.name)
    fun registered => registered.block.layout.members.map (·.name)).count_eq name
  simp only [List.count_append] at hmembers
  simp only [Target.globalIdentifiers, Target.globalKinds, List.flatten_cons, List.flatten_nil,
    List.count_append, List.map_append, List.count_nil, hsorted, ← hmembers]
  omega

end Source

/-! ## Compiled Models -/

open Source

/-- Nothing is read of a routine. -/
theorem readWhile_identifiers_routine {tokens : List Token} (h : startsRoutine tokens = true) :
    readWhile identifiers (statements tokens) = [] := by
  obtain ⟨kind, name, body, others, hstatements⟩ := exists_statement_of_startsRoutine h
  rw [hstatements]
  rfl

/-- The declarations at the beginning of the source of a compiled stage, for any target, declare the
global identifiers of the stage and no others. -/
theorem readIdentifiers_of_compile {name : String} {graph : Stage → Nat}
    {nodes : Stage → List LibraryNode} {input : CompileInput} {shader : Shader}
    (hnames : IdentifierNames nodes)
    (h : ((libraryModel name graph nodes).compile input).outcome = .ok shader) (target : Target)
    (stage : Stage) :
    ∃ names, readIdentifiers target ((shader.program stage).source target) = some names ∧
      names.Perm (target.globalIdentifiers (shader.program stage).registry) := by
  obtain ⟨names, ⟨found, hfound, rfl⟩, hperm⟩ :=
    declares_globalIdentifiers target (wordNames_of_compile hnames h stage)
  have hhelpers : ∀ helper ∈ (shader.program stage).code.helpers,
      startsRoutine (lex (trimIndent helper.2)) = true := by
    intro helper hmem
    obtain ⟨node, -, hhelper⟩ := helpers_of_compile h hmem
    exact node.startsRoutine_helpers hhelper
  have hpreamble : Reads target.preamble (phrase target.preamble) () := reads_phrase rfl
  refine ⟨_, ?_, hperm⟩
  rw [readIdentifiers, lex_source, hpreamble, Option.map_some]
  simp only
  rw [hfound.readWhile_append, readWhile_identifiers_routine (startsRoutine_routines hhelpers),
    List.append_nil]

end ShaderWeave
