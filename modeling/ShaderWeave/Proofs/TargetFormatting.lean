import ShaderWeave.Proofs.ManifestFromSource
import ShaderWeave.Proofs.RecodedModels
import ShaderWeave.Proofs.Templates

/-!
# Targets Differ in Formatting

Emissions are made for a target, and they take the same course for every target: what is registered,
which routines refresh blocks, which helper routines there are, and the code of the main routine are the
same, except that texture operands are written for the target. The code is then cut into lines, and their
indentation is cut off, and this could depend on the operands: one that begins with a blank would look
like indentation, and one of two lines would add a line. Names that are tight, such as identifiers, give
operands that do neither, whichever way the target writes them. So the main routines for two targets have
the same lines up to the operands.

## Main definitions

* `Code.retarget`: code with its operands written for a target.
* `NamedOperand`: a texture operand with a tight name, as a hole in a template.
* `Target.mainOf`: the main routine of lines of code, written for a target.

## Main results

* `tight_textureOperand`: on every target, operands with tight names stay on their line.
* `Code.exists_lines`: on all targets, the lines of code are the same up to its operands.
* `targets_differ_in_formatting`: for a model of library nodes, targets differ in nothing else.
-/

namespace ShaderWeave

open Source Text Template

/-! ## Operands Stay on Their Line -/

/-- Texts that are tight at their outer ends and have no line feed between are tight. -/
theorem tight_append {first middle last : List Char} (hfirst : Tight first) (hmiddle : '\n' ∉ middle)
    (hlast : Tight last) : Tight (first ++ middle ++ last) := by
  obtain ⟨hfirstFeed, ⟨c, hc, hcBlank⟩, -⟩ := hfirst
  obtain ⟨hlastFeed, -, ⟨d, hd, hdBlank⟩⟩ := hlast
  refine ⟨by simp [hfirstFeed, hmiddle, hlastFeed], ⟨c, ?_, hcBlank⟩, ⟨d, ?_, hdBlank⟩⟩
  · simp [List.append_assoc, List.head?_append, Option.mem_def.1 hc]
  · simp [List.getLast?_append, Option.mem_def.1 hd]

/-- Where the name of a texture is tight, its operand is, on every target. -/
theorem tight_textureOperand {name : String} (h : Tight name.toList) (target : Target)
    (index : Option UInt32) : Tight (target.textureOperand name index).toList := by
  have hopen : Tight "sampler2D(".toList := ⟨by decide, ⟨'s', by decide⟩, ⟨'(', by decide⟩⟩
  have hclose : Tight ")".toList := ⟨by decide, ⟨')', by decide⟩, ⟨')', by decide⟩⟩
  have hbracket : Tight "]".toList := ⟨by decide, ⟨']', by decide⟩, ⟨']', by decide⟩⟩
  have hnumber (i : UInt32) : '\n' ∉ (toString i).toList := by
    intro hmem
    exact absurd ((isWord_toString i.toNat).2 _ hmem) (by decide)
  have hpair {texture : String} (htexture : '\n' ∉ texture.toList) :
      Tight ("sampler2D(" ++ texture ++ ", " ++ Target.samplerObjectName name ++ ")").toList := by
    have hmiddle : '\n' ∉ (texture ++ ", " ++ Target.samplerObjectName name).toList := by
      simp [Target.samplerObjectName, htexture, h.no_feed]
    simpa [List.append_assoc] using tight_append hopen hmiddle hclose
  have hindexed (i : UInt32) : Tight (name ++ "[" ++ toString i ++ "]").toList := by
    have hmiddle : '\n' ∉ ("[" ++ toString i).toList := by
      rw [String.toList_append, List.mem_append, not_or]
      exact ⟨by decide, hnumber i⟩
    simpa [List.append_assoc] using tight_append h hmiddle hbracket
  have helement (i : UInt32) : '\n' ∉ (Target.textureElementName name i).toList := by
    simp only [Target.textureElementName, String.toList_append, List.mem_append, not_or]
    exact ⟨⟨h.no_feed, by decide⟩, hnumber i⟩
  cases index with
  | none =>
    cases target with
    | vulkan => exact hpair h.no_feed
    | opengl | webgl2 => exact h
  | some i =>
    cases target with
    | vulkan => exact hpair (helement i)
    | opengl | webgl2 => exact hindexed i

theorem isBlank_eq_false_of_isWordChar {c : Char} (h : isWordChar c = true) :
    isBlank c = false := by
  have hranges : (((decide (65 ≤ c.val ∧ c.val ≤ 90) ||
      (decide (97 ≤ c.val) && decide (c.val ≤ 122))) ||
      (decide (48 ≤ c.val) && decide (c.val ≤ 57))) || c == '_') = true := h
  simp only [Bool.or_eq_true, Bool.and_eq_true, decide_eq_true_eq, beq_iff_eq] at hranges
  have hcode : 48 ≤ c.toNat ∧ c.toNat ≤ 122 := by
    rcases hranges with ((⟨hlow, hhigh⟩ | ⟨hlow, hhigh⟩) | ⟨hlow, hhigh⟩) | rfl
    · exact ⟨Nat.le_trans (by decide) hlow, Nat.le_trans hhigh (by decide)⟩
    · exact ⟨Nat.le_trans (by decide) hlow, hhigh⟩
    · exact ⟨hlow, Nat.le_trans hhigh (by decide)⟩
    · decide
  -- Blank characters come before or after all of these.
  have hapart : ∀ range ∈ blankRanges, range.2 ≤ 32 ∨ 133 ≤ range.1 := by decide
  rw [isBlank, List.any_eq_false]
  intro range hrange hinside
  rw [Bool.and_eq_true, decide_eq_true_eq, decide_eq_true_eq] at hinside
  have houtside := hapart range hrange
  omega

/-- Identifiers are tight. -/
theorem IsIdentifier.tight {name : String} (h : IsIdentifier name) : Tight name.toList := by
  obtain ⟨⟨hempty, hword⟩, -⟩ := h
  have hne : name.toList ≠ [] := by
    simpa using hempty
  refine ⟨fun hmem => absurd (hword _ hmem) (by decide),
    ⟨name.toList.head hne, List.head?_eq_some_head hne, ?_⟩,
    ⟨name.toList.getLast hne, List.getLast?_eq_some_getLast hne, ?_⟩⟩
  · exact isBlank_eq_false_of_isWordChar (hword _ (List.head_mem hne))
  · exact isBlank_eq_false_of_isWordChar (hword _ (List.getLast_mem hne))

/-! ## Code for Another Target -/

/-- The piece with an operand written for a target. -/
def Piece.retarget (target : Target) : Piece → Piece
  | texture _ name index => texture target name index
  | piece => piece

/-- The fragment of code with its operands written for a target. -/
def Code.retarget (target : Target) (code : Code) : Code :=
  code.map (Piece.retarget target)

/-- Recoding the target writes the operands for it and leaves all else as it is. -/
theorem Code.recode_target (target : Target) (code : Code) :
    code.recode target.recoding = code.retarget target := by
  refine List.map_congr_left fun piece _ => ?_
  cases piece <;> simp [Piece.recode, Piece.retarget, Target.recoding]

theorem StageProgram.main_recode (program : StageProgram) (target : Target) :
    (program.recode target.recoding).code.main = program.code.main.map (Code.retarget target) := by
  have hmap : program.code.fragments.map (Code.recode target.recoding) =
      program.code.fragments.map (Code.retarget target) :=
    List.map_congr_left fun code _ => code.recode_target target
  show (program.code.fragments.map (Code.recode target.recoding)).reverse = _
  rw [hmap, ← List.map_reverse]
  rfl

/-! ## Code as Templates -/

/-- A texture operand whose name is tight. -/
abbrev NamedOperand := { operand : TextureOperand // Tight operand.name.toList }

/-- The operand as it is written for a target. -/
def NamedOperand.text (target : Target) (operand : NamedOperand) : List Char :=
  (target.textureOperand operand.1.name operand.1.index).toList

theorem NamedOperand.fills (target : Target) : Fills (NamedOperand.text target) :=
  fun operand => tight_textureOperand operand.2 target operand.1.index

/-- The template as code. -/
def codeOf (template : Template NamedOperand) : Code :=
  template.map (Sum.elim (fun c => .text (String.singleton c))
    fun operand => .texture operand.1.target operand.1.name operand.1.index)

theorem render_codeOf (target : Target) (template : Template NamedOperand) :
    ((codeOf template).retarget target).render =
      String.ofList (fill (NamedOperand.text target) template) := by
  induction template with
  | nil => rfl
  | cons item rest ih =>
    change Code.render (_ :: (codeOf rest).retarget target) = _
    cases item with
    | inl c =>
      rw [Code.render_cons, ih, fill_char, ← List.singleton_append, String.ofList_append]
      rfl
    | inr operand =>
      rw [Code.render_cons, ih, fill_hole, String.ofList_append, NamedOperand.text,
        String.ofList_toList]
      rfl

theorem operands_codeOf (template : Template NamedOperand) :
    (codeOf template).operands = (holes template).map Subtype.val := by
  induction template with
  | nil => rfl
  | cons item rest ih =>
    change Code.operands (_ :: codeOf rest) = _
    rw [Code.operands_cons, ih]
    cases item <;> rfl

/-- Only operands depend on the target. -/
theorem Piece.retarget_of_operand?_eq_none {piece : Piece} (h : piece.operand? = none)
    (target : Target) : piece.retarget target = piece := by
  cases piece with
  | text | declaration | read | mention => rfl
  | texture other name index => cases h

theorem Piece.render_retarget {piece : Piece} {operand : TextureOperand}
    (h : piece.operand? = some operand) (target : Target) :
    (piece.retarget target).render = target.textureOperand operand.name operand.index := by
  cases piece with
  | text | declaration | read | mention => cases h
  | texture other name index =>
    cases h
    rfl

/-- Code that samples only textures with tight names is a template. -/
theorem Code.exists_template {code : Code}
    (h : ∀ operand ∈ code.operands, Tight operand.name.toList) :
    ∃ template : Template NamedOperand,
      (∀ target, (code.retarget target).render.toList = fill (NamedOperand.text target) template) ∧
      (holes template).map Subtype.val = code.operands := by
  induction code with
  | nil => exact ⟨[], fun _ => rfl, rfl⟩
  | cons piece rest ih =>
    rw [Code.operands_cons] at h
    obtain ⟨template, hrender, hholes⟩ :=
      ih fun operand hmem => h operand (List.mem_append_right _ hmem)
    have hcons (target : Target) : (retarget target (piece :: rest)).render.toList =
        (piece.retarget target).render.toList ++ fill (NamedOperand.text target) template := by
      rw [← hrender target, ← String.toList_append, ← Code.render_cons]
      rfl
    cases hpiece : piece.operand? with
    | none =>
      refine ⟨ofChars piece.render.toList ++ template, fun target => ?_, ?_⟩
      · rw [hcons, Piece.retarget_of_operand?_eq_none hpiece, fill_append, fill_ofChars]
      · rw [holes_append, holes_ofChars, List.nil_append, hholes, Code.operands_cons, hpiece]
        rfl
    | some operand =>
      have hname : Tight operand.name.toList := by
        rw [hpiece] at h
        exact h operand (List.mem_append_left _ List.mem_cons_self)
      refine ⟨.inr ⟨operand, hname⟩ :: template, fun target => ?_, ?_⟩
      · rw [hcons, Piece.render_retarget hpiece]
        rfl
      · rw [holes_hole, List.map_cons, hholes, Code.operands_cons, hpiece]
        rfl

/-- On all targets, the lines of code are the same up to its operands. -/
theorem Code.exists_lines {code : Code}
    (h : ∀ operand ∈ code.operands, Tight operand.name.toList) :
    ∃ found : List Code,
      (∀ target, (code.retarget target).lines =
        found.map fun line => (line.retarget target).render) ∧
      ShaderWeave.operands found = code.operands := by
  obtain ⟨template, hrender, hholes⟩ := Code.exists_template h
  obtain ⟨found, hfound, hfoundHoles⟩ := template.exists_trimmedLines
  refine ⟨found.map codeOf, fun target => ?_, ?_⟩
  · rw [Code.lines, codeLines, hrender target, hfound _ (NamedOperand.fills target), List.map_map,
      List.map_map]
    exact List.map_congr_left fun line _ => (render_codeOf target line).symm
  · rw [← hholes, ← hfoundHoles, ShaderWeave.operands, List.flatMap_map, List.map_flatMap]
    exact List.flatMap_congr fun line _ => operands_codeOf line

/-- The same of statements that follow each other. -/
theorem exists_lines_of_statements {statements : List Code}
    (h : ∀ operand ∈ operands statements, Tight operand.name.toList) :
    ∃ found : List Code,
      (∀ target, (statements.map (Code.retarget target)).flatMap Code.lines =
        found.map fun line => (line.retarget target).render) ∧
      operands found = operands statements := by
  induction statements with
  | nil => exact ⟨[], fun _ => rfl, rfl⟩
  | cons code rest ih =>
    rw [operands, List.flatMap_cons] at h
    obtain ⟨first, hfirst, hfirstOperands⟩ :=
      Code.exists_lines fun operand hmem => h operand (List.mem_append_left _ hmem)
    obtain ⟨others, hothers, hothersOperands⟩ :=
      ih fun operand hmem => h operand (List.mem_append_right _ hmem)
    refine ⟨first ++ others, fun target => ?_, ?_⟩
    · rw [List.map_cons, List.flatMap_cons, hfirst target, hothers target, List.map_append]
    · unfold operands at *
      rw [List.flatMap_append, List.flatMap_cons, hfirstOperands, hothersOperands]

/-! ## What Is Compiled for a Target -/

/-- The source of the stage is declarations, then the helper routines, and then the main routine. -/
def Shader.EndsWithRoutines (shader : Shader) (stage : Stage) : Prop :=
  ∃ declarations : List String, shader.source stage.mask =
    String.intercalate "\n\n" (declarations
      ++ (shader.program stage).code.helpers.map (fun helper => trimIndent helper.2)
      ++ [(shader.program stage).mainRoutine]) ++ "\n"

theorem Shader.endsWithRoutines (shader : Shader) (stage : Stage) :
    shader.EndsWithRoutines stage := by
  cases stage <;> exact ⟨_, rfl⟩

/-- A main routine of the given lines, with the operands written for a target. -/
def Target.mainOf (target : Target) (found : List Code) : String :=
  "void main() \x7b\n"
    ++ String.join (found.map fun line => StageProgram.indentLine (line.retarget target).render)
    ++ "\x7d"

section Library

variable {name : String} {graph : Stage → Nat} {nodes : Stage → List LibraryNode}
  {input : CompileInput}

/-- On all targets, the main routine of a compiled stage has the same lines up to the operands. -/
theorem exists_mainRoutine_of_compile {shader : Shader}
    (hnames : ∀ stage, ∀ node ∈ nodes stage, ∀ operand ∈ node.operands input.target,
      Tight operand.name.toList)
    (h : ((libraryModel name graph nodes).compile input).outcome = .ok shader) (stage : Stage) :
    ∃ found : List Code, operands found = operands (shader.program stage).code.main ∧
      ∀ target : Target,
        ((shader.program stage).recode target.recoding).mainRoutine = target.mainOf found := by
  have htight : ∀ operand ∈ operands (shader.program stage).code.main,
      Tight operand.name.toList := by
    intro operand hmem
    obtain ⟨node, hnode, hoperand⟩ := (mem_operands_of_compile h).1 hmem
    exact hnames stage node hnode operand hoperand
  obtain ⟨found, hfound, hoperands⟩ := exists_lines_of_statements htight
  refine ⟨found, hoperands, fun target => ?_⟩
  rw [StageProgram.mainRoutine, StageProgram.mainLines, StageProgram.main_recode, hfound target,
    List.map_map]
  rfl

theorem program_recode (r : Recoding) (shader : Shader) (stage : Stage) :
    (shader.recode r).program stage = (shader.program stage).recode r := by
  cases stage <;> rfl

/-- Targets differ in formatting only. In a model of library nodes that sample textures with tight names,
such as identifiers, compiling for one target fails exactly if compiling for another fails, and then with
the same failure. If it succeeds, it gives the same attributes, interface, locations and bindings; for
every draw and all parameters the same bytes of blocks and push constants; and in each stage the same
helper routines in the same order, and a main routine of the same lines, in which only the operands are
written for the target. These operands are what the nodes sample, in generation order, and the routines
are what the source of the stage ends with. -/
theorem targets_differ_in_formatting
    (hnames : ∀ stage, ∀ node ∈ nodes stage, ∀ operand ∈ node.operands input.target,
      Tight operand.name.toList) (other : Target) :
    (∀ failure, ((libraryModel name graph nodes).compile input).outcome = .error failure ↔
      ((libraryModel name graph nodes).compile { input with target := other }).outcome =
        .error failure) ∧
    ∀ a, ((libraryModel name graph nodes).compile input).outcome = .ok a →
      ∃ b, ((libraryModel name graph nodes).compile { input with target := other }).outcome = .ok b ∧
        a.target = input.target ∧ b.target = other ∧ a.SameData b ∧
        ∀ stage, (a.program stage).code.helpers = (b.program stage).code.helpers ∧
          ∃ found : List Code,
            operands found = ((libraryModel name graph nodes).order stage).flatMap
              (operandsAt input.target nodes stage) ∧
            (a.program stage).mainRoutine = input.target.mainOf found ∧ a.EndsWithRoutines stage ∧
            (b.program stage).mainRoutine = other.mainOf found ∧ b.EndsWithRoutines stage := by
  have hretarget := (libraryDesign name graph nodes).compile_retarget input other
  constructor
  · intro failure
    rw [hretarget]
    cases ((libraryModel name graph nodes).compile input).outcome with
    | error found => simp [Except.map]
    | ok shader => simp [Except.map]
  · intro a ha
    have hb := hretarget
    rw [ha] at hb
    refine ⟨a.recode other.recoding, hb, target_of_compile ha, rfl, a.sameData_recode _,
      fun stage => ?_⟩
    obtain ⟨found, hoperands, hmain⟩ := exists_mainRoutine_of_compile hnames ha stage
    have hown : (a.program stage).recode input.target.recoding = a.program stage := by
      rw [← program_recode, Design.recode_of_compile ha]
    have hfirst := hmain input.target
    rw [hown] at hfirst
    rw [program_recode]
    exact ⟨rfl, found, hoperands.trans (operands_of_compile ha stage), hfirst,
      a.endsWithRoutines stage, hmain other, (a.recode other.recoding).endsWithRoutines stage⟩

end Library

/-- An array of textures, of which elements are sampled, and a texture that is sampled as a whole. -/
def sampledTextures : Stage → List LibraryNode
  | .vertex =>
    [.camera, .light (.shadowVertex 1 { id := 0, var := Shadow.interfaceVar 1 }
      { value := .ofVec3 .zero .zero .zero }
      (some (.uniform { stage := .vertex, graph := 0, index := 0 } CameraNode.modelMatrix)))]
  | .fragment =>
    [.texture (.binding "tDepth" (some 1)), .texture (.binding "tBase" none),
      .light (.shadowFragment 1 { id := 0, var := Shadow.interfaceVar 1 }
        (.uniform { stage := .fragment, graph := 1, index := 0 }
          { name := "tDepth", ty := .sampler .tex2d, arrayLen := some 1 })),
      .texture (.newSample (.uniform { stage := .fragment, graph := 1, index := 1 }
        { name := "tBase", ty := .sampler .tex2d }) true)]

/-- With separate samplers and without, the routines are the same up to eleven operands. -/
theorem sampledTextures_formatted :
    ∃ a b, ((libraryModel "textures" (graphsFrom 0) sampledTextures).compile
        { target := .vulkan }).outcome = .ok a ∧
      ((libraryModel "textures" (graphsFrom 0) sampledTextures).compile
        { target := .webgl2 }).outcome = .ok b ∧
      a.fragment.code.helpers.map Prod.fst =
        ["light_getFragToLight", "light_getRadiance", "premultiplyAlpha"] ∧
      a.fragment.code.helpers = b.fragment.code.helpers ∧
      ∃ found, (operands found).length = 11 ∧
        a.fragment.mainRoutine = Target.vulkan.mainOf found ∧
        b.fragment.mainRoutine = Target.webgl2.mainOf found := by
  have hcompiles : ((libraryModel "textures" (graphsFrom 0) sampledTextures).compile
      { target := .vulkan }).outcome.toOption.map
        (fun shader => shader.fragment.code.helpers.map Prod.fst) =
      some ["light_getFragToLight", "light_getRadiance", "premultiplyAlpha"] := by
    decide +kernel
  have hcount : (((libraryModel "textures" (graphsFrom 0) sampledTextures).order .fragment).flatMap
      (operandsAt .vulkan sampledTextures .fragment)).length = 11 := by
    decide +kernel
  have hidentifiers : ∀ stage, ∀ node ∈ sampledTextures stage, ∀ operand ∈ node.operands .vulkan,
      IsIdentifier operand.name := by
    intro stage
    cases stage <;> decide +kernel
  obtain ⟨a, ha, hhelpers⟩ := exists_ok_of_map_eq hcompiles
  obtain ⟨b, hb, -, -, -, hroutines⟩ :=
    (targets_differ_in_formatting (fun stage node hnode operand hoperand =>
      (hidentifiers stage node hnode operand hoperand).tight) .webgl2).2 a ha
  obtain ⟨hsame, found, hoperands, hvulkan, -, hwebgl, -⟩ := hroutines .fragment
  exact ⟨a, b, ha, hb, hhelpers, hsame, found, hoperands ▸ hcount, hvulkan, hwebgl⟩

end ShaderWeave
