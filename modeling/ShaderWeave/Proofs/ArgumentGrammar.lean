import Mathlib.Data.List.Forall2
import Mathlib.Data.List.Induction
import Mathlib.Tactic.SplitIfs
import ShaderWeave.CommandLine.Options

/-!
# The Grammar of Command Lines

A list of arguments is read exactly if it is a sequence of groups. A flag takes the argument after it as
its value, whatever that looks like, so where a group begins depends on all groups before it: the same
argument can be a flag in one list and a value in another.

## Main definitions

* `Group`: a group that is well formed, and `written`, the arguments that some groups stand for.
* `Options.GivenBy`: what options hold after some groups.
* `Malformed`: arguments that begin with a group that is not well formed, and what is wrong with it.

## Main results

* `extend_written`: groups are read one after another, whatever follows them.
* `exists_groups`: every list of arguments is a sequence of groups up to its end or up to a malformed
  group.
* `parse_reads_groups`: which arguments are read, and with what outcome.
-/

namespace ShaderWeave

namespace Target

/-- The names of a target. -/
def names : Target → List String
  | vulkan => ["vulkan", "vk"]
  | opengl => ["opengl", "gl"]
  | webgl2 => ["webgl2", "webgl"]

/-- The text is the name of a target, with any of its letters as capitals. -/
def IsNamed (text : String) (target : Target) : Prop :=
  ∃ name ∈ target.names, List.Forall₂ (fun c d => c = d ∨ c = d.toUpper) text.toList name.toList

/-- Capitals are lowered by their distance to the small letters. -/
theorem toNat_toLower (c : Char) :
    c.toLower.toNat = if 65 ≤ c.toNat ∧ c.toNat ≤ 90 then c.toNat + 32 else c.toNat := by
  by_cases h : c.val ≥ 65 ∧ c.val ≤ 90
  · have hlower : c.toLower.val = c.val + 32 := congrArg Char.val (dif_pos h)
    rw [ge_iff_le, UInt32.le_iff_toNat_le, UInt32.le_iff_toNat_le] at h
    have hbounds : 65 ≤ c.toNat ∧ c.toNat ≤ 90 := h
    rw [if_pos hbounds, ← Char.toNat_val, hlower, UInt32.toNat_add]
    change (c.toNat + 32) % 2 ^ 32 = _
    omega
  · have hlower : c.toLower = c := dif_neg h
    rw [ge_iff_le, UInt32.le_iff_toNat_le, UInt32.le_iff_toNat_le] at h
    rw [hlower, if_neg]
    exact h

/-- Small letters are raised by the same distance. -/
theorem toNat_toUpper (c : Char) :
    c.toUpper.toNat = if 97 ≤ c.toNat ∧ c.toNat ≤ 122 then c.toNat - 32 else c.toNat := by
  by_cases h : 'a'.val ≤ c.val ∧ c.val ≤ 'z'.val
  · have hupper : c.toUpper.val = c.val + ('A'.val - 'a'.val) := by
      delta Char.toUpper
      rw [dif_pos h]
    rw [UInt32.le_iff_toNat_le, UInt32.le_iff_toNat_le] at h
    have hbounds : 97 ≤ c.toNat ∧ c.toNat ≤ 122 := h
    rw [if_pos hbounds, ← Char.toNat_val, hupper, UInt32.toNat_add]
    change (c.toNat + 4294967264) % 2 ^ 32 = _
    omega
  · have hupper : c.toUpper = c := dif_neg h
    rw [UInt32.le_iff_toNat_le, UInt32.le_iff_toNat_le] at h
    rw [hupper, if_neg]
    exact h

theorem toLower_eq_iff {c d : Char} (h : d.isUpper = false) :
    c.toLower = d ↔ c = d ∨ c = d.toUpper := by
  have hd : ¬ (d.val ≥ 65 ∧ d.val ≤ 90) := of_decide_eq_false h
  rw [ge_iff_le, UInt32.le_iff_toNat_le, UInt32.le_iff_toNat_le] at hd
  have hbounds : ¬ (65 ≤ d.toNat ∧ d.toNat ≤ 90) := hd
  rw [← Char.toNat_inj, ← Char.toNat_inj, ← Char.toNat_inj, toNat_toLower, toNat_toUpper]
  split <;> split <;> omega

/-- A text has a name in lower case if each of its characters is that of the name or its capital. -/
theorem lowered_eq_iff {text name : String} (h : name.toList.all (!·.isUpper) = true) :
    lowered text = name ↔
      List.Forall₂ (fun c d => c = d ∨ c = d.toUpper) text.toList name.toList := by
  rw [lowered, ← String.toList_inj, String.toList_map, ← List.forall₂_eq_eq_eq,
    List.forall₂_map_left_iff]
  generalize text.toList = chars
  generalize name.toList = letters at h
  induction letters generalizing chars with
  | nil => simp
  | cons d letters ih =>
    rw [List.all_cons, Bool.and_eq_true, Bool.not_eq_true'] at h
    cases chars with
    | nil => simp
    | cons c chars => rw [List.forall₂_cons, List.forall₂_cons, toLower_eq_iff h.1, ih _ h.2]

theorem ofName?_eq_some_iff_mem {text : String} {target : Target} :
    ofName? text = some target ↔ lowered text ∈ target.names := by
  unfold ofName?
  generalize lowered text = name
  dsimp only
  split_ifs with hvulkan hopengl hwebgl
  · rcases hvulkan with rfl | rfl <;> cases target <;> decide
  · rcases hopengl with rfl | rfl <;> cases target <;> decide
  · rcases hwebgl with rfl | rfl <;> cases target <;> decide
  · cases target <;> simp_all [names]

theorem ofName?_eq_some_iff {text : String} {target : Target} :
    ofName? text = some target ↔ IsNamed text target := by
  have hlower : ∀ name ∈ target.names, name.toList.all (!·.isUpper) = true := by
    cases target <;> simp [names]
  rw [ofName?_eq_some_iff_mem, IsNamed]
  constructor
  · intro hmem
    exact ⟨_, hmem, (lowered_eq_iff (hlower _ hmem)).1 rfl⟩
  · rintro ⟨name, hmem, hspelled⟩
    rwa [(lowered_eq_iff (hlower name hmem)).2 hspelled]

end Target

namespace Preset

theorem ofName?_eq_some_iff {text : String} {preset : Preset} :
    ofName? text = some preset ↔ preset.label = text := by
  constructor
  · intro hfind
    unfold ofName? at hfind
    have hlabel := List.find?_some hfind
    exact eq_of_beq hlabel
  · rintro rfl
    exact ofName?_label preset

end Preset

namespace CommandLine

open Options

/-! ## Groups -/

/-- A well-formed group of arguments. -/
inductive Group where
  /-- Asks for a validator. -/
  | validate
  /-- Names a preset. -/
  | model (preset : Preset)
  /-- Names a target. -/
  | target (text : String) (target : Target) (named : target.IsNamed text)
  /-- Gives the path of the configuration. -/
  | config (path : String)
  /-- Gives the directory for the outputs, by one of two flags. -/
  | outputDir (hyphenated : Bool) (path : String)

namespace Group

/-- The arguments that a group stands for. -/
def arguments : Group → List String
  | validate => ["--validate"]
  | model preset => ["--model", preset.label]
  | target text _ _ => ["--backend", text]
  | config path => ["--config", path]
  | outputDir hyphenated path => [if hyphenated then "--output-dir" else "--outputdir", path]

/-- The preset that a group names. -/
def model? : Group → Option Preset
  | model preset => some preset
  | _ => none

/-- The target that a group names. -/
def target? : Group → Option Target
  | .target _ named _ => some named
  | _ => none

/-- The configuration that a group gives. -/
def config? : Group → Option String
  | config path => some path
  | _ => none

/-- The directory that a group gives. -/
def outputDir? : Group → Option String
  | outputDir _ path => some path
  | _ => none

/-- Whether a group asks for a validator. -/
def isValidate : Group → Bool
  | validate => true
  | _ => false

end Group

/-- The arguments that some groups stand for. -/
def written (groups : List Group) : List String :=
  groups.flatMap Group.arguments

/-- What options hold after some groups: each the value of its last group. -/
structure Options.GivenBy (options : Options) (groups : List Group) : Prop where
  /-- The preset. -/
  model_eq : options.model = (groups.filterMap Group.model?).getLast?
  /-- The target. -/
  target_eq : options.target = (groups.filterMap Group.target?).getLast?
  /-- The configuration. -/
  config_eq : options.config = (groups.filterMap Group.config?).getLast?
  /-- The directory for the outputs. -/
  outputDir_eq : options.outputDir = (groups.filterMap Group.outputDir?).getLast?
  /-- A validator is asked for if some group asks for it. -/
  validate_eq : options.validate = groups.any Group.isValidate

/-- The flags that take a value, by name. -/
def flagNames : List (String × Flag) :=
  [("--model", .model), ("--backend", .target), ("--config", .config), ("--output-dir", .outputDir),
    ("--outputdir", .outputDir)]

/-- Arguments that begin with a malformed group, and what is wrong with it. -/
inductive Malformed : List String → UsageError → Prop where
  /-- The first argument is no flag. -/
  | unknownArgument (argument : String) (rest : List String) (hvalidate : argument ≠ "--validate")
      (hflag : ∀ flag, (argument, flag) ∉ flagNames) :
      Malformed (argument :: rest) (.unknownArgument argument)
  /-- A flag stands at the end. -/
  | missingValue (name : String) (flag : Flag) (hflag : (name, flag) ∈ flagNames) :
      Malformed [name] (.missingValue flag)
  /-- A value names no preset. -/
  | unknownModel (text : String) (rest : List String) (hmodel : ∀ preset : Preset, preset.label ≠ text) :
      Malformed ("--model" :: text :: rest) (.unknownModel text)
  /-- A value names no target. -/
  | unknownTarget (text : String) (rest : List String) (htarget : ∀ target, ¬ Target.IsNamed text target) :
      Malformed ("--backend" :: text :: rest) (.unknownTarget text)

/-! ## Reading One Group -/

theorem Flag.ofArgument?_eq_some_iff {argument : String} {flag : Flag} :
    Flag.ofArgument? argument = some flag ↔ (argument, flag) ∈ flagNames := by
  constructor
  · unfold Flag.ofArgument?
    split_ifs with hshort
    · intro hflag
      cases hflag
      subst hshort
      decide
    · intro hfind
      have hlabel := List.find?_some hfind
      obtain rfl := eq_of_beq hlabel
      cases flag <;> decide
  · intro hmem
    simp only [flagNames, List.mem_cons, Prod.mk.injEq, List.not_mem_nil, or_false] at hmem
    obtain ⟨rfl, rfl⟩ | ⟨rfl, rfl⟩ | ⟨rfl, rfl⟩ | ⟨rfl, rfl⟩ | ⟨rfl, rfl⟩ := hmem <;> rfl

theorem mem_flagNames_model : ("--model", Flag.model) ∈ flagNames := by decide

theorem mem_flagNames_target : ("--backend", Flag.target) ∈ flagNames := by decide

theorem ne_validate_of_mem_flagNames {name : String} {flag : Flag} (h : (name, flag) ∈ flagNames) :
    name ≠ "--validate" := by
  rintro rfl
  simp [flagNames] at h

section Reading

variable {options : Options} {name value : String} {flag : Flag} {rest : List String}

theorem extend_validate : extend options ("--validate" :: rest) =
    extend { options with validate := true } rest := by
  rw [extend.eq_def]
  simp only [if_true]

/-- A flag takes the next argument as its value. -/
theorem extend_flag (hflag : (name, flag) ∈ flagNames) :
    extend options (name :: value :: rest) = (options.set flag value).bind (extend · rest) := by
  rw [extend.eq_def]
  simp only [if_neg (ne_validate_of_mem_flagNames hflag), Flag.ofArgument?_eq_some_iff.2 hflag]
  cases options.set flag value <;> rfl

theorem extend_flag_end (hflag : (name, flag) ∈ flagNames) :
    extend options [name] = .error (.missingValue flag) := by
  rw [extend.eq_def]
  simp only [if_neg (ne_validate_of_mem_flagNames hflag), Flag.ofArgument?_eq_some_iff.2 hflag]

end Reading

/-- The options with what a group gives. -/
def Group.apply (options : Options) : Group → Options
  | validate => { options with validate := true }
  | model preset => { options with model := some preset }
  | target _ named _ => { options with target := some named }
  | config path => { options with config := some path }
  | outputDir _ path => { options with outputDir := some path }

/-- A group is read as such, whatever follows it. -/
theorem extend_group (options : Options) (group : Group) (rest : List String) :
    extend options (group.arguments ++ rest) = extend (group.apply options) rest := by
  cases group with
  | validate => exact extend_validate
  | model preset =>
    refine (extend_flag mem_flagNames_model).trans ?_
    rw [Options.set, Preset.ofName?_label]
    rfl
  | target text target named =>
    refine (extend_flag mem_flagNames_target).trans ?_
    rw [Options.set, Target.ofName?_eq_some_iff.2 named]
    rfl
  | config path =>
    have hname : ("--config", Flag.config) ∈ flagNames := by decide
    exact extend_flag hname
  | outputDir hyphenated path =>
    have hname : (if hyphenated then "--output-dir" else "--outputdir", Flag.outputDir) ∈ flagNames := by
      cases hyphenated <;> decide
    exact extend_flag hname

/-- A malformed group is refused, whatever the options are so far. -/
theorem extend_malformed {arguments : List String} {error : UsageError}
    (h : Malformed arguments error) (options : Options) : extend options arguments = .error error := by
  cases h with
  | unknownArgument argument rest hvalidate hflag =>
    have hnone : Flag.ofArgument? argument = none := by
      rw [Option.eq_none_iff_forall_ne_some]
      intro flag hsome
      exact hflag flag (Flag.ofArgument?_eq_some_iff.1 hsome)
    rw [extend.eq_def]
    simp only [if_neg hvalidate, hnone]
  | missingValue name flag hflag => exact extend_flag_end hflag
  | unknownModel text rest hmodel =>
    have hnone : Preset.ofName? text = none := by
      rw [Option.eq_none_iff_forall_ne_some]
      intro preset hsome
      exact hmodel preset (Preset.ofName?_eq_some_iff.1 hsome)
    rw [extend_flag mem_flagNames_model, Options.set, hnone]
    rfl
  | unknownTarget text rest htarget =>
    have hnone : Target.ofName? text = none := by
      rw [Option.eq_none_iff_forall_ne_some]
      intro target hsome
      exact htarget target (Target.ofName?_eq_some_iff.1 hsome)
    rw [extend_flag mem_flagNames_target, Options.set, hnone]
    rfl

/-! ## Reading All Groups -/

/-- Groups are read one after another, and what follows them is read with the options that they give. -/
theorem extend_written (options : Options) (groups : List Group) (rest : List String) :
    extend options (written groups ++ rest) = extend (groups.foldl Group.apply options) rest := by
  induction groups generalizing options with
  | nil => rfl
  | cons group groups ih =>
    rw [written, List.flatMap_cons, List.append_assoc, extend_group, List.foldl_cons]
    exact ih _

/-- Arguments begin with a group that is well formed or with one that is not. -/
theorem exists_group_or_malformed (argument : String) (rest : List String) :
    (∃ group more, argument :: rest = Group.arguments group ++ more) ∨
      ∃ error, Malformed (argument :: rest) error := by
  by_cases hvalidate : argument = "--validate"
  · subst hvalidate
    exact .inl ⟨.validate, rest, rfl⟩
  by_cases hflag : ∃ flag, (argument, flag) ∈ flagNames
  · obtain ⟨flag, hflag⟩ := hflag
    cases rest with
    | nil => exact .inr ⟨_, .missingValue argument flag hflag⟩
    | cons value more =>
      have hnames := hflag
      simp only [flagNames, List.mem_cons, Prod.mk.injEq, List.not_mem_nil, or_false] at hnames
      obtain ⟨rfl, rfl⟩ | ⟨rfl, rfl⟩ | ⟨rfl, rfl⟩ | ⟨rfl, rfl⟩ | ⟨rfl, rfl⟩ := hnames
      · by_cases hmodel : ∃ preset : Preset, preset.label = value
        · obtain ⟨preset, rfl⟩ := hmodel
          exact .inl ⟨.model preset, more, rfl⟩
        · exact .inr ⟨_, .unknownModel value more (not_exists.1 hmodel)⟩
      · by_cases htarget : ∃ target, Target.IsNamed value target
        · obtain ⟨target, hnamed⟩ := htarget
          exact .inl ⟨.target value target hnamed, more, rfl⟩
        · exact .inr ⟨_, .unknownTarget value more (not_exists.1 htarget)⟩
      · exact .inl ⟨.config value, more, rfl⟩
      · exact .inl ⟨.outputDir true value, more, rfl⟩
      · exact .inl ⟨.outputDir false value, more, rfl⟩
  · exact .inr ⟨_, .unknownArgument argument rest hvalidate (not_exists.1 hflag)⟩

/-- Every list of arguments is a sequence of groups, up to its end or up to a malformed group. -/
theorem exists_groups (arguments : List String) :
    ∃ groups rest, arguments = written groups ++ rest ∧ (rest = [] ∨ ∃ error, Malformed rest error) := by
  -- A group takes one argument or two, so the induction is on the number of those that are left.
  induction hlength : arguments.length using Nat.strongRecOn generalizing arguments with
  | ind length ih =>
    subst hlength
    cases arguments with
    | nil => exact ⟨[], [], rfl, .inl rfl⟩
    | cons argument others =>
      rcases exists_group_or_malformed argument others with ⟨group, more, hsplit⟩ | hmalformed
      · have hshorter : more.length < (argument :: others).length := by
          have hpositive : 0 < group.arguments.length := by
            cases group <;> exact Nat.succ_pos _
          rw [hsplit, List.length_append]
          omega
        obtain ⟨groups, rest, rfl, hrest⟩ := ih _ hshorter more rfl
        exact ⟨group :: groups, rest, by rw [hsplit, written, written, List.flatMap_cons,
          List.append_assoc], hrest⟩
      · exact ⟨[], argument :: others, rfl, .inr hmalformed⟩

/-! ## The Options that Groups Give -/

/-- After some groups the options hold for each flag the value of its last group. -/
theorem givenBy_foldl_apply (groups : List Group) :
    (groups.foldl Group.apply {}).GivenBy groups := by
  -- Groups are added at the end, since it is the last one of a flag that counts.
  induction groups using List.reverseRecOn with
  | nil => exact ⟨rfl, rfl, rfl, rfl, rfl⟩
  | append_singleton groups group ih =>
    rw [List.foldl_append, List.foldl_cons, List.foldl_nil]
    obtain ⟨hmodel, htarget, hconfig, houtputDir, hvalidate⟩ := ih
    constructor
    all_goals
      cases group <;> simp [Group.apply, Group.model?, Group.target?, Group.config?, Group.outputDir?,
        Group.isValidate, *]

theorem Options.GivenBy.eq_foldl_apply {options : Options} {groups : List Group}
    (h : options.GivenBy groups) : options = groups.foldl Group.apply {} := by
  have hgroups := givenBy_foldl_apply groups
  cases options
  generalize groups.foldl Group.apply {} = other at hgroups
  cases other
  simp only [Options.mk.injEq]
  exact ⟨h.model_eq.trans hgroups.model_eq.symm, h.target_eq.trans hgroups.target_eq.symm,
    h.config_eq.trans hgroups.config_eq.symm, h.outputDir_eq.trans hgroups.outputDir_eq.symm,
    h.validate_eq.trans hgroups.validate_eq.symm⟩

/-- The options, and those of `first` where nothing is set. -/
def Options.over (options first : Options) : Options where
  model := options.model.or first.model
  target := options.target.or first.target
  config := options.config.or first.config
  outputDir := options.outputDir.or first.outputDir
  validate := options.validate || first.validate

theorem empty_over (first : Options) : Options.over {} first = first := by
  simp [Options.over]

theorem apply_over (options first : Options) (group : Group) :
    group.apply (options.over first) = (group.apply options).over first := by
  cases group <;> simp [Group.apply, Options.over]

/-- Groups that are read after others set their own options and leave the rest. -/
theorem foldl_apply_over (options first : Options) (groups : List Group) :
    groups.foldl Group.apply (options.over first) = (groups.foldl Group.apply options).over first := by
  induction groups generalizing options with
  | nil => rfl
  | cons group groups ih => rw [List.foldl_cons, List.foldl_cons, apply_over, ih]

/-! ## Main Result -/

theorem parse_written (groups : List Group) :
    parse (written groups) = .ok (groups.foldl Group.apply {}) := by
  have hread := extend_written {} groups []
  rwa [List.append_nil] at hread

theorem parse_malformed {rest : List String} {error : UsageError} (groups : List Group)
    (h : Malformed rest error) : parse (written groups ++ rest) = .error error := by
  rw [parse, extend_written, extend_malformed h]

theorem parse_eq_ok_iff {arguments : List String} {options : Options} :
    parse arguments = .ok options ↔ ∃ groups, arguments = written groups ∧ options.GivenBy groups := by
  constructor
  · intro hok
    obtain ⟨groups, rest, rfl, rfl | ⟨error, hmalformed⟩⟩ := exists_groups arguments
    · rw [List.append_nil, parse_written] at hok
      cases hok
      exact ⟨groups, List.append_nil _, givenBy_foldl_apply groups⟩
    · rw [parse_malformed groups hmalformed] at hok
      cases hok
  · rintro ⟨groups, rfl, hgiven⟩
    rw [hgiven.eq_foldl_apply, parse_written]

theorem parse_eq_error_iff {arguments : List String} {error : UsageError} :
    parse arguments = .error error ↔
      ∃ groups rest, arguments = written groups ++ rest ∧ Malformed rest error := by
  constructor
  · intro herror
    obtain ⟨groups, rest, rfl, rfl | ⟨found, hmalformed⟩⟩ := exists_groups arguments
    · rw [List.append_nil, parse_written] at herror
      cases herror
    · rw [parse_malformed groups hmalformed] at herror
      cases herror
      exact ⟨groups, rest, rfl, hmalformed⟩
  · rintro ⟨groups, rest, rfl, hmalformed⟩
    exact parse_malformed groups hmalformed

/-- What is read after arguments that are read sets its own options and leaves those of the first. -/
theorem parse_append {arguments more : List String} {first : Options}
    (h : parse arguments = .ok first) : parse (arguments ++ more) = (parse more).map (·.over first) := by
  obtain ⟨groups, rfl, hgiven⟩ := parse_eq_ok_iff.1 h
  -- The first arguments end with a group, so that the others are grouped as they are alone.
  rw [parse, extend_written, ← hgiven.eq_foldl_apply]
  obtain ⟨others, rest, rfl, rfl | ⟨error, hmalformed⟩⟩ := exists_groups more
  · have hover := foldl_apply_over {} first others
    rw [empty_over] at hover
    rw [extend_written, hover, List.append_nil, parse_written]
    rfl
  · rw [parse_malformed others hmalformed, extend_written, extend_malformed hmalformed]
    rfl

/-- The arguments that are read, and with what outcome.

* Arguments are read exactly if they are a sequence of groups, and then the options hold for each flag
  the value of its last group.
* They are refused exactly if after some groups they go on with a malformed one, and then with what is
  wrong with that one.
* If they are read, more arguments can follow: the outcome is that of reading these alone, with the
  options that they do not set taken from the first ones. -/
theorem parse_reads_groups (arguments : List String) :
    (∀ options, parse arguments = .ok options ↔
      ∃ groups, arguments = written groups ∧ options.GivenBy groups) ∧
    (∀ error, parse arguments = .error error ↔
      ∃ groups rest, arguments = written groups ++ rest ∧ Malformed rest error) ∧
    ∀ first, parse arguments = .ok first →
      ∀ more, parse (arguments ++ more) = (parse more).map (·.over first) :=
  ⟨fun _ => parse_eq_ok_iff, fun _ => parse_eq_error_iff, fun _ hfirst _ => parse_append hfirst⟩

/-- A flag can be the value of another one, the last target counts, and a second list adds to the first. -/
theorem flagAsValue_read :
    parse ["--config", "--validate", "--backend", "VK", "--backend", "WebGL"] =
        .ok { target := some .webgl2, config := some "--validate" } ∧
      parse ["--config", "--validate", "--backend", "VK", "--backend", "WebGL", "--validate", "--model",
          "textured"] =
        .ok { model := some .textured, target := some .webgl2, config := some "--validate",
              validate := true } := by
  have hfirst : parse ["--config", "--validate", "--backend", "VK", "--backend", "WebGL"] =
      .ok { target := some .webgl2, config := some "--validate" } := by
    decide +kernel
  exact ⟨hfirst, (parse_reads_groups _).2.2 _ hfirst ["--validate", "--model", "textured"]⟩

end CommandLine

end ShaderWeave
