import ShaderWeave.Resource.Declaration

/-!
# Reading Declarations Back

A reader of the declarations at the beginning of a source: it cuts the text into words and symbols, the
words and symbols into statements, and reads each statement as one form of declaration. It knows the
forms of the target with explicit bindings, and stops at the first statement that has none of them.

## Main definitions

* `Source.lex`: the words and symbols of a text.
* `Source.statements`: what stands between semicolons outside of braces.
* `Source.declaration`: reads a statement as a declaration.
* `Source.readSources`: what the declarations of two sources say about a model.

## Main results

* `lex_append`: a text is cut at a place where no word goes on.
* `Reads`, `ReadsAll`: what a reader makes of a printed text, with rules to put them together.
-/

namespace ShaderWeave.Source

/-! ## Words and Symbols -/

/-- A word or a symbol. -/
inductive Token where
  /-- Letters, digits and underscores. -/
  | word (text : String)
  /-- Any other character that is not blank. -/
  | symbol (c : Char)
deriving DecidableEq

/-- Whether a character can be part of a word. -/
def isWordChar (c : Char) : Bool :=
  c.isAlphanum || c == '_'

/-- The word of the given characters, if there are any. -/
def flush (chars : List Char) : List Token :=
  if chars.isEmpty then [] else [.word (String.ofList chars)]

/-- The words and symbols of a text that goes on with a word. -/
def lexFrom : (begun : List Char) → List Char → List Token
  | begun, [] => flush begun
  | begun, c :: rest =>
    if isWordChar c then lexFrom (begun ++ [c]) rest
    else flush begun ++ (if c.isWhitespace then [] else [.symbol c]) ++ lexFrom [] rest

/-- The words and symbols of a text. -/
def lex (text : String) : List Token :=
  lexFrom [] text.toList

/-- Whether the text is a word. -/
def IsWord (text : String) : Prop :=
  text ≠ "" ∧ ∀ c ∈ text.toList, isWordChar c = true

-- The characters of the text are tested, not all characters there are.
instance (text : String) : Decidable (IsWord text) :=
  decidable_of_iff (text ≠ "" ∧ text.toList.all isWordChar = true) (by rw [IsWord, List.all_eq_true])

/-- Whether no word can go on beyond the end of the text. -/
def endsApart (text : String) : Bool :=
  text.toList.getLast?.all (!isWordChar ·)

/-- Whether no word can go on into the text. -/
def startsApart (text : String) : Bool :=
  text.toList.head?.all (!isWordChar ·)

/-! ## Statements -/

/-- The depth in braces after a token. -/
def depthAfter (depth : Nat) : Token → Nat
  | .symbol '\x7b' => depth + 1
  | .symbol '\x7d' => depth - 1
  | _ => depth

/-- The statements of tokens that go on with a statement, at a depth in braces. -/
def cut : (depth : Nat) → (begun : List Token) → List Token → List (List Token)
  | _, begun, [] => if begun.isEmpty then [] else [begun]
  | depth, begun, token :: rest =>
    if token = .symbol ';' ∧ depth = 0 then begun :: cut 0 [] rest
    else cut (depthAfter depth token) (begun ++ [token]) rest

/-- What stands between semicolons outside of braces. -/
def statements (tokens : List Token) : List (List Token) :=
  cut 0 [] tokens

/-! ## Readers -/

/-- A reader takes something from the beginning of tokens and leaves the others. -/
abbrev Reader := StateT (List Token) Option

/-- Read the words and symbols of a text. -/
def phrase (text : String) : Reader Unit := fun tokens =>
  if (lex text).isPrefixOf tokens then some ((), tokens.drop (lex text).length) else none

/-- Read a word with a meaning. -/
def wordAs {α : Type} (meaning : String → Option α) : Reader α
  | .word text :: rest => (meaning text).map (·, rest)
  | _ => none

/-- Read any word. -/
def word : Reader String := wordAs some

/-- The word that the digits of a text stand for. -/
def number? (text : String) : Option UInt32 :=
  if text.toList.all Char.isDigit then Word.ofNat? (Nat.ofDigitChars 10 text.toList 0) else none

/-- Read a number. -/
def number : Reader UInt32 := wordAs number?

/-- Read a type. -/
def typeName : Reader ValueType :=
  wordAs fun text => ValueType.all.find? (·.glsl == text)

/-- What a reader takes, if it takes everything. -/
def whole {α : Type} (item : Reader α) (tokens : List Token) : Option α :=
  match item tokens with
  | some (value, []) => some value
  | _ => none

/-- Read items, each with a semicolon after it, between braces. -/
def braced {α : Type} (item : Reader α) : Reader (List α)
  | .symbol '\x7b' :: rest =>
    if rest.getLast? = some (.symbol '\x7d') then
      ((statements rest.dropLast).mapM (whole item)).map (·, [])
    else none
  | _ => none

/-- Read the length of an array, if there is one. -/
def arrayLength : Reader (Option UInt32) := fun tokens =>
  if tokens.isEmpty then some (none, [])
  else (do phrase "["; let len ← number; phrase "]"; return some len : Reader _) tokens

/-- Read a type, a name and the length of an array. -/
def contract : Reader Variable := do
  let ty ← typeName
  let name ← word
  let arrayLen ← arrayLength
  return { name, ty, arrayLen }

/-- Read a direction. -/
def direction : Reader Direction :=
  wordAs fun text => [Direction.input, .output].find? (·.keyword == text)

/-- Read a direction, with or without the note that values are not interpolated. -/
def flow : Reader Direction
  | .word "flat" :: rest => direction rest
  | tokens => direction tokens

/-! ## Declarations -/

/-- A declaration. -/
inductive Declaration where
  /-- A variable at a location. -/
  | located (location : UInt32) (direction : Direction) (var : Variable)
  /-- A uniform block. -/
  | block (binding : UInt32) (name : String) (members : List Variable)
  /-- The push constants of a stage, with their offsets. -/
  | pushConstants (constants : List (UInt32 × ValueType × String))
  /-- A texture object. -/
  | texture (binding : UInt32) (dim : TextureDim) (name : String)
  /-- A sampler object. -/
  | sampler (binding : UInt32) (name : String)
deriving DecidableEq

/-- Read a variable at a location. -/
def located : Reader Declaration := do
  phrase "layout(location ="
  let location ← number
  phrase ")"
  let direction ← flow
  let var ← contract
  return .located location direction var

/-- Read a uniform block. -/
def block : Reader Declaration := do
  phrase "layout(std140, set = 0, binding ="
  let binding ← number
  phrase ") uniform"
  let name ← word
  let members ← braced contract
  return .block binding name members

/-- Read a push constant with its offset. -/
def pushConstant : Reader (UInt32 × ValueType × String) := do
  phrase "layout(offset ="
  let offset ← number
  phrase ")"
  let ty ← typeName
  let name ← word
  return (offset, ty, name)

/-- Read the push constants of a stage. -/
def pushConstants : Reader Declaration := do
  phrase "layout(push_constant) uniform"
  let _ ← word
  let constants ← braced pushConstant
  return .pushConstants constants

/-- What kind of object a type is: a sampler, or a texture. -/
def objectKind? (text : String) : Option (Option TextureDim) :=
  if text = "sampler" then some none
  else ([TextureDim.tex2d, .tex3d, .cube].find? (·.textureType == text)).map some

/-- The declaration of an object of a kind. -/
def objectOf (binding : UInt32) (name : String) : Option TextureDim → Declaration
  | none => .sampler binding name
  | some dim => .texture binding dim name

/-- Read a texture or a sampler object. -/
def object : Reader Declaration := do
  phrase "layout(set = 0, binding ="
  let binding ← number
  phrase ") uniform"
  let kind ← wordAs objectKind?
  let name ← word
  return objectOf binding name kind

/-- The form of a declaration with the given first qualifier. -/
def form? (qualifier : String) : Option (Reader Declaration) :=
  [("location", located), ("std140", block), ("push_constant", pushConstants), ("set", object)].lookup
    qualifier

/-- Read a declaration. -/
def declaration : Reader Declaration := fun (tokens : List Token) =>
  match tokens[2]? with
  | some (Token.word qualifier) =>
    match form? qualifier with
    | some form => form tokens
    | none => none
  | _ => none

/-- What is read of statements, up to the first that cannot be read. -/
def readWhile {α : Type} (item : Reader α) : List (List Token) → List α
  | [] => []
  | statement :: rest =>
    match whole item statement with
    | some value => value :: readWhile item rest
    | none => []

/-- The declarations at the beginning of a source, after the version. -/
def readDeclarations (source : String) : Option (List Declaration) :=
  (phrase "#version 450" (lex source)).map fun (_, rest) =>
    readWhile declaration (statements rest)

/-! ## What Declarations Say -/

/-- A uniform block, as it is declared. -/
structure DeclaredBlock where
  /-- Name in the source. -/
  name : String
  /-- Stage that declares it. -/
  stage : Stage
  /-- Binding number. -/
  binding : UInt32
  /-- Its members, in order. -/
  members : List Variable
deriving DecidableEq

/-- A push constant, as it is declared. -/
structure DeclaredConstant where
  /-- Name in the source. -/
  name : String
  /-- Stage that declares it. -/
  stage : Stage
  /-- Type. -/
  ty : ValueType
  /-- First byte among the push constants of the model. -/
  offset : UInt32
deriving DecidableEq

/-- The variables of a direction. -/
def locatedIn (direction : Direction) (declarations : List Declaration) : List InterfaceSlot :=
  declarations.filterMap fun
    | .located slot direction' var => if direction' = direction then some { slot, var } else none
    | _ => none

/-- The uniform blocks. -/
def blocksOf (stage : Stage) (declarations : List Declaration) : List DeclaredBlock :=
  declarations.filterMap fun
    | .block binding name members => some { name, stage, binding, members }
    | _ => none

/-- The push constants. -/
def constantsOf (stage : Stage) (declarations : List Declaration) : List DeclaredConstant :=
  declarations.flatMap fun
    | .pushConstants constants =>
      constants.map fun (offset, ty, name) => { name, stage, ty, offset }
    | _ => []

/-- A texture object, as it is declared. -/
structure TextureObject where
  /-- Binding number. -/
  binding : UInt32
  /-- Dimensionality. -/
  dim : TextureDim
  /-- Name in the source. -/
  name : String
deriving DecidableEq

/-- The name of the texture that a sampler object belongs to. -/
def textureOf? (object : String) : Option String :=
  let name := String.ofList (object.toList.take (object.toList.length - "Sampler".length))
  if name ++ "Sampler" = object then some name else none

/-- The elements of an array, numbered in their names and at successive bindings from `first` on. -/
def elements (name : String) (dim : TextureDim) (first len : Nat) : List TextureObject :=
  (List.range len).map fun i =>
    { binding := (first + i).toUInt32, dim, name := name ++ "_" ++ toString i }

/-- The texture, or the array of them, that texture objects and the sampler object after them make up.
Nothing but the sampler object is an array without elements. -/
def joined? (stage : Stage) (textures : List TextureObject) (samplerBinding : UInt32)
    (object : String) : Option SamplerBinding := do
  let name ← textureOf? object
  match textures with
  | [] =>
    return { name, stage, dim := .tex2d, arrayLen := some 0, binding := samplerBinding, samplerBinding }
  | first :: rest =>
    let { binding, dim, .. } := first
    if rest = [] ∧ first.name = name then
      return { name, stage, dim, arrayLen := none, binding, samplerBinding }
    else if first :: rest = elements name dim binding.toNat (rest.length + 1) then
      let len ← Word.ofNat? (rest.length + 1)
      return { name, stage, dim, arrayLen := some len, binding, samplerBinding }
    else
      none

/-- The samplers, each from the texture objects since the sampler object before. -/
def samplersFrom? (stage : Stage) (textures : List TextureObject) :
    List Declaration → Option (List SamplerBinding)
  | [] => if textures = [] then some [] else none
  | .texture binding dim name :: rest =>
    samplersFrom? stage (textures ++ [{ binding, dim, name }]) rest
  | .sampler binding name :: rest => do
    let sampler ← joined? stage textures binding name
    let samplers ← samplersFrom? stage [] rest
    return sampler :: samplers
  | _ :: rest => samplersFrom? stage textures rest

/-- What the declarations of both stages say about a model. -/
structure Facts where
  /-- The vertex attributes. -/
  attributes : List BoundAttribute
  /-- The interface between the stages. -/
  interface : List InterfaceSlot
  /-- The uniform blocks of both stages. -/
  blocks : List DeclaredBlock
  /-- The push constants of both stages. -/
  pushConstants : List DeclaredConstant
  /-- The samplers of both stages. -/
  samplers : List SamplerBinding
deriving DecidableEq

/-- What the sources of both stages say about a model. -/
def readSources (vertexSource fragmentSource : String) : Option Facts := do
  let vertex ← readDeclarations vertexSource
  let fragment ← readDeclarations fragmentSource
  let vertexSamplers ← samplersFrom? .vertex [] vertex
  let fragmentSamplers ← samplersFrom? .fragment [] fragment
  return {
    attributes := (locatedIn .input vertex).map fun { slot, var } =>
      { name := var.name, ty := var.ty, location := slot }
    interface := locatedIn .output vertex
    blocks := blocksOf .vertex vertex ++ blocksOf .fragment fragment
    pushConstants := constantsOf .vertex vertex ++ constantsOf .fragment fragment
    samplers := vertexSamplers ++ fragmentSamplers }

/-! ## Cutting a Text -/

theorem lexFrom_append {begun left right : List Char} (hbegun : ∀ c ∈ begun, isWordChar c = true)
    (hapart : (∀ c ∈ (begun ++ left).getLast?, isWordChar c = false) ∨
      ∀ c ∈ right.head?, isWordChar c = false) :
    lexFrom begun (left ++ right) = lexFrom begun left ++ lexFrom [] right := by
  induction left generalizing begun with
  | nil =>
    rw [List.append_nil] at hapart
    rw [List.nil_append, lexFrom]
    rcases hapart with hlast | hhead
    · -- A begun word would end in a character of a word, so none has begun.
      rcases List.eq_nil_or_concat begun with rfl | ⟨chars, c, rfl⟩
      · rfl
      · have hc := hbegun c (by simp)
        rw [hlast c (by simp)] at hc
        cases hc
    · cases right with
      | nil => simp [lexFrom, flush]
      | cons c rest => simp [lexFrom, hhead c rfl, flush]
  | cons c rest ih =>
    rw [List.cons_append, lexFrom, lexFrom]
    by_cases hc : isWordChar c = true
    · rw [if_pos hc, if_pos hc]
      refine ih ?_ (by simpa using hapart)
      intro d hd
      rcases List.mem_append.1 hd with hd | hd
      · exact hbegun d hd
      · rw [List.mem_singleton.1 hd]
        exact hc
    · rw [if_neg hc, if_neg hc, ih (fun d hd => absurd hd List.not_mem_nil) ?_,
        List.append_assoc, List.append_assoc, List.append_assoc]
      -- The last character of what is left is the last one as before, if anything is left.
      refine hapart.imp_left fun hlast d hd => hlast d ?_
      rw [List.nil_append] at hd
      rw [List.getLast?_append, List.getLast?_cons, hd]
      rfl

/-- A text is cut at a place where no word goes on. -/
theorem lex_append {left right : String}
    (hapart : endsApart left = true ∨ startsApart right = true) :
    lex (left ++ right) = lex left ++ lex right := by
  unfold lex
  rw [String.toList_append]
  refine lexFrom_append (fun c hc => absurd hc List.not_mem_nil) (hapart.imp ?_ ?_)
  · intro hends c hc
    simpa [endsApart, show left.toList.getLast? = some c from hc] using hends
  · intro hstarts c hc
    simpa [startsApart, show right.toList.head? = some c from hc] using hstarts

theorem lexFrom_word {begun chars : List Char} (hchars : ∀ c ∈ chars, isWordChar c = true) :
    lexFrom begun chars = flush (begun ++ chars) := by
  induction chars generalizing begun with
  | nil => rw [lexFrom, List.append_nil]
  | cons c rest ih =>
    rw [lexFrom, if_pos (hchars c List.mem_cons_self),
      ih fun d hd => hchars d (List.mem_cons_of_mem c hd), List.append_assoc, List.singleton_append]

theorem lex_word {text : String} (h : IsWord text) : lex text = [.word text] := by
  have hchars : text.toList ≠ [] := by
    simpa using h.1
  rw [lex, lexFrom_word h.2, List.nil_append, flush, List.isEmpty_eq_false_iff.2 hchars,
    String.ofList_toList]
  rfl

theorem startsApart_append {left right : String} (hne : left ≠ "") (h : startsApart left = true) :
    startsApart (left ++ right) = true := by
  unfold startsApart at *
  rw [String.toList_append, List.head?_append]
  cases hchars : left.toList with
  | nil => exact absurd (String.toList_eq_nil_iff.1 hchars) hne
  | cons c rest =>
    rw [hchars] at h
    exact h

/-- Blanks between texts leave no trace. -/
theorem lex_intercalate {separator : String} (hlex : lex separator = []) (hne : separator ≠ "")
    (hstarts : startsApart separator = true) (hends : endsApart separator = true)
    (texts : List String) : lex (String.intercalate separator texts) = texts.flatMap lex := by
  induction texts with
  | nil => rfl
  | cons text rest ih =>
    cases rest with
    | nil => rw [String.intercalate_singleton, List.flatMap_singleton]
    | cons next rest =>
      rw [String.intercalate_cons_cons, String.append_assoc,
        lex_append (.inr (startsApart_append hne hstarts)), lex_append (.inl hends), hlex, ih]
      rfl

/-! ## Cutting Statements -/

/-- Tokens that neither end a statement nor open or close braces. -/
def Flat (tokens : List Token) : Prop :=
  ∀ token ∈ tokens, token ≠ .symbol ';' ∧ token ≠ .symbol '\x7b' ∧ token ≠ .symbol '\x7d'

theorem depthAfter_of_ne {token : Token} (depth : Nat) (hopen : token ≠ .symbol '\x7b')
    (hclose : token ≠ .symbol '\x7d') : depthAfter depth token = depth := by
  unfold depthAfter
  split
  · exact absurd rfl hopen
  · exact absurd rfl hclose
  · rfl

/-- Tokens that keep a statement going are added to it. -/
theorem cut_append {depth : Nat} {begun tokens rest : List Token}
    (hbraces : ∀ token ∈ tokens, token ≠ .symbol '\x7b' ∧ token ≠ .symbol '\x7d')
    (hsemicolon : depth = 0 → .symbol ';' ∉ tokens) :
    cut depth begun (tokens ++ rest) = cut depth (begun ++ tokens) rest := by
  induction tokens generalizing begun with
  | nil => simp
  | cons token tokens ih =>
    have hnext : ¬ (token = .symbol ';' ∧ depth = 0) := by
      rintro ⟨rfl, hdepth⟩
      exact hsemicolon hdepth List.mem_cons_self
    obtain ⟨hopen, hclose⟩ := hbraces token List.mem_cons_self
    rw [List.cons_append, cut, if_neg hnext, depthAfter_of_ne depth hopen hclose, ih,
      List.append_assoc, List.singleton_append]
    · exact fun other hother => hbraces other (List.mem_cons_of_mem token hother)
    · exact fun hdepth hmem => hsemicolon hdepth (List.mem_cons_of_mem token hmem)

theorem cut_flat {begun tokens rest : List Token} (h : Flat tokens) :
    cut 0 begun (tokens ++ rest) = cut 0 (begun ++ tokens) rest :=
  cut_append (fun token hmem => (h token hmem).2) fun _ hmem => (h _ hmem).1 rfl

/-- A statement that has begun is there in full, first of all. -/
theorem cut_eq_cons {depth : Nat} {begun tokens : List Token} (hbegun : begun ≠ []) :
    ∃ more others, cut depth begun tokens = (begun ++ more) :: others := by
  induction tokens generalizing depth begun with
  | nil =>
    refine ⟨[], [], ?_⟩
    rw [cut, List.isEmpty_eq_false_iff.2 hbegun, List.append_nil]
    rfl
  | cons token rest ih =>
    rw [cut]
    split
    · exact ⟨[], cut 0 [] rest, by rw [List.append_nil]⟩
    · obtain ⟨more, others, hcut⟩ : ∃ more others,
          cut (depthAfter depth token) (begun ++ [token]) rest = (begun ++ [token] ++ more) :: others :=
        ih (List.append_ne_nil_of_left_ne_nil hbegun [token])
      exact ⟨token :: more, others, by rw [hcut, List.append_assoc, List.singleton_append]⟩

/-- Symbols come from the text. -/
theorem mem_of_symbol_mem_lexFrom {begun chars : List Char} {c : Char}
    (h : .symbol c ∈ lexFrom begun chars) : c ∈ chars := by
  have hflush (begun : List Char) : .symbol c ∉ flush begun := by
    unfold flush
    split <;> simp
  induction chars generalizing begun with
  | nil => exact absurd h (hflush begun)
  | cons d rest ih =>
    rw [lexFrom] at h
    split at h
    · exact List.mem_cons_of_mem d (ih h)
    · rcases List.mem_append.1 h with h | h
      · rcases List.mem_append.1 h with h | h
        · exact absurd h (hflush begun)
        · split at h
          · cases h
          · cases List.mem_singleton.1 h
            exact List.mem_cons_self
      · exact List.mem_cons_of_mem d (ih h)

/-- A text without semicolons and braces. -/
def FlatText (text : String) : Prop :=
  ∀ c ∈ text.toList, c ≠ ';' ∧ c ≠ '\x7b' ∧ c ≠ '\x7d'

instance (text : String) : Decidable (FlatText text) :=
  List.decidableBAll (fun c => c ≠ ';' ∧ c ≠ '\x7b' ∧ c ≠ '\x7d') text.toList

theorem FlatText.flat {text : String} (h : FlatText text) : Flat (lex text) := by
  intro token hmem
  refine ⟨?_, ?_, ?_⟩
  · rintro rfl
    exact (h _ (mem_of_symbol_mem_lexFrom hmem)).1 rfl
  · rintro rfl
    exact (h _ (mem_of_symbol_mem_lexFrom hmem)).2.1 rfl
  · rintro rfl
    exact (h _ (mem_of_symbol_mem_lexFrom hmem)).2.2 rfl

@[simp]
theorem flatText_append {left right : String} :
    FlatText (left ++ right) ↔ FlatText left ∧ FlatText right := by
  unfold FlatText
  rw [String.toList_append]
  exact List.forall_mem_append

theorem IsWord.flatText {text : String} (h : IsWord text) : FlatText text := by
  intro c hc
  have hword := h.2 c hc
  refine ⟨?_, ?_, ?_⟩ <;> rintro rfl <;> exact absurd hword (by decide)

/-! ## Reading Printed Texts -/

section Reads

variable {α β : Type} {left right text : String} {r : Reader α} {value : α} {result : β}

/-- Whatever follows a text, a reader takes the value from it and leaves the rest. -/
def Reads (text : String) (r : Reader α) (value : α) : Prop :=
  ∀ rest, r (lex text ++ rest) = some (value, rest)

/-- A reader takes the value from a whole text. -/
def ReadsAll (text : String) (r : Reader α) (value : α) : Prop :=
  r (lex text) = some (value, [])

/-- A part of a text, and then the others. -/
theorem ReadsAll.bind {next : α → Reader β}
    (hapart : endsApart left = true ∨ startsApart right = true) (hleft : Reads left r value)
    (hright : ReadsAll right (next value) result) : ReadsAll (left ++ right) (r >>= next) result := by
  have hbind : (r >>= next) (lex left ++ lex right) =
      (r (lex left ++ lex right)).bind fun (value, rest) => next value rest := rfl
  rw [ReadsAll, lex_append hapart, hbind, hleft (lex right)]
  exact hright

/-- The last part of a text. -/
theorem ReadsAll.map {f : α → β} (h : ReadsAll text r value) :
    ReadsAll text (r >>= fun value => pure (f value)) (f value) := by
  have hbind : (r >>= fun value => (pure (f value) : Reader β)) (lex text) =
      (r (lex text)).bind fun (value, rest) => some (f value, rest) := rfl
  rw [ReadsAll, hbind, h]
  rfl

/-- A phrase is read where the same words and symbols are printed. -/
theorem reads_phrase {printed : String} (h : lex printed = lex text) :
    Reads printed (phrase text) () := by
  intro rest
  rw [h, phrase, if_pos (by simp), List.drop_left]

/-- A word is read by its meaning. -/
theorem reads_wordAs {meaning : String → Option α} (hlex : lex left = [.word text])
    (h : meaning text = some value) : Reads left (wordAs meaning) value := by
  intro rest
  rw [hlex, List.singleton_append, wordAs, h]
  rfl

theorem reads_word (h : IsWord text) : Reads text word text :=
  reads_wordAs (lex_word h) rfl

theorem isWord_toString (n : Nat) : IsWord (toString n) := by
  refine ⟨?_, fun c hc => ?_⟩
  · intro hempty
    have hlength := congrArg (fun text => text.toList.length) hempty
    simp at hlength
  · have hdigit : c ∈ Nat.toDigits 10 n := by
      simpa using hc
    have hdigit := Nat.isDigit_of_mem_toDigits (by decide) (by decide) hdigit
    simp [isWordChar, Char.isAlphanum, hdigit]

/-- A number that fits a word is read back. -/
theorem reads_number {n : Nat} {n' : UInt32} (h : Word.ofNat? n = some n') :
    Reads (toString n) number n' := by
  refine reads_wordAs (lex_word (isWord_toString n)) ?_
  have hdigits : (toString n).toList = Nat.toDigits 10 n := by
    simp
  have hall : (Nat.toDigits 10 n).all Char.isDigit = true :=
    List.all_eq_true.2 fun c hc => Nat.isDigit_of_mem_toDigits (by decide) (by decide) hc
  rw [number?, hdigits, if_pos hall, Nat.ofDigitChars_ten_toDigits, h]

theorem reads_word32 (n : UInt32) : Reads (toString n) number n :=
  reads_number (Word.ofNat?_eq_some_iff.2 rfl)

theorem isWord_glsl (ty : ValueType) : IsWord ty.glsl := by
  have hall : ∀ ty ∈ ValueType.all, IsWord ty.glsl := by
    decide +kernel
  exact hall ty ty.mem_all

/-- Different types have different names. -/
theorem reads_typeName (ty : ValueType) : Reads ty.glsl typeName ty := by
  have hall : ∀ ty ∈ ValueType.all, ValueType.all.find? (·.glsl == ty.glsl) = some ty := by
    decide +kernel
  exact reads_wordAs (lex_word (isWord_glsl ty)) (hall ty ty.mem_all)

/-- The last part of a text is followed by nothing. -/
theorem ReadsAll.bind_last {next : α → Reader β} (h : Reads text r value)
    (hnext : next value [] = some (result, [])) : ReadsAll text (r >>= next) result := by
  have htext : text = text ++ "" := String.append_empty.symm
  rw [htext]
  exact ReadsAll.bind (.inr rfl) h hnext

theorem lex_blank_append {blank : String} (hlex : lex blank = []) (hends : endsApart blank = true)
    (text : String) : lex (blank ++ text) = lex text := by
  rw [lex_append (.inl hends), hlex, List.nil_append]

/-- Blanks before a text make no difference. -/
theorem Reads.after_blank {blank : String} (hlex : lex blank = []) (hends : endsApart blank = true)
    (h : Reads text r value) : Reads (blank ++ text) r value := by
  unfold Reads
  rw [lex_blank_append hlex hends]
  exact h

theorem ReadsAll.after_blank {blank : String} (hlex : lex blank = [])
    (hends : endsApart blank = true) (h : ReadsAll text r value) :
    ReadsAll (blank ++ text) r value := by
  unfold ReadsAll
  rw [lex_blank_append hlex hends]
  exact h

theorem readsAll_arrayLength (len : UInt32) :
    ReadsAll ("[" ++ (toString len ++ "]")) arrayLength (some len) := by
  have hreads : ReadsAll ("[" ++ (toString len ++ "]"))
      (do phrase "["; let len ← number; phrase "]"; return some len : Reader _) (some len) :=
    .bind (.inl rfl) (reads_phrase rfl) <|
      .bind (.inr rfl) (reads_word32 len) <| .bind_last (reads_phrase rfl) rfl
  have hne : (lex ("[" ++ (toString len ++ "]"))).isEmpty = false := by
    rw [lex_append (.inl rfl)]
    rfl
  rw [ReadsAll, arrayLength, hne]
  exact hreads

/-- A variable is read back from its declaration. -/
theorem readsAll_contract {var : Variable} (hname : IsWord var.name) :
    ReadsAll var.declaration contract var := by
  rcases var with ⟨name, ty, _ | len⟩
  · have htext : Variable.declaration { name, ty, arrayLen := none } = ty.glsl ++ (" " ++ name) :=
      String.append_assoc
    rw [htext]
    exact .bind (.inr (startsApart_append (by decide) rfl)) (reads_typeName ty) <|
      .bind_last (.after_blank rfl rfl (reads_word hname)) rfl
  · have htext : Variable.declaration { name, ty, arrayLen := some len } =
        ty.glsl ++ (" " ++ name ++ ("[" ++ (toString len ++ "]"))) := by
      simp only [Variable.declaration, String.append_assoc]
    rw [htext]
    refine .bind (.inr ?_) (reads_typeName ty) <|
      .bind (.inr (startsApart_append (by decide) rfl)) (.after_blank rfl rfl (reads_word hname)) <|
        (readsAll_arrayLength len).map
    rw [String.append_assoc]
    exact startsApart_append (by decide) rfl

/-- The words and symbols of the declaration of a variable. -/
theorem lex_declaration {var : Variable} (hname : IsWord var.name) :
    lex var.declaration = .word var.ty.glsl :: .word var.name ::
      var.arrayLen.elim [] fun len => [.symbol '[', .word (toString len), .symbol ']'] := by
  have hty := lex_word (isWord_glsl var.ty)
  have hword := lex_word hname
  rcases var with ⟨name, ty, _ | len⟩
  · have htext : Variable.declaration { name, ty, arrayLen := none } = ty.glsl ++ (" " ++ name) :=
      String.append_assoc
    rw [htext, lex_append (.inr (startsApart_append (by decide) rfl)), lex_blank_append rfl rfl, hty,
      hword]
    rfl
  · have htext : Variable.declaration { name, ty, arrayLen := some len } =
        ty.glsl ++ (" " ++ (name ++ ("[" ++ (toString len ++ "]")))) := by
      simp only [Variable.declaration, String.append_assoc]
    have hlen : lex (toString len) = [.word (toString len)] := lex_word (isWord_toString len.toNat)
    rw [htext, lex_append (.inr (startsApart_append (by decide) rfl)), lex_blank_append rfl rfl, hty,
      lex_append (.inr (startsApart_append (by decide) rfl)), hword, lex_append (.inl rfl),
      lex_append (.inr rfl), hlen]
    rfl

/-- A direction is read back, with the note before it or without. -/
theorem reads_flow (flat : Bool) (direction : Direction) :
    Reads ((if flat then "flat " else "") ++ direction.keyword) flow direction := by
  intro rest
  cases flat <;> cases direction <;> rfl

/-- The first qualifier tells which form a declaration has. -/
theorem ReadsAll.declaration {head rest : String} {form : Reader Declaration} {d : Declaration}
    (qualifier : String) (hends : endsApart head = true)
    (hqualifier : (lex head)[2]? = some (.word qualifier)) (hform : form? qualifier = some form)
    (h : ReadsAll (head ++ rest) form d) : ReadsAll (head ++ rest) Source.declaration d := by
  have hlength : 2 < (lex head).length := (List.getElem?_eq_some_iff.1 hqualifier).1
  unfold ReadsAll at *
  rw [lex_append (.inl hends)] at *
  rw [Source.declaration, List.getElem?_append_left hlength, hqualifier]
  simp only [hform]
  exact h

end Reads

/-! ## Lists of Statements -/

/-- Tokens are statements, whatever follows them, and each statement is read as a value. -/
def Lists {α : Type} (tokens : List Token) (item : Reader α) (values : List α) : Prop :=
  ∃ found, (∀ rest, statements (tokens ++ rest) = found ++ statements rest) ∧
    found.mapM (whole item) = some values

/-- A text is part of one statement, or all of it. -/
def Closed (text : String) : Prop :=
  ∀ begun rest, cut 0 begun (lex text ++ rest) = cut 0 (begun ++ lex text) rest

theorem FlatText.closed {text : String} (h : FlatText text) : Closed text :=
  fun _ _ => cut_flat h.flat

namespace Lists

variable {α : Type} {item : Reader α}

theorem nil : Lists [] item [] :=
  ⟨[], fun _ => rfl, rfl⟩

theorem append {tokens more : List Token} {values others : List α} (h : Lists tokens item values)
    (hmore : Lists more item others) : Lists (tokens ++ more) item (values ++ others) := by
  obtain ⟨found, hfound, hvalues⟩ := h
  obtain ⟨foundMore, hfoundMore, hothers⟩ := hmore
  refine ⟨found ++ foundMore, fun rest => ?_, ?_⟩
  · rw [List.append_assoc, hfound, hfoundMore, List.append_assoc]
  · rw [List.mapM_append, hvalues, hothers]
    rfl

theorem flatMap {β : Type} {list : List β} {tokens : β → List Token} {values : β → List α}
    (h : ∀ b ∈ list, Lists (tokens b) item (values b)) :
    Lists (list.flatMap tokens) item (list.flatMap values) := by
  induction list with
  | nil => exact nil
  | cons b rest ih =>
    rw [List.flatMap_cons, List.flatMap_cons]
    exact (h b List.mem_cons_self).append (ih fun c hc => h c (List.mem_cons_of_mem b hc))

/-- One printed text for each value. -/
theorem map {β : Type} {list : List β} {print : β → String} {value : β → α}
    (h : ∀ b ∈ list, Lists (lex (print b)) item [value b]) :
    Lists ((list.map print).flatMap lex) item (list.map value) := by
  rw [List.flatMap_map, List.map_eq_flatMap]
  exact flatMap h

/-- A text with a semicolon after it is a statement. -/
theorem statement {text : String} {value : α} (hclosed : Closed text)
    (h : ReadsAll text item value) : Lists (lex (text ++ ";")) item [value] := by
  refine ⟨[lex text], fun rest => ?_, ?_⟩
  · have hsemicolon : lex ";" = [.symbol ';'] := rfl
    rw [lex_append (.inr rfl), hsemicolon, List.append_assoc, statements, hclosed]
    rfl
  · rw [List.mapM_cons, whole, h]
    rfl

/-- All of the statements are read. -/
theorem mapM_statements {tokens : List Token} {values : List α} (h : Lists tokens item values) :
    (statements tokens).mapM (whole item) = some values := by
  obtain ⟨found, hfound, hvalues⟩ := h
  have hall := hfound []
  rw [List.append_nil, show statements [] = [] from rfl, List.append_nil] at hall
  rw [hall, hvalues]

/-- What is read of more statements begins with what is read of these. -/
theorem readWhile_append {tokens rest : List Token} {values : List α}
    (h : Lists tokens item values) :
    readWhile item (statements (tokens ++ rest)) = values ++ readWhile item (statements rest) := by
  obtain ⟨found, hfound, hvalues⟩ := h
  rw [hfound]
  clear hfound
  induction found generalizing values with
  | nil =>
    cases hvalues
    rfl
  | cons statement found ih =>
    rw [List.mapM_cons] at hvalues
    obtain ⟨value, hvalue, hvalues⟩ := Option.bind_eq_some_iff.1 hvalues
    obtain ⟨others, hothers, hvalues⟩ := Option.bind_eq_some_iff.1 hvalues
    cases hvalues
    rw [List.cons_append, readWhile, hvalue]
    simp only [ih hothers, List.cons_append]

end Lists

/-! ## Braces -/

section Braced

variable {α : Type} {item : Reader α} {lines : List String} {values : List α}

/-- Lines between braces. -/
def bracedText (lines : List String) : String :=
  " \x7b\n" ++ (String.intercalate "\n" lines ++ "\n\x7d")

theorem startsApart_bracedText (lines : List String) : startsApart (bracedText lines) = true :=
  startsApart_append (by decide) rfl

theorem lex_bracedText (lines : List String) :
    lex (bracedText lines) = .symbol '\x7b' :: (lines.flatMap lex ++ [.symbol '\x7d']) := by
  rw [bracedText, lex_append (.inl rfl), lex_append (.inr rfl),
    lex_intercalate rfl (by decide) rfl rfl]
  rfl

/-- Lines between braces are read back. -/
theorem readsAll_braced (h : Lists (lines.flatMap lex) item values) :
    ReadsAll (bracedText lines) (braced item) values := by
  rw [ReadsAll, lex_bracedText, braced, if_pos List.getLast?_concat, List.dropLast_concat,
    h.mapM_statements]
  rfl

/-- What stands between braces belongs to the statement, semicolons included. -/
theorem closed_braced {head : String} (hhead : FlatText head)
    (hlines : ∀ line ∈ lines, ∀ c ∈ line.toList, c ≠ '\x7b' ∧ c ≠ '\x7d') :
    Closed (head ++ bracedText lines) := by
  intro begun rest
  have hbody : ∀ token ∈ lines.flatMap lex, token ≠ .symbol '\x7b' ∧ token ≠ .symbol '\x7d' := by
    intro token hmem
    obtain ⟨line, hline, htoken⟩ := List.mem_flatMap.1 hmem
    constructor
    · rintro rfl
      exact (hlines line hline _ (mem_of_symbol_mem_lexFrom htoken)).1 rfl
    · rintro rfl
      exact (hlines line hline _ (mem_of_symbol_mem_lexFrom htoken)).2 rfl
  rw [lex_append (.inr (startsApart_bracedText lines)), lex_bracedText, List.append_assoc,
    cut_flat hhead.flat, List.cons_append, List.append_assoc, cut]
  have hopen : ¬ (Token.symbol '\x7b' = .symbol ';' ∧ 0 = 0) := by
    decide
  rw [if_neg hopen, show depthAfter 0 (.symbol '\x7b') = 1 from rfl,
    cut_append hbody (fun hdepth => absurd hdepth (by decide)), List.singleton_append, cut]
  have hclose : ¬ (Token.symbol '\x7d' = .symbol ';' ∧ 1 = 0) := by
    decide
  rw [if_neg hclose, show depthAfter 1 (.symbol '\x7d') = 0 from rfl]
  simp only [List.append_assoc, List.nil_append, List.cons_append]

end Braced

end ShaderWeave.Source
