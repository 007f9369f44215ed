import ShaderWeave.Proofs.SourceReader

/-!
# Reading Expressions

A reader of expressions: names, numbers, selections of components, elements and constructors. It takes
one word or symbol at a time and keeps the constructors that are still open, so that one step never
looks below the innermost of them, and an expression is read in the same way wherever it stands.

## Main definitions

* `Term`: the tree of an expression.
* `Reading.step`: what the reader makes of the next word or symbol.
* `Term.read`, `Statement.read`: the tree of a text, if there is one.

## Main results

* `ReadsTerm`: a text is read as a tree in every place, with a rule for each form of an expression.
* `readsTerm_iff`: a text is read as a tree in every place if it is read so on its own.
* `read_assign`, `read_declare`: statements are read back from their two sides.
-/

namespace ShaderWeave.Source

/-! ## Trees -/

/-- A number as it is written. -/
structure WrittenNumber where
  /-- Whether there is a sign. -/
  negative : Bool
  /-- The digits before the point. -/
  whole : String
  /-- The digits after the point, if there is one. -/
  fraction : Option String
deriving DecidableEq

/-- The tree of an expression. -/
inductive Term where
  /-- A variable. -/
  | name (text : String)
  /-- A number. -/
  | number (written : WrittenNumber)
  /-- Components, by the names of their channels. -/
  | select (source : Term) (channels : String)
  /-- An element of an array, a component of a vector or a column of a matrix. -/
  | element (source : Term) (index : Nat)
  /-- A constructor of a type. -/
  | construct (ty : ValueType) (arguments : List Term)

/-- What holds of a tree if it holds of its parts holds of every tree. -/
@[induction_eliminator]
theorem Term.induction {P : Term → Prop} (name : ∀ text, P (.name text))
    (number : ∀ written, P (.number written))
    (select : ∀ source channels, P source → P (.select source channels))
    (element : ∀ source index, P source → P (.element source index))
    (construct : ∀ ty arguments, (∀ argument ∈ arguments, P argument) → P (.construct ty arguments))
    (t : Term) : P t :=
  @Term.rec P (fun arguments => ∀ argument ∈ arguments, P argument) name number
    (fun source channels => select source channels) (fun source index => element source index)
    (fun ty arguments => construct ty arguments) (fun _ h => absurd h List.not_mem_nil)
    (fun _ _ hfirst hrest => List.forall_mem_cons.2 ⟨hfirst, hrest⟩) t

/-- Whether the tree is a number without a point. -/
def Term.isWhole : Term → Bool
  | number written => written.fraction.isNone
  | _ => false

/-! ## The Reader -/

/-- Whether the text has only digits. -/
def isDigits (text : String) : Bool :=
  text.toList.all Char.isDigit

/-- Whether the text starts with a digit. -/
def startsWithDigit (text : String) : Bool :=
  text.toList.head?.any Char.isDigit

/-- A constructor that is not closed yet. -/
structure Frame where
  /-- The type. -/
  ty : ValueType
  /-- The arguments before the current one. -/
  arguments : List Term

/-- Where the reader is in the current expression. -/
inductive Position where
  /-- Before it. -/
  | operand
  /-- After a sign. -/
  | negated
  /-- After the type of a constructor. -/
  | constructor (ty : ValueType)
  /-- After something that can be all of it. -/
  | complete (t : Term)
  /-- After a point. -/
  | point (t : Term)
  /-- After an opening bracket. -/
  | bracket (t : Term)
  /-- After the number in brackets. -/
  | index (t : Term) (i : Nat)

/-- The state of the reader. -/
structure Reading where
  /-- The open constructors, innermost first. -/
  frames : List Frame
  /-- The place in the current expression. -/
  position : Position

/-- What a word is at the beginning of an expression. -/
def wordPosition (text : String) : Option Position :=
  match ValueType.all.find? (·.glsl == text) with
  | some ty => some (.constructor ty)
  | none =>
    if isDigits text then some (.complete (.number ⟨false, text, none⟩))
    else if startsWithDigit text then none
    else some (.complete (.name text))

/-- A word after a point: the digits of a number that has no point yet, or the channels of something
else. -/
def dotted (t : Term) (text : String) : Option Term :=
  match t with
  | .number ⟨negative, whole, none⟩ =>
    if isDigits text then some (.number ⟨negative, whole, some text⟩) else none
  | t => if startsWithDigit text then none else some (.select t text)

/-- The state after a symbol that follows what can be all of the current expression. -/
def closed (frames : List Frame) (t : Term) (c : Char) : Option Reading :=
  if c = '.' then some ⟨frames, .point t⟩
  else if c = '[' then some ⟨frames, .bracket t⟩
  else match frames with
    | [] => none
    | frame :: outer =>
      if c = ',' then some ⟨{ frame with arguments := frame.arguments ++ [t] } :: outer, .operand⟩
      else if c = ')' then some ⟨outer, .complete (.construct frame.ty (frame.arguments ++ [t]))⟩
      else none

/-- The state after the next word or symbol. -/
def Reading.step (reading : Reading) : Token → Option Reading
  | .word text =>
    match reading.position with
    | .operand => (wordPosition text).map (⟨reading.frames, ·⟩)
    | .negated =>
      if isDigits text then some ⟨reading.frames, .complete (.number ⟨true, text, none⟩)⟩ else none
    | .point t => (dotted t text).map (⟨reading.frames, .complete ·⟩)
    | .bracket t =>
      if isDigits text then
        some ⟨reading.frames, .index t (Nat.ofDigitChars 10 text.toList 0)⟩
      else none
    | _ => none
  | .symbol c =>
    match reading.position with
    | .operand => if c = '-' then some ⟨reading.frames, .negated⟩ else none
    | .constructor ty => if c = '(' then some ⟨⟨ty, []⟩ :: reading.frames, .operand⟩ else none
    | .complete t => closed reading.frames t c
    | .index t i => if c = ']' then some ⟨reading.frames, .complete (.element t i)⟩ else none
    | _ => none

/-- The state after several words and symbols. -/
def Reading.run (reading : Reading) (tokens : List Token) : Option Reading :=
  tokens.foldlM Reading.step reading

/-- The tree of words and symbols that are one expression. -/
def termOf (tokens : List Token) : Option Term :=
  match Reading.run ⟨[], .operand⟩ tokens with
  | some ⟨[], .complete t⟩ => some t
  | _ => none

/-- The tree of a text that is one expression. -/
def Term.read (text : String) : Option Term :=
  termOf (lex text)

/-! ## Statements -/

/-- A statement that gives a value to something. -/
inductive Statement where
  /-- An assignment. -/
  | assign (place value : Term)
  /-- The declaration of a variable with its first value. -/
  | declare (var : Variable) (value : Term)

/-- What stands before and after the first place where a token stands. -/
def cutAt (mark : Token) : List Token → Option (List Token × List Token)
  | [] => none
  | token :: rest =>
    if token = mark then some ([], rest)
    else (cutAt mark rest).map fun sides => (token :: sides.1, sides.2)

/-- The statement that a text is. -/
def Statement.read (text : String) : Option Statement := do
  let (left, right) ← cutAt (.symbol '=') (lex text)
  let (expression, []) ← cutAt (.symbol ';') right | none
  let value ← termOf expression
  match whole contract left with
  | some var => return .declare var value
  | none => return .assign (← termOf left) value

/-! ## One Step and Several -/

@[simp]
theorem Reading.run_cons (reading : Reading) (token : Token) (tokens : List Token) :
    reading.run (token :: tokens) = (reading.step token).bind (·.run tokens) :=
  rfl

theorem Reading.run_append (reading : Reading) (left right : List Token) :
    reading.run (left ++ right) = (reading.run left).bind (·.run right) :=
  List.foldlM_append

/-- The state inside of more open constructors. -/
def Reading.under (outer : List Frame) (reading : Reading) : Reading :=
  { reading with frames := reading.frames ++ outer }

/-- Of the symbols after an expression only a comma and a closing parenthesis need an open constructor,
and they need the innermost one only. -/
theorem closed_append {frames : List Frame} {t : Term} {c : Char} {next : Reading}
    (outer : List Frame) (h : closed frames t c = some next) :
    closed (frames ++ outer) t c = some (next.under outer) := by
  unfold closed at *
  by_cases hpoint : c = '.'
  · rw [if_pos hpoint] at *
    cases h
    rfl
  · rw [if_neg hpoint] at *
    by_cases hbracket : c = '['
    · rw [if_pos hbracket] at *
      cases h
      rfl
    · rw [if_neg hbracket] at *
      cases frames with
      | nil => cases h
      | cons frame frames =>
        simp only [List.cons_append] at *
        by_cases hcomma : c = ','
        · rw [if_pos hcomma] at *
          cases h
          rfl
        · rw [if_neg hcomma] at *
          obtain ⟨hclose, hnext⟩ := Option.ite_none_right_eq_some.1 h
          cases hnext
          exact if_pos hclose

/-- A step does not look at the constructors around those that it needs. -/
theorem Reading.step_under {reading next : Reading} {token : Token} (outer : List Frame)
    (h : reading.step token = some next) :
    (reading.under outer).step token = some (next.under outer) := by
  rcases reading with ⟨frames, position⟩
  cases token with
  | word text =>
    cases position with
    | operand =>
      obtain ⟨position, hposition, rfl⟩ := Option.map_eq_some_iff.1 h
      exact Option.map_eq_some_iff.2 ⟨position, hposition, rfl⟩
    | point t =>
      obtain ⟨result, hresult, rfl⟩ := Option.map_eq_some_iff.1 h
      exact Option.map_eq_some_iff.2 ⟨result, hresult, rfl⟩
    | negated =>
      obtain ⟨hdigits, hnext⟩ := Option.ite_none_right_eq_some.1 h
      cases hnext
      exact if_pos hdigits
    | bracket t =>
      obtain ⟨hdigits, hnext⟩ := Option.ite_none_right_eq_some.1 h
      cases hnext
      exact if_pos hdigits
    | _ => cases h
  | symbol c =>
    cases position with
    | operand =>
      obtain ⟨hc, hnext⟩ := Option.ite_none_right_eq_some.1 h
      cases hnext
      exact if_pos hc
    | constructor ty =>
      obtain ⟨hc, hnext⟩ := Option.ite_none_right_eq_some.1 h
      cases hnext
      exact if_pos hc
    | complete t => exact closed_append outer h
    | index t i =>
      obtain ⟨hc, hnext⟩ := Option.ite_none_right_eq_some.1 h
      cases hnext
      exact if_pos hc
    | _ => cases h

theorem Reading.run_under {reading last : Reading} {tokens : List Token} (outer : List Frame)
    (h : reading.run tokens = some last) :
    (reading.under outer).run tokens = some (last.under outer) := by
  induction tokens generalizing reading with
  | nil =>
    cases h
    rfl
  | cons token rest ih =>
    obtain ⟨next, hstep, hrest⟩ := Option.bind_eq_some_iff.1 h
    rw [run_cons, step_under outer hstep]
    exact ih hrest

/-- The symbols that separate the sides of statements are no part of an expression. -/
theorem Reading.step_separator {c : Char} (hc : c = '=' ∨ c = ';') (reading : Reading) :
    reading.step (.symbol c) = none := by
  rcases reading with ⟨frames, position⟩
  rcases hc with rfl | rfl <;> cases position <;> cases frames <;> rfl

theorem Reading.not_mem_of_run {reading last : Reading} {tokens : List Token} {c : Char}
    (hc : c = '=' ∨ c = ';') (h : reading.run tokens = some last) : .symbol c ∉ tokens := by
  induction tokens generalizing reading with
  | nil => exact List.not_mem_nil
  | cons token rest ih =>
    obtain ⟨next, hstep, hrest⟩ := Option.bind_eq_some_iff.1 h
    intro hmem
    rcases List.mem_cons.1 hmem with rfl | hmem
    · rw [step_separator hc] at hstep
      cases hstep
    · exact ih hrest hmem

theorem termOf_eq_some_iff {tokens : List Token} {t : Term} :
    termOf tokens = some t ↔ Reading.run ⟨[], .operand⟩ tokens = some ⟨[], .complete t⟩ := by
  unfold termOf
  constructor
  · intro h
    split at h
    · rename_i result hrun
      cases h
      exact hrun
    · cases h
  · intro h
    rw [h]

/-! ## Reading Printed Expressions -/

/-- Wherever an expression can stand, the text is read as the tree. -/
def ReadsTerm (text : String) (t : Term) : Prop :=
  ∀ frames rest, Reading.run ⟨frames, .operand⟩ (lex text ++ rest) =
    Reading.run ⟨frames, .complete t⟩ rest

/-- A text that is read as a tree on its own is read so everywhere. -/
theorem readsTerm_iff {text : String} {t : Term} : ReadsTerm text t ↔ Term.read text = some t := by
  constructor
  · intro h
    have halone := h [] []
    rw [List.append_nil] at halone
    exact termOf_eq_some_iff.2 halone
  · intro h frames rest
    rw [Reading.run_append]
    -- The run on its own starts without open constructors; those around it are only carried along.
    have hrun := Reading.run_under frames (termOf_eq_some_iff.1 h)
    simp only [Reading.under, List.nil_append] at hrun
    rw [hrun]
    rfl

/-- A word that can be the name of a variable. -/
def IsName (text : String) : Prop :=
  IsWord text ∧ startsWithDigit text = false ∧ ∀ ty : ValueType, ty.glsl ≠ text

instance (text : String) : Decidable (IsName text) :=
  decidable_of_iff
    (IsWord text ∧ startsWithDigit text = false ∧ ∀ ty ∈ ValueType.all, ty.glsl ≠ text)
    (by simp [IsName, ValueType.mem_all])

/-- A word that does not start with a digit has not only digits. -/
theorem isDigits_eq_false {text : String} (hword : IsWord text)
    (hstart : startsWithDigit text = false) : isDigits text = false := by
  cases hchars : text.toList with
  | nil => exact absurd (String.toList_eq_nil_iff.1 hchars) hword.1
  | cons c rest =>
    rw [startsWithDigit, hchars] at hstart
    rw [isDigits, hchars, List.all_cons, show c.isDigit = false from hstart, Bool.false_and]

theorem IsName.readsTerm {text : String} (h : IsName text) : ReadsTerm text (.name text) := by
  obtain ⟨hword, hstart, htype⟩ := h
  have hdigits := isDigits_eq_false hword hstart
  have hfind : ValueType.all.find? (·.glsl == text) = none :=
    List.find?_eq_none.2 fun ty _ => by simpa using htype ty
  intro frames rest
  rw [lex_word hword, List.singleton_append, Reading.run_cons]
  simp only [Reading.step, wordPosition, hfind, hdigits, hstart]
  rfl

section Rules

variable {text : String} {t : Term}

theorem ReadsTerm.run (h : ReadsTerm text t) (frames : List Frame) :
    Reading.run ⟨frames, .operand⟩ (lex text) = some ⟨frames, .complete t⟩ := by
  have hrun := h frames []
  rwa [List.append_nil] at hrun

theorem lex_dotted {channels : String} (hword : IsWord channels) :
    lex (text ++ ("." ++ channels)) = lex text ++ [.symbol '.', .word channels] := by
  rw [lex_append (.inr (startsApart_append (by decide) rfl)), lex_append (.inl rfl), lex_word hword]
  rfl

/-- Channels after a point. -/
theorem ReadsTerm.select {channels : String} (h : ReadsTerm text t) (hwhole : t.isWhole = false)
    (hword : IsWord channels) (hstart : startsWithDigit channels = false) :
    ReadsTerm (text ++ ("." ++ channels)) (.select t channels) := by
  intro frames rest
  have hdotted : dotted t channels = some (.select t channels) := by
    unfold dotted
    split
    · cases hwhole
    · rw [if_neg (by rw [hstart]; exact Bool.false_ne_true)]
  rw [lex_dotted hword, List.append_assoc, h]
  show (Reading.step ⟨frames, .point t⟩ (.word channels)).bind _ = _
  simp only [Reading.step, hdotted]
  rfl

/-- The point after a number without one is taken for its own. -/
theorem ReadsTerm.read_select_eq_none {channels : String} (h : ReadsTerm text t)
    (hwhole : t.isWhole = true) (hword : IsWord channels) (hdigits : isDigits channels = false) :
    Term.read (text ++ ("." ++ channels)) = none := by
  have hdotted : dotted t channels = none := by
    unfold dotted
    split
    · rw [hdigits]
      rfl
    · -- Every other tree is something else than a number without a point.
      rename_i hother
      cases t with
      | number written =>
        rcases written with ⟨negative, digits, _ | fraction⟩
        · exact absurd rfl (hother negative digits)
        · cases hwhole
      | _ => cases hwhole
  have hstep : Reading.step ⟨[], .point t⟩ (.word channels) = none := by
    simp only [Reading.step, hdotted]
    rfl
  have hrun : Reading.run ⟨[], .operand⟩ (lex (text ++ ("." ++ channels))) = none := by
    rw [lex_dotted hword, h]
    show (Reading.step ⟨[], .point t⟩ (.word channels)).bind _ = none
    rw [hstep]
    rfl
  cases hread : Term.read (text ++ ("." ++ channels)) with
  | none => rfl
  | some result =>
    rw [termOf_eq_some_iff.1 hread] at hrun
    cases hrun

/-- A number in brackets. -/
theorem ReadsTerm.element (h : ReadsTerm text t) (i : Nat) :
    ReadsTerm (text ++ ("[" ++ (toString i ++ "]"))) (.element t i) := by
  intro frames rest
  have hchars : (toString i).toList = Nat.toDigits 10 i := by
    simp
  have hdigits : isDigits (toString i) = true := by
    rw [isDigits, hchars]
    exact List.all_eq_true.2 fun c hc => Nat.isDigit_of_mem_toDigits (by decide) (by decide) hc
  rw [lex_append (.inr (startsApart_append (by decide) rfl)), lex_append (.inl rfl),
    lex_append (.inr rfl), lex_word (isWord_toString i), show lex "[" = [.symbol '['] from rfl,
    show lex "]" = [.symbol ']'] from rfl, List.append_assoc, h]
  have hopen : Reading.step ⟨frames, .complete t⟩ (.symbol '[') = some ⟨frames, .bracket t⟩ := rfl
  have hindex : Reading.step ⟨frames, .bracket t⟩ (.word (toString i)) =
      some ⟨frames, .index t i⟩ := by
    simp only [Reading.step, hdigits, hchars, Nat.ofDigitChars_ten_toDigits]
    rfl
  rw [List.append_assoc, List.singleton_append, Reading.run_cons, hopen]
  show Reading.run ⟨frames, .bracket t⟩ ([.word (toString i)] ++ [.symbol ']'] ++ rest) = _
  rw [List.append_assoc, List.singleton_append, Reading.run_cons, hindex]
  rfl

/-- The texts of arguments after the first. -/
def argumentTexts (texts : List String) : String :=
  String.join (texts.map (", " ++ ·))

theorem startsApart_argumentTexts (texts : List String) {rest : String}
    (hrest : startsApart rest = true) : startsApart (argumentTexts texts ++ rest) = true := by
  cases texts with
  | nil => exact hrest
  | cons text texts =>
    rw [argumentTexts, List.map_cons, String.join_cons, String.append_assoc, String.append_assoc]
    exact startsApart_append (by decide) rfl

/-- Further arguments are added to the innermost open constructor, and the parenthesis closes it. -/
theorem run_argumentTexts {others : List (String × Term)}
    (hothers : ∀ other ∈ others, ReadsTerm other.1 other.2) (ty : ValueType) (arguments : List Term)
    (t : Term) (frames : List Frame) (rest : List Token) :
    Reading.run ⟨⟨ty, arguments⟩ :: frames, .complete t⟩
        (lex (argumentTexts (others.map (·.1))) ++ .symbol ')' :: rest) =
      Reading.run ⟨frames, .complete (.construct ty (arguments ++ t :: others.map (·.2)))⟩ rest := by
  -- Each comma moves the current argument to those before it, so both vary in the induction.
  induction others generalizing arguments t with
  | nil => rfl
  | cons other others ih =>
    obtain ⟨hother, hothers⟩ := List.forall_mem_cons.1 hothers
    have htext : argumentTexts ((other :: others).map (·.1)) =
        ", " ++ (other.1 ++ argumentTexts (others.map (·.1))) := by
      rw [argumentTexts, List.map_cons, List.map_cons, String.join_cons, String.append_assoc]
      rfl
    have hcomma : Reading.step ⟨⟨ty, arguments⟩ :: frames, .complete t⟩ (.symbol ',') =
      some ⟨⟨ty, arguments ++ [t]⟩ :: frames, .operand⟩ := rfl
    have happart : startsApart (argumentTexts (others.map (·.1))) = true := by
      rw [← String.append_empty (s := argumentTexts (others.map (·.1)))]
      exact startsApart_argumentTexts _ rfl
    rw [htext, lex_append (.inl rfl), lex_append (.inr happart),
      show lex ", " = [.symbol ','] from rfl, List.append_assoc, List.singleton_append,
      Reading.run_cons, hcomma]
    show Reading.run ⟨⟨ty, arguments ++ [t]⟩ :: frames, .operand⟩ _ = _
    rw [List.append_assoc, hother, ih hothers]
    simp

/-- A constructor with its arguments. -/
theorem ReadsTerm.construct {others : List (String × Term)} (h : ReadsTerm text t)
    (hothers : ∀ other ∈ others, ReadsTerm other.1 other.2) (ty : ValueType) :
    ReadsTerm (ty.glsl ++ ("(" ++ (text ++ (argumentTexts (others.map (·.1)) ++ ")"))))
      (.construct ty (t :: others.map (·.2))) := by
  intro frames rest
  have htype : Reading.step ⟨frames, .operand⟩ (.word ty.glsl) =
      some ⟨frames, .constructor ty⟩ := by
    have hall : ∀ ty ∈ ValueType.all, ValueType.all.find? (·.glsl == ty.glsl) = some ty := by
      decide +kernel
    simp only [Reading.step, wordPosition, hall ty ty.mem_all]
    rfl
  have hopen : Reading.step ⟨frames, .constructor ty⟩ (.symbol '(') =
    some ⟨⟨ty, []⟩ :: frames, .operand⟩ := rfl
  have happart : startsApart (argumentTexts (others.map (·.1)) ++ ")") = true :=
    startsApart_argumentTexts _ rfl
  -- The text falls apart at both parentheses and before the further arguments.
  rw [lex_append (.inr (startsApart_append (by decide) rfl)), lex_append (.inl rfl),
    lex_append (.inr happart), lex_append (.inr rfl), lex_word (isWord_glsl ty),
    show lex "(" = [.symbol '('] from rfl, show lex ")" = [.symbol ')'] from rfl,
    List.append_assoc, List.singleton_append, Reading.run_cons, htype, Option.bind_some,
    List.append_assoc, List.singleton_append, Reading.run_cons, hopen, Option.bind_some,
    List.append_assoc, h, List.append_assoc, List.singleton_append, run_argumentTexts hothers,
    List.nil_append]

end Rules

/-! ## Reading Printed Statements -/

theorem cutAt_append {mark : Token} {left : List Token} (h : mark ∉ left) (right : List Token) :
    cutAt mark (left ++ mark :: right) = some (left, right) := by
  induction left with
  | nil => simp [cutAt]
  | cons token left ih =>
    have htoken : token ≠ mark := fun heq => h (heq ▸ List.mem_cons_self)
    rw [List.cons_append, cutAt, if_neg htoken, ih fun hmem => h (List.mem_cons_of_mem token hmem)]
    rfl

/-- The two sides of a statement, cut at the equality sign and before the semicolon. -/
theorem read_sides {left value : String} (hleft : .symbol '=' ∉ lex left)
    (hvalue : .symbol ';' ∉ lex value) :
    Statement.read (left ++ (" = " ++ (value ++ ";"))) =
      (Term.read value).bind fun t =>
        match whole contract (lex left) with
        | some var => some (.declare var t)
        | none => (termOf (lex left)).map (.assign · t) := by
  have htokens : lex (left ++ (" = " ++ (value ++ ";"))) =
      lex left ++ .symbol '=' :: (lex value ++ .symbol ';' :: []) := by
    rw [lex_append (.inr (startsApart_append (by decide) rfl)), lex_append (.inl rfl),
      lex_append (.inr rfl)]
    rfl
  unfold Statement.read
  rw [htokens, cutAt_append hleft, Option.bind_eq_bind, Option.bind_some]
  simp only
  rw [cutAt_append hvalue, Option.bind_eq_bind, Option.bind_some]
  simp only
  cases hterm : Term.read value with
  | none => rw [show termOf (lex value) = none from hterm, Option.bind_none, Option.bind_none]
  | some t =>
    rw [show termOf (lex value) = some t from hterm, Option.bind_some, Option.bind_some]
    split
    · rfl
    · cases termOf (lex left) <;> rfl

theorem ReadsTerm.not_mem {text : String} {t : Term} {c : Char} (hc : c = '=' ∨ c = ';')
    (h : ReadsTerm text t) : .symbol c ∉ lex text :=
  Reading.not_mem_of_run hc (h.run [])

/-- An assignment is read back from its place and its value. -/
theorem read_assign {place value : String} {p t : Term} (hplace : ReadsTerm place p)
    (hcontract : whole contract (lex place) = none) (hvalue : ReadsTerm value t) :
    Statement.read (place ++ (" = " ++ (value ++ ";"))) = some (.assign p t) := by
  rw [read_sides (hplace.not_mem (.inl rfl)) (hvalue.not_mem (.inr rfl)), hcontract,
    readsTerm_iff.1 hvalue, show termOf (lex place) = some p from readsTerm_iff.1 hplace]
  rfl

/-- A declaration is read back from its variable, if its value is read. -/
theorem read_declare {var : Variable} {value : String} (hname : IsWord var.name)
    (hvalue : .symbol ';' ∉ lex value) :
    Statement.read (var.declaration ++ (" = " ++ (value ++ ";"))) =
      (Term.read value).map (.declare var) := by
  have hcontract : whole contract (lex var.declaration) = some var := by
    rw [whole, readsAll_contract hname]
  have hequality : .symbol '=' ∉ lex var.declaration := by
    rw [lex_declaration hname]
    cases var.arrayLen <;> simp
  rw [read_sides hequality hvalue, hcontract]
  cases Term.read value <;> rfl

end ShaderWeave.Source
