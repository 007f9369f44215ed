import ShaderWeave.Text.Indentation

/-!
# Cutting Indentation Off

What stays of a text when the indentation that its lines share is cut off.

## Main results

* `trimIndent_of_tight`: a first line that is not indented and has no blanks at its end stays as it is.
-/

namespace ShaderWeave.Text

theorem splitLines_append {first : List Char} (hline : '\n' ∉ first) (rest : List Char) :
    splitLines (first ++ '\n' :: rest) = first :: splitLines rest := by
  induction first with
  | nil => simp [splitLines]
  | cons c first ih =>
    rw [List.mem_cons, not_or] at hline
    rw [List.cons_append, splitLines, if_neg (Ne.symm hline.1), ih hline.2]

theorem splitLines_ne_nil (text : List Char) : splitLines text ≠ [] := by
  cases text with
  | nil => simp [splitLines]
  | cons c rest =>
    rw [splitLines]
    split
    · simp
    · split <;> simp

/-- A line that begins and ends with characters that are not blank. -/
structure Tight (line : List Char) : Prop where
  /-- It is one line. -/
  no_feed : '\n' ∉ line
  /-- It begins with a character that is not blank. -/
  begins : ∃ c ∈ line.head?, isBlank c = false
  /-- It ends with such a character. -/
  ends : ∃ c ∈ line.getLast?, isBlank c = false

/-- One line that ends with a character that is not blank. It may be indented. -/
structure Solid (line : List Char) : Prop where
  /-- It is one line. -/
  no_feed : '\n' ∉ line
  /-- It ends with a character that is not blank. -/
  ends : ∃ c ∈ line.getLast?, isBlank c = false

/-- Whether an end of a line is a character that is not blank. -/
def isSolidEnd (found : Option Char) : Bool :=
  found.any (!isBlank ·)

theorem isSolidEnd_iff {found : Option Char} :
    isSolidEnd found = true ↔ ∃ c ∈ found, isBlank c = false := by
  cases found <;> simp [isSolidEnd]

/-- Whether a line is tight can be told by its ends and its line feeds. -/
instance (line : List Char) : Decidable (Tight line) :=
  decidable_of_iff
    ('\n' ∉ line ∧ isSolidEnd line.head? = true ∧ isSolidEnd line.getLast? = true)
    ⟨fun h => ⟨h.1, isSolidEnd_iff.1 h.2.1, isSolidEnd_iff.1 h.2.2⟩,
      fun h => ⟨h.no_feed, isSolidEnd_iff.2 h.begins, isSolidEnd_iff.2 h.ends⟩⟩

instance (line : List Char) : Decidable (Solid line) :=
  decidable_of_iff ('\n' ∉ line ∧ isSolidEnd line.getLast? = true)
    ⟨fun h => ⟨h.1, isSolidEnd_iff.1 h.2⟩, fun h => ⟨h.no_feed, isSolidEnd_iff.2 h.ends⟩⟩

/-- The characters of a literal are at hand: to show something of them, they need not be decoded. -/
theorem of_ofList {P : List Char → Prop} {text : String} {line : List Char}
    (htext : text = String.ofList line) (h : P line) : P text.toList := by
  rwa [htext, String.toList_ofList]

theorem Tight.solid {line : List Char} (h : Tight line) : Solid line :=
  ⟨h.no_feed, h.ends⟩

theorem Solid.trimEnd {line : List Char} (h : Solid line) : trimEnd line = line := by
  obtain ⟨c, hc, hblank⟩ := h.ends
  unfold Text.trimEnd
  obtain ⟨before, rfl⟩ := List.getLast?_eq_some_iff.1 hc
  simp [hblank]

theorem Solid.isBlankLine {line : List Char} (h : Solid line) : isBlankLine line = false := by
  obtain ⟨c, hc, hblank⟩ := h.ends
  obtain ⟨before, rfl⟩ := List.getLast?_eq_some_iff.1 hc
  simp [Text.isBlankLine, hblank]

theorem Solid.dropReturn {line : List Char} (h : Solid line) : dropReturn line = line := by
  obtain ⟨c, hc, hblank⟩ := h.ends
  rw [Text.dropReturn, if_neg]
  rw [Option.mem_def.1 hc]
  rintro hreturn
  rw [Option.some.inj hreturn] at hblank
  exact absurd hblank (by decide)

theorem Tight.trimEnd {line : List Char} (h : Tight line) : trimEnd line = line :=
  h.solid.trimEnd

/-- Indentation is blank. -/
theorem isIndent_eq_false {c : Char} (hblank : isBlank c = false) : isIndent c = false := by
  rw [isIndent, Bool.or_eq_false_iff, decide_eq_false_iff_not, decide_eq_false_iff_not]
  constructor
  · rintro rfl
    exact absurd hblank (by decide)
  · rintro rfl
    exact absurd hblank (by decide)

theorem Tight.indentOf {line : List Char} (h : Tight line) : indentOf line = 0 := by
  obtain ⟨c, hc, hblank⟩ := h.begins
  obtain ⟨after, rfl⟩ := List.head?_eq_some_iff.1 hc
  simp [Text.indentOf, isIndent_eq_false hblank]

theorem Tight.isBlankLine {line : List Char} (h : Tight line) : isBlankLine line = false :=
  h.solid.isBlankLine

theorem Tight.dropReturn {line : List Char} (h : Tight line) : dropReturn line = line :=
  h.solid.dropReturn

/-- A text that begins with a tight line begins with it after indentation has been cut off. -/
theorem trimIndent_of_tight {first : List Char} (h : Tight first) (rest : List Char) :
    ∃ more, trimIndent (first ++ '\n' :: rest) = first ++ more := by
  have hlines : lines (first ++ '\n' :: rest) = first :: linesOfPieces (splitLines rest) := by
    unfold lines
    rw [splitLines_append h.no_feed]
    obtain ⟨piece, pieces, hpieces⟩ := List.exists_cons_of_ne_nil (splitLines_ne_nil rest)
    rw [hpieces, linesOfPieces, h.dropReturn]
    exact List.cons_ne_nil piece pieces
  obtain ⟨others, hbody⟩ : ∃ others, trimBlankLines (lines (first ++ '\n' :: rest)) =
      first :: others := by
    rw [hlines, trimBlankLines, List.dropWhile_cons_of_neg (by simp [h.isBlankLine]),
      List.reverse_cons, List.dropWhile_append]
    split
    · exact ⟨[], by simp [h.isBlankLine]⟩
    · exact ⟨_, by rw [List.reverse_append]; rfl⟩
  have hfirst (indent : Nat) : cutLine indent first = first := by
    rw [cutLine, h.indentOf, Nat.zero_min, List.drop_zero, h.trimEnd]
  unfold trimIndent trimmedLines
  simp only [hbody, List.map_cons, hfirst]
  cases others with
  | nil => exact ⟨[], (List.append_nil _).symm⟩
  | cons line lines => exact ⟨_, rfl⟩

end ShaderWeave.Text
