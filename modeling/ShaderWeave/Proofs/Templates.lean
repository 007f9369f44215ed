import Mathlib.Data.List.DropRight
import ShaderWeave.Proofs.Indentation

/-!
# Texts with Holes

A template is a text with holes that are filled in later. Whatever is filled in, the lines of the text
without shared indentation and blanks at their ends are those of the template, with the same holes in
the same order, as long as what is filled in is one line that neither begins nor ends with a blank.

## Main definitions

* `Template`: characters and holes.
* `Template.fill`: the text in which each hole holds a value.

## Main results

* `Template.exists_lines`: the lines of a template.
* `Template.exists_trimmedLines`: the lines that are left once indentation has been cut off.
-/

namespace ShaderWeave.Text

variable {Hole : Type}

/-- A text with holes. -/
abbrev Template (Hole : Type) := List (Char ⊕ Hole)

namespace Template

/-- The text in which each hole holds its value. -/
def fill (value : Hole → List Char) (template : Template Hole) : List Char :=
  template.flatMap (Sum.elim (fun c => [c]) value)

/-- The holes, in order. -/
def holes (template : Template Hole) : List Hole :=
  template.flatMap (Sum.elim (fun _ => []) fun hole => [hole])

/-- What is filled in stays on its line and does not look like indentation or blanks. -/
def Fills (value : Hole → List Char) : Prop :=
  ∀ hole, Tight (value hole)

section Fill

variable (value : Hole → List Char)

@[simp]
theorem fill_nil : fill value [] = [] := rfl

@[simp]
theorem fill_char (c : Char) (rest : Template Hole) :
    fill value (.inl c :: rest) = c :: fill value rest := rfl

@[simp]
theorem fill_hole (hole : Hole) (rest : Template Hole) :
    fill value (.inr hole :: rest) = value hole ++ fill value rest := rfl

theorem fill_append (first rest : Template Hole) :
    fill value (first ++ rest) = fill value first ++ fill value rest :=
  List.flatMap_append

end Fill

@[simp]
theorem holes_nil : holes ([] : Template Hole) = [] := rfl

@[simp]
theorem holes_char (c : Char) (rest : Template Hole) : holes (.inl c :: rest) = holes rest := rfl

@[simp]
theorem holes_hole (hole : Hole) (rest : Template Hole) :
    holes (.inr hole :: rest) = hole :: holes rest := rfl

theorem holes_append (first rest : Template Hole) :
    holes (first ++ rest) = holes first ++ holes rest :=
  List.flatMap_append

/-- A text without holes. -/
def ofChars (chars : List Char) : Template Hole :=
  chars.map .inl

theorem fill_ofChars (value : Hole → List Char) (chars : List Char) :
    fill value (ofChars chars) = chars := by
  rw [fill, ofChars, List.flatMap_map]
  exact List.flatMap_singleton' chars

theorem holes_ofChars (chars : List Char) : holes (ofChars chars : Template Hole) = [] := by
  rw [holes, ofChars, List.flatMap_map]
  exact List.flatMap_eq_nil_iff.2 fun _ _ => rfl

/-! ## Cutting into Lines -/

/-- Text without a line feed becomes part of the first piece. -/
theorem splitLines_front {front : List Char} (hline : '\n' ∉ front) {rest piece : List Char}
    {pieces : List (List Char)} (hrest : splitLines rest = piece :: pieces) :
    splitLines (front ++ rest) = (front ++ piece) :: pieces := by
  induction front with
  | nil => exact hrest
  | cons c front ih =>
    rw [List.mem_cons, not_or] at hline
    rw [List.cons_append, splitLines, if_neg (Ne.symm hline.1), ih hline.2]
    rfl

theorem exists_splitLines (template : Template Hole) :
    ∃ piece pieces, (∀ value, Fills value →
        splitLines (fill value template) = (piece :: pieces).map (fill value)) ∧
      (piece :: pieces).flatMap holes = holes template := by
  induction template with
  | nil => exact ⟨[], [], fun _ _ => rfl, rfl⟩
  | cons item rest ih =>
    obtain ⟨piece, pieces, hpieces, hholes⟩ := ih
    cases item with
    | inl c =>
      by_cases hc : c = '\n'
      · refine ⟨[], piece :: pieces, fun value hvalue => ?_, hholes⟩
        rw [fill_char, splitLines, if_pos hc, hpieces value hvalue]
        rfl
      · refine ⟨.inl c :: piece, pieces, fun value hvalue => ?_, hholes⟩
        rw [fill_char, splitLines, if_neg hc, hpieces value hvalue]
        rfl
    | inr hole =>
      -- What is filled in has no line feed, so it goes to the piece that follows it.
      refine ⟨.inr hole :: piece, pieces, fun value hvalue => ?_, ?_⟩
      · rw [fill_hole, splitLines_front (hvalue hole).no_feed (hpieces value hvalue)]
        rfl
      · rw [List.flatMap_cons] at hholes
        rw [List.flatMap_cons, holes_hole, List.cons_append, hholes, holes_hole]

theorem exists_dropReturn (template : Template Hole) :
    ∃ line, (∀ value, Fills value → dropReturn (fill value template) = fill value line) ∧
      holes line = holes template := by
  rcases List.eq_nil_or_concat template with rfl | ⟨front, last, rfl⟩
  · exact ⟨[], fun _ _ => rfl, rfl⟩
  · cases last with
    | inl c =>
      by_cases hc : c = '\r'
      · refine ⟨front, fun value _ => ?_, ?_⟩
        · rw [List.concat_eq_append, fill_append]
          simp [dropReturn, hc]
        · rw [List.concat_eq_append, holes_append, holes_char, holes_nil, List.append_nil]
      · refine ⟨front.concat (.inl c), fun value _ => ?_, rfl⟩
        rw [List.concat_eq_append, fill_append]
        simp [dropReturn, hc]
    | inr hole =>
      refine ⟨front.concat (.inr hole), fun value hvalue => ?_, rfl⟩
      -- What is filled in does not end with a carriage return, which is blank.
      obtain ⟨c, hc, hblank⟩ := (hvalue hole).ends
      rw [List.concat_eq_append, fill_append, dropReturn, if_neg]
      have hlast : (fill value front ++ fill value [.inr hole]).getLast? = some c := by
        simp [List.getLast?_append, Option.mem_def.1 hc]
      rw [hlast]
      rintro hreturn
      rw [Option.some.inj hreturn] at hblank
      exact absurd hblank (by decide)

theorem fill_eq_nil_iff {value : Hole → List Char} (hvalue : Fills value)
    (template : Template Hole) : fill value template = [] ↔ template = [] := by
  cases template with
  | nil => simp
  | cons item rest =>
    cases item with
    | inl c => simp
    | inr hole =>
      obtain ⟨c, hc, -⟩ := (hvalue hole).begins
      have hne : value hole ≠ [] := by
        rintro hnil
        simp [hnil] at hc
      simp [hne]

theorem exists_linesOfPieces (piece : Template Hole) (pieces : List (Template Hole)) :
    ∃ lines : List (Template Hole), (∀ value, Fills value →
        linesOfPieces ((piece :: pieces).map (fill value)) = lines.map (fill value)) ∧
      lines.flatMap holes = (piece :: pieces).flatMap holes := by
  induction pieces generalizing piece with
  | nil =>
    by_cases hpiece : piece = []
    · refine ⟨[], fun value _ => ?_, ?_⟩
      · simp [hpiece, linesOfPieces]
      · simp [hpiece, holes]
    · refine ⟨[piece], fun value hvalue => ?_, rfl⟩
      simp [linesOfPieces, fill_eq_nil_iff hvalue, hpiece]
  | cons next pieces ih =>
    obtain ⟨lines, hlines, hholes⟩ := ih next
    obtain ⟨line, hline, hlineHoles⟩ := exists_dropReturn piece
    refine ⟨line :: lines, fun value hvalue => ?_, ?_⟩
    · rw [List.map_cons, List.map_cons, linesOfPieces, ← List.map_cons, hline value hvalue,
        hlines value hvalue, List.map_cons]
      exact List.cons_ne_nil _ _
    · rw [List.flatMap_cons, hlineHoles, hholes, ← List.flatMap_cons]

/-- Whatever is filled in, the lines are those of the template. -/
theorem exists_lines (template : Template Hole) :
    ∃ found : List (Template Hole), (∀ value, Fills value →
        lines (fill value template) = found.map (fill value)) ∧
      found.flatMap holes = holes template := by
  obtain ⟨piece, pieces, hpieces, hholes⟩ := exists_splitLines template
  obtain ⟨found, hfound, hfoundHoles⟩ := exists_linesOfPieces piece pieces
  refine ⟨found, fun value hvalue => ?_, hfoundHoles.trans hholes⟩
  rw [lines, hpieces value hvalue, hfound value hvalue]

/-! ## Cutting Indentation Off -/

/-- Whether the item is a blank character. -/
def blankItem : Char ⊕ Hole → Bool :=
  Sum.elim isBlank fun _ => false

/-- Whether the item is a character that can indent a line. -/
def indentItem : Char ⊕ Hole → Bool :=
  Sum.elim isIndent fun _ => false

/-- Number of items that indent a line. -/
def indent (template : Template Hole) : Nat :=
  (template.takeWhile indentItem).length

/-- The least indentation of a line that is not blank. -/
def sharedIndent (found : List (Template Hole)) : Nat :=
  (((found.filter fun line => !line.all blankItem).map indent).min?).getD 0

/-- The line without shared indentation and without blanks at its end. -/
def cut (shared : Nat) (line : Template Hole) : Template Hole :=
  (line.drop (min (indent line) shared)).rdropWhile blankItem

section Fills

variable {value : Hole → List Char} (hvalue : Fills value)
include hvalue

theorem isBlankLine_fill (template : Template Hole) :
    isBlankLine (fill value template) = template.all blankItem := by
  induction template with
  | nil => rfl
  | cons item rest ih =>
    cases item with
    | inl c =>
      rw [fill_char, isBlankLine, List.all_cons, List.all_cons, ← ih]
      rfl
    | inr hole =>
      obtain ⟨c, hc, hblank⟩ := (hvalue hole).begins
      obtain ⟨after, hvalue⟩ := List.head?_eq_some_iff.1 hc
      simp [isBlankLine, hvalue, hblank, blankItem]

theorem indentOf_fill (template : Template Hole) :
    indentOf (fill value template) = indent template := by
  induction template with
  | nil => rfl
  | cons item rest ih =>
    cases item with
    | inl c =>
      unfold indentOf indent at *
      cases hc : isIndent c <;> simp [indentItem, hc, ih]
    | inr hole =>
      obtain ⟨c, hc, hblank⟩ := (hvalue hole).begins
      obtain ⟨after, hvalue⟩ := List.head?_eq_some_iff.1 hc
      simp [indentOf, indent, hvalue, isIndent_eq_false hblank, indentItem]

theorem trimEnd_fill (template : Template Hole) :
    trimEnd (fill value template) = fill value (template.rdropWhile blankItem) := by
  -- From the end: blanks go until there is a character that is not blank, or a hole.
  induction template using List.reverseRecOn with
  | nil => rfl
  | append_singleton front last ih =>
    change (fill value (front ++ [last])).rdropWhile isBlank = _
    change (fill value front).rdropWhile isBlank = _ at ih
    cases last with
    | inl c =>
      rw [fill_append, fill_char, fill_nil, List.rdropWhile_concat, List.rdropWhile_concat, ih]
      cases hc : isBlank c <;> simp [blankItem, hc, fill_append]
    | inr hole =>
      obtain ⟨c, hc, hblank⟩ := (hvalue hole).ends
      obtain ⟨before, hvalue⟩ := List.getLast?_eq_some_iff.1 hc
      rw [List.rdropWhile_concat_neg _ _ _ (by simp [blankItem]), fill_append, fill_hole, fill_nil,
        List.append_nil, hvalue, ← List.append_assoc,
        List.rdropWhile_concat_neg _ _ _ (by simp [hblank])]

theorem trimBlankLines_fill (found : List (Template Hole)) :
    trimBlankLines (found.map (fill value)) =
      ((found.dropWhile (·.all blankItem)).rdropWhile (·.all blankItem)).map (fill value) := by
  have hblank : isBlankLine ∘ fill value = fun line => line.all blankItem :=
    funext (isBlankLine_fill hvalue)
  simp only [trimBlankLines, List.rdropWhile, List.dropWhile_map, ← List.map_reverse, hblank]

theorem commonIndent_fill (found : List (Template Hole)) :
    commonIndent (found.map (fill value)) = sharedIndent found := by
  have hblank : (fun line => !isBlankLine line) ∘ fill value = fun line => !line.all blankItem :=
    funext fun line => congrArg (!·) (isBlankLine_fill hvalue line)
  have hindent : indentOf ∘ fill value = indent := funext (indentOf_fill hvalue)
  simp only [commonIndent, sharedIndent, List.filter_map, List.map_map, hblank, hindent]

end Fills

/-! ## Holes That Stay -/

theorem indent_cons (item : Char ⊕ Hole) (rest : Template Hole) :
    indent (item :: rest) = if indentItem item then indent rest + 1 else 0 := by
  unfold indent
  rw [List.takeWhile_cons]
  split <;> rfl

/-- Without some of its indentation, a template has the same holes, filled in with the same. -/
theorem drop_indent {template : Template Hole} {count : Nat} (h : count ≤ indent template) :
    (∀ value, (fill value template).drop count = fill value (template.drop count)) ∧
      holes (template.drop count) = holes template := by
  induction template generalizing count with
  | nil => simp
  | cons item rest ih =>
    cases count with
    | zero => exact ⟨fun _ => rfl, rfl⟩
    | succ count =>
      rw [indent_cons] at h
      split at h
      · cases item with
        | inl c => exact ih (Nat.le_of_succ_le_succ h)
        | inr hole => contradiction
      · exact absurd h (Nat.not_succ_le_zero count)

theorem flatMap_dropWhile {α β : Type} {p : α → Bool} {f : α → List β}
    (h : ∀ x, p x = true → f x = []) (l : List α) : (l.dropWhile p).flatMap f = l.flatMap f := by
  induction l with
  | nil => rfl
  | cons x l ih =>
    by_cases hx : p x = true
    · rw [List.dropWhile_cons_of_pos hx, ih, List.flatMap_cons, h x hx, List.nil_append]
    · rw [List.dropWhile_cons_of_neg hx]

theorem flatMap_rdropWhile {α β : Type} {p : α → Bool} {f : α → List β}
    (h : ∀ x, p x = true → f x = []) (l : List α) : (l.rdropWhile p).flatMap f = l.flatMap f := by
  induction l using List.reverseRecOn with
  | nil => rfl
  | append_singleton l x ih =>
    by_cases hx : p x = true
    · rw [List.rdropWhile_concat_pos _ _ _ hx, ih, List.flatMap_append, List.flatMap_singleton,
        h x hx, List.append_nil]
    · rw [List.rdropWhile_concat_neg _ _ _ hx]

theorem holes_of_blank {line : Template Hole} (h : line.all blankItem = true) : holes line = [] := by
  refine List.flatMap_eq_nil_iff.2 fun item hmem => ?_
  have hitem := List.all_eq_true.1 h item hmem
  cases item with
  | inl c => rfl
  | inr hole => cases hitem

theorem cutLine_fill {value : Hole → List Char} (hvalue : Fills value) (shared : Nat)
    (line : Template Hole) : cutLine shared (fill value line) = fill value (line.cut shared) := by
  rw [cutLine, indentOf_fill hvalue, (drop_indent (Nat.min_le_left _ _)).1, trimEnd_fill hvalue, cut]

theorem holes_cut (shared : Nat) (line : Template Hole) : holes (line.cut shared) = holes line := by
  rw [cut, holes, flatMap_rdropWhile]
  · exact (drop_indent (Nat.min_le_left _ _)).2
  · intro item hitem
    cases item with
    | inl c => rfl
    | inr hole => cases hitem

/-- Whatever is filled in, the lines without blank lines at both ends, shared indentation and blanks at
their ends are those of the template. -/
theorem exists_trimmedLines (template : Template Hole) :
    ∃ found : List (Template Hole), (∀ value, Fills value →
        trimmedLines (fill value template) = found.map (fill value)) ∧
      found.flatMap holes = holes template := by
  obtain ⟨whole, hwhole, hholes⟩ := exists_lines template
  let body := (whole.dropWhile (·.all blankItem)).rdropWhile (·.all blankItem)
  refine ⟨body.map (cut (sharedIndent body)), fun value hvalue => ?_, ?_⟩
  · have hcut : cutLine (sharedIndent body) ∘ fill value =
        fill value ∘ cut (sharedIndent body) := funext (cutLine_fill hvalue _)
    rw [trimmedLines, hwhole value hvalue, trimBlankLines_fill hvalue]
    change (body.map (fill value)).map (cutLine (commonIndent (body.map (fill value)))) = _
    rw [commonIndent_fill hvalue, List.map_map, List.map_map, hcut]
  · have hbody : body.flatMap holes = whole.flatMap holes := by
      rw [flatMap_rdropWhile fun line => holes_of_blank, flatMap_dropWhile fun line => holes_of_blank]
    rw [List.flatMap_map, ← hholes, ← hbody]
    exact List.flatMap_congr fun line _ => holes_cut _ line

end Template

end ShaderWeave.Text
