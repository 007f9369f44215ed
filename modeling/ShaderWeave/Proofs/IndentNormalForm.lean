import Mathlib.Data.List.DropRight
import Mathlib.Data.List.Forall2
import ShaderWeave.Proofs.TrimmedLines

/-!
# The Normal Form of Indented Text

Cutting off the indentation that lines share brings a text into a normal form: the text is not changed by
being cut again, and two texts that differ only in how far they are indented as a whole have the same
normal form.

What indents a line is one thing and what makes it blank another: spaces and tabs indent, while any
character with the property `White_Space` is blank. Indentation is blank, so a line that is not blank
keeps a character after its indentation, and cutting its two ends does not interfere.

## Main definitions

* `CutFrom`: what is left of a line from which an amount of indentation is cut off.
* `prefixLines`: a text with the same string in front of every line.

## Main results

* `Text.commonIndent_eq_of_least`: the shared indentation is the least of a line that is not blank.
* `Text.trimmedLines_trimIndent`: a text that was cut has nothing left to cut.
* `Text.lines_prefixLines`: the lines of a text with a string in front of every line.
* `trimIndent_normal_form`: the properties of the normal form.
-/

namespace ShaderWeave

namespace Text

variable {line front : List Char} {n : Nat} {found : List (List Char)}

/-! ## Cutting One Line -/

theorem isBlankLine_append (front line : List Char) :
    isBlankLine (front ++ line) = (isBlankLine front && isBlankLine line) :=
  List.all_append

theorem isBlankLine_of_indent (hfront : ∀ c ∈ front, isIndent c = true) : isBlankLine front = true :=
  List.all_eq_true.2 fun c hc => isBlank_of_isIndent (hfront c hc)

/-- Only blanks are cut off at the end of a line. -/
theorem trimEnd_append_blanks (line : List Char) :
    ∃ blanks, trimEnd line ++ blanks = line ∧ isBlankLine blanks = true :=
  ⟨line.rtakeWhile isBlank, List.rdropWhile_append_rtakeWhile,
    List.all_eq_true.2 fun _ hc => List.mem_rtakeWhile_imp hc⟩

theorem trimEnd_of_isBlankLine (h : isBlankLine line = true) : trimEnd line = [] :=
  List.rdropWhile_eq_nil_iff.2 (List.all_eq_true.1 h)

/-- A line that is not blank keeps all that stands before its last character that is not blank. -/
theorem trimEnd_append (front : List Char) (h : isBlankLine line = false) :
    trimEnd (front ++ line) = front ++ trimEnd line := by
  have hne : line.reverse.dropWhile isBlank ≠ [] := by
    intro hnil
    rw [List.dropWhile_eq_nil_iff] at hnil
    rw [isBlankLine, List.all_eq_false] at h
    obtain ⟨c, hc, hblank⟩ := h
    exact hblank (hnil c (List.mem_reverse.2 hc))
  unfold trimEnd
  rw [List.reverse_append, List.dropWhile_append, if_neg (by simpa using hne), List.reverse_append,
    List.reverse_reverse]

theorem isBlankLine_trimEnd (line : List Char) : isBlankLine (trimEnd line) = isBlankLine line := by
  obtain ⟨blanks, hsplit, hblanks⟩ := trimEnd_append_blanks line
  have happend := isBlankLine_append (trimEnd line) blanks
  rw [hsplit, hblanks, Bool.and_true] at happend
  exact happend.symm

theorem indentOf_append (hfront : ∀ c ∈ front, isIndent c = true) (line : List Char) :
    indentOf (front ++ line) = front.length + indentOf line := by
  rw [indentOf, List.takeWhile_append_of_pos hfront, List.length_append, indentOf]

/-- A line that is not blank has a character after its indentation. -/
theorem exists_indented (h : isBlankLine line = false) :
    ∃ indentation c rest, line = indentation ++ c :: rest ∧ (∀ d ∈ indentation, isIndent d = true) ∧
      isIndent c = false := by
  have hsplit := List.takeWhile_append_dropWhile (p := isIndent) (l := line)
  cases hrest : line.dropWhile isIndent with
  | nil =>
    rw [List.dropWhile_eq_nil_iff] at hrest
    rw [isBlankLine_of_indent hrest] at h
    cases h
  | cons c rest =>
    refine ⟨line.takeWhile isIndent, c, rest, by rw [← hrest, hsplit],
      fun d hd => List.mem_takeWhile_imp hd, ?_⟩
    have hhead := List.head?_dropWhile_not isIndent line
    rw [hrest] at hhead
    simpa using hhead

/-- What is cut off a line with indentation in front is cut off the line. -/
theorem cutLine_append (hfront : ∀ c ∈ front, isIndent c = true) (n : Nat) (line : List Char) :
    cutLine (front.length + n) (front ++ line) = cutLine n line := by
  rw [cutLine, indentOf_append hfront, Nat.add_min_add_left, List.drop_length_add_append, cutLine]

theorem cutLine_of_isBlankLine (n : Nat) (h : isBlankLine line = true) : cutLine n line = [] := by
  apply trimEnd_of_isBlankLine
  exact List.all_eq_true.2 fun c hc => List.all_eq_true.1 h c (List.mem_of_mem_drop hc)

theorem cutLine_zero (line : List Char) : cutLine 0 line = trimEnd line := by
  rw [cutLine, Nat.min_zero, List.drop_zero]

/-- A line that is not blank loses exactly the indentation that is cut off, and blanks at its end. -/
theorem exists_cut (hn : n ≤ indentOf line) : ∃ indentation blanks,
    line = indentation ++ cutLine n line ++ blanks ∧ (∀ c ∈ indentation, isIndent c = true) ∧
      indentation.length = n ∧ isBlankLine blanks = true := by
  obtain ⟨blanks, hsplit, hblanks⟩ := trimEnd_append_blanks (line.drop n)
  have hlength : n ≤ line.length := hn.trans (List.takeWhile_sublist isIndent).length_le
  refine ⟨line.take n, blanks, ?_, fun c hc => isIndent_of_mem_take hn hc,
    List.length_take_of_le hlength, hblanks⟩
  rw [cutLine, Nat.min_eq_right hn, List.append_assoc, hsplit, List.take_append_drop]

/-- Cutting a line changes nothing about whether it is blank, since indentation is. -/
theorem isBlankLine_cutLine (n : Nat) (line : List Char) :
    isBlankLine (cutLine n line) = isBlankLine line := by
  have hfront : isBlankLine (line.take (min (indentOf line) n)) = true :=
    isBlankLine_of_indent fun c hc => isIndent_of_mem_take (Nat.min_le_left _ _) hc
  have hsplit := isBlankLine_append (line.take (min (indentOf line) n))
    (line.drop (min (indentOf line) n))
  rw [List.take_append_drop, hfront, Bool.true_and] at hsplit
  rw [cutLine, isBlankLine_trimEnd, hsplit]

theorem indentOf_cons_of_not {c : Char} (hc : isIndent c = false) (rest : List Char) :
    indentOf (c :: rest) = 0 := by
  rw [indentOf, List.takeWhile_cons_of_neg (by simp [hc]), List.length_nil]

theorem head?_of_indentOf_eq_zero (h : indentOf line = 0) : ∀ c ∈ line.head?, isIndent c = false := by
  intro c hc
  obtain ⟨rest, rfl⟩ := List.head?_eq_some_iff.1 hc
  by_contra hindent
  rw [Bool.not_eq_false] at hindent
  simp [indentOf, hindent] at h

/-- A line that is not blank keeps the rest of its indentation. -/
theorem indentOf_cutLine (h : isBlankLine line = false) (hn : n ≤ indentOf line) :
    indentOf (cutLine n line) = indentOf line - n := by
  obtain ⟨indentation, c, rest, rfl, hindentation, hc⟩ := exists_indented h
  have hindent := indentOf_append hindentation (c :: rest)
  rw [indentOf_cons_of_not hc, Nat.add_zero] at hindent
  rw [hindent] at hn ⊢
  have hcontent : isBlankLine (c :: rest) = false := by
    rwa [isBlankLine_append, isBlankLine_of_indent hindentation, Bool.true_and] at h
  have hkept : ∀ d ∈ indentation.drop n, isIndent d = true :=
    fun d hd => hindentation d (List.mem_of_mem_drop hd)
  -- The character after the indentation is not blank or followed by one that is not, so it stays.
  have hcut : cutLine n (indentation ++ c :: rest) = indentation.drop n ++ trimEnd (c :: rest) := by
    have htaken : ∀ d ∈ indentation.take n, isIndent d = true :=
      fun d hd => hindentation d (List.mem_of_mem_take hd)
    have hfront := cutLine_append htaken 0 (indentation.drop n ++ c :: rest)
    rwa [List.length_take_of_le hn, Nat.add_zero, ← List.append_assoc, List.take_append_drop,
      cutLine_zero, trimEnd_append _ hcontent] at hfront
  have hfirst : indentOf (trimEnd (c :: rest)) = 0 := by
    have hne : trimEnd (c :: rest) ≠ [] := by
      intro hnil
      rw [← isBlankLine_trimEnd, hnil] at hcontent
      cases hcontent
    obtain ⟨d, kept, hkept⟩ := List.exists_cons_of_ne_nil hne
    obtain ⟨blanks, hsplit, -⟩ := trimEnd_append_blanks (c :: rest)
    rw [hkept] at hsplit ⊢
    cases hsplit
    exact indentOf_cons_of_not hc kept
  rw [hcut, indentOf_append hkept, hfirst, List.length_drop, Nat.add_zero]

/-! ## Blank Lines at Both Ends -/

/-- Only blank lines are left out at both ends. -/
theorem exists_blank_ends (found : List (List Char)) : ∃ before after,
    found = before ++ trimBlankLines found ++ after ∧
      ∀ line ∈ before ++ after, isBlankLine line = true := by
  refine ⟨found.takeWhile isBlankLine, (found.dropWhile isBlankLine).rtakeWhile isBlankLine, ?_, ?_⟩
  · have hends : trimBlankLines found ++ (found.dropWhile isBlankLine).rtakeWhile isBlankLine =
      found.dropWhile isBlankLine := List.rdropWhile_append_rtakeWhile
    rw [List.append_assoc, hends, List.takeWhile_append_dropWhile]
  · intro line hline
    rcases List.mem_append.1 hline with hmem | hmem
    · exact List.mem_takeWhile_imp hmem
    · exact List.mem_rtakeWhile_imp hmem

theorem trimBlankLines_eq_nil_iff :
    trimBlankLines found = [] ↔ ∀ line ∈ found, isBlankLine line = true := by
  constructor
  · intro hnil line hline
    obtain ⟨before, after, hsplit, hblank⟩ := exists_blank_ends found
    rw [hnil, List.append_nil] at hsplit
    exact hblank line (hsplit ▸ hline)
  · intro hblank
    rw [trimBlankLines, List.dropWhile_eq_nil_iff.2 hblank]
    rfl

theorem head?_trimBlankLines : ∀ line ∈ (trimBlankLines found).head?, isBlankLine line = false := by
  intro line hline
  obtain ⟨rest, hcons⟩ := List.head?_eq_some_iff.1 hline
  obtain ⟨after, hkept⟩ : trimBlankLines found <+: found.dropWhile isBlankLine :=
    List.rdropWhile_prefix isBlankLine _
  have hhead := List.head?_dropWhile_not isBlankLine found
  rw [← hkept, hcons] at hhead
  simpa using hhead

theorem getLast?_trimBlankLines :
    ∀ line ∈ (trimBlankLines found).getLast?, isBlankLine line = false :=
  fun _ hline => getLast?_reverse_dropWhile hline

theorem trimBlankLines_eq_self (hfirst : ∀ line ∈ found.head?, isBlankLine line = false)
    (hlast : ∀ line ∈ found.getLast?, isBlankLine line = false) : trimBlankLines found = found := by
  have hdrop {ls : List (List Char)} (h : ∀ line ∈ ls.head?, isBlankLine line = false) :
      ls.dropWhile isBlankLine = ls := by
    cases ls with
    | nil => rfl
    | cons line rest => rw [List.dropWhile_cons_of_neg (by simp [h line rfl])]
  rw [trimBlankLines, hdrop hfirst, hdrop (by rwa [List.head?_reverse]), List.reverse_reverse]

/-- A change of the lines that keeps blank lines blank, and only them, can be made before or after blank
lines are left out at both ends. -/
theorem trimBlankLines_map {f : List Char → List Char}
    (hf : ∀ line, isBlankLine (f line) = isBlankLine line) :
    trimBlankLines (found.map f) = (trimBlankLines found).map f := by
  have hcomp : isBlankLine ∘ f = isBlankLine := funext hf
  rw [trimBlankLines, List.dropWhile_map, hcomp, ← List.map_reverse, List.dropWhile_map, hcomp,
    ← List.map_reverse, trimBlankLines]

/-! ## Shared Indentation -/

/-- The shared indentation is that of a line that is not blank, and no such line has less. -/
theorem least_commonIndent (h : ∃ line ∈ found, isBlankLine line = false) :
    (∃ line ∈ found, isBlankLine line = false ∧ indentOf line = commonIndent found) ∧
      ∀ line ∈ found, isBlankLine line = false → commonIndent found ≤ indentOf line := by
  have hmem {line : List Char} : line ∈ found.filter (!isBlankLine ·) ↔
      line ∈ found ∧ isBlankLine line = false := by
    simp
  cases hleast : ((found.filter (!isBlankLine ·)).map indentOf).min? with
  | none =>
    obtain ⟨line, hline, hcontent⟩ := h
    rw [List.min?_eq_none_iff, List.map_eq_nil_iff] at hleast
    have hfiltered := hmem.2 ⟨hline, hcontent⟩
    rw [hleast] at hfiltered
    cases hfiltered
  | some least =>
    have hcommon : commonIndent found = least := by
      rw [commonIndent, hleast]
      rfl
    obtain ⟨hattained, hle⟩ := List.min?_eq_some_iff.1 hleast
    obtain ⟨line, hline, rfl⟩ := List.mem_map.1 hattained
    rw [hcommon]
    refine ⟨⟨line, (hmem.1 hline).1, (hmem.1 hline).2, rfl⟩, fun other hother hcontent => ?_⟩
    exact hle _ (List.mem_map_of_mem (hmem.2 ⟨hother, hcontent⟩))

theorem commonIndent_eq_of_least (hmem : line ∈ found) (hline : isBlankLine line = false)
    (hle : ∀ other ∈ found, isBlankLine other = false → indentOf line ≤ indentOf other) :
    commonIndent found = indentOf line := by
  obtain ⟨⟨least, hleast, hcontent, heq⟩, hbound⟩ := least_commonIndent ⟨line, hmem, hline⟩
  exact Nat.le_antisymm (hbound line hmem hline) (heq ▸ hle least hleast hcontent)

/-- Lines that are indented further share the further indentation as well. -/
theorem commonIndent_map_append (hfront : ∀ c ∈ front, isIndent c = true)
    (h : ∃ line ∈ found, isBlankLine line = false) :
    commonIndent (found.map (front ++ ·)) = front.length + commonIndent found := by
  obtain ⟨⟨least, hleast, hcontent, heq⟩, hbound⟩ := least_commonIndent h
  have hblank (line : List Char) : isBlankLine (front ++ line) = isBlankLine line := by
    rw [isBlankLine_append, isBlankLine_of_indent hfront, Bool.true_and]
  rw [← heq, ← indentOf_append hfront]
  refine commonIndent_eq_of_least (List.mem_map_of_mem hleast) (by rw [hblank, hcontent]) ?_
  intro other hother hother'
  obtain ⟨line, hline, rfl⟩ := List.mem_map.1 hother
  rw [hblank] at hother'
  rw [indentOf_append hfront, indentOf_append hfront, heq]
  exact Nat.add_le_add_left (hbound line hline hother') _

/-- Nothing is shared any more when the shared indentation is cut off. -/
theorem exists_indentOf_eq_zero (h : ∃ line ∈ found, isBlankLine line = false) :
    ∃ line ∈ found, isBlankLine line = false ∧ indentOf (cutLine (commonIndent found) line) = 0 := by
  obtain ⟨⟨least, hleast, hcontent, heq⟩, -⟩ := least_commonIndent h
  refine ⟨least, hleast, hcontent, ?_⟩
  rw [indentOf_cutLine hcontent heq.ge, heq, Nat.sub_self]

/-! ## Cutting Twice -/

/-- A text has lines that are not blank unless nothing is left of it. -/
theorem exists_content (hne : trimBlankLines found ≠ []) :
    ∃ line ∈ trimBlankLines found, isBlankLine line = false := by
  obtain ⟨first, rest, hcons⟩ := List.exists_cons_of_ne_nil hne
  refine ⟨first, by rw [hcons]; exact List.mem_cons_self, ?_⟩
  exact head?_trimBlankLines first (by rw [hcons]; rfl)

/-- A text that was cut has nothing left to cut. -/
theorem trimmedLines_trimIndent (text : List Char) :
    trimmedLines (trimIndent text) = trimmedLines text := by
  generalize hbody : trimBlankLines (lines text) = body
  have hlines : lines (trimIndent text) = body.map (cutLine (commonIndent body)) := by
    rw [lines_trimIndent, trimmedLines, hbody]
  -- The lines that are left are cut at both ends already, and one of them is not indented.
  have hself : trimBlankLines (body.map (cutLine (commonIndent body))) =
      body.map (cutLine (commonIndent body)) := by
    rw [trimBlankLines_map (isBlankLine_cutLine _), trimBlankLines_eq_self]
    · rw [← hbody]
      exact head?_trimBlankLines
    · rw [← hbody]
      exact getLast?_trimBlankLines
  have hzero : commonIndent (body.map (cutLine (commonIndent body))) = 0 := by
    by_cases hnil : body = []
    · rw [hnil]
      rfl
    · rw [← hbody] at hnil
      obtain ⟨line, hline, hcontent, hindent⟩ := exists_indentOf_eq_zero (exists_content hnil)
      rw [hbody] at hline hindent
      rw [← hindent]
      refine commonIndent_eq_of_least (List.mem_map_of_mem hline) ?_ ?_
      · rw [isBlankLine_cutLine, hcontent]
      · rw [hindent]
        exact fun _ _ _ => Nat.zero_le _
  rw [trimmedLines, hlines]
  simp only [hself, hzero]
  rw [List.map_map, trimmedLines, hbody]
  refine List.map_congr_left fun line _ => ?_
  rw [Function.comp_apply, cutLine_zero]
  exact List.rdropWhile_idempotent isBlank _

/-! ## Indenting Every Line -/

/-- Lines that are all indented further are cut to the same lines. -/
theorem trimmedLines_of_lines_eq {text indented : List Char}
    (hfront : ∀ c ∈ front, isIndent c = true)
    (h : lines indented = (lines text).map (front ++ ·)) :
    trimmedLines indented = trimmedLines text := by
  have hblank (line : List Char) : isBlankLine (front ++ line) = isBlankLine line := by
    rw [isBlankLine_append, isBlankLine_of_indent hfront, Bool.true_and]
  have hbody : trimBlankLines (lines indented) = (trimBlankLines (lines text)).map (front ++ ·) := by
    rw [h, trimBlankLines_map hblank]
  rw [trimmedLines, trimmedLines]
  simp only [hbody]
  by_cases hnil : trimBlankLines (lines text) = []
  · rw [hnil]
    rfl
  · rw [List.map_map, commonIndent_map_append hfront (exists_content hnil)]
    exact List.map_congr_left fun line _ => cutLine_append hfront _ line

/-- A text with a string in front of every line; `begins` tells whether a line begins here. -/
def prefixLines (front : List Char) (begins : Bool) : List Char → List Char
  | [] => []
  | c :: rest => (if begins then front else []) ++ c :: prefixLines front (c == '\n') rest

/-- The pieces of a text with a string in front of every line. Nothing after the last line feed is no
line and gets nothing in front. -/
def prefixPieces (front : List Char) : List (List Char) → List (List Char)
  | [] => []
  | [last] => [if last = [] then [] else front ++ last]
  | piece :: rest => (front ++ piece) :: prefixPieces front rest

theorem prefixPieces_cons (piece : List Char) {rest : List (List Char)} (h : rest ≠ []) :
    prefixPieces front (piece :: rest) = (front ++ piece) :: prefixPieces front rest := by
  cases rest with
  | nil => exact absurd rfl h
  | cons next more => rfl

/-- Nothing at all is the only text with one piece that is empty. -/
theorem splitLines_cons_ne (c : Char) (rest : List Char) : splitLines (c :: rest) ≠ [[]] := by
  rw [splitLines]
  split
  · intro h
    exact splitLines_ne_nil rest (List.cons.inj h).2
  · split <;> intro h <;> cases h

/-- Where no line begins, the first piece stays; where one begins, it is changed as the others are. -/
theorem splitLines_prefixLines (hfront : '\n' ∉ front) (text : List Char) :
    splitLines (prefixLines front true text) = prefixPieces front (splitLines text) ∧
      ∃ piece pieces, splitLines text = piece :: pieces ∧
        splitLines (prefixLines front false text) = piece :: prefixPieces front pieces := by
  -- Both halves go through the induction together: a line begins after a line feed and only there.
  induction text with
  | nil => exact ⟨rfl, [], [], rfl, rfl⟩
  | cons c rest ih =>
    obtain ⟨hbegins, piece, pieces, hpieces, hgoes⟩ := ih
    have hinside : ∃ piece pieces, splitLines (c :: rest) = piece :: pieces ∧
        splitLines (prefixLines front false (c :: rest)) = piece :: prefixPieces front pieces := by
      by_cases hc : c = '\n'
      · subst hc
        exact ⟨[], splitLines rest, rfl, congrArg _ hbegins⟩
      · have hsame : (c == '\n') = false := by simpa using hc
        refine ⟨c :: piece, pieces, ?_, ?_⟩
        · rw [splitLines, if_neg hc, hpieces]
        · rw [prefixLines, hsame]
          simp only [Bool.false_eq_true, if_false, List.nil_append]
          rw [splitLines, if_neg hc, hgoes]
    refine ⟨?_, hinside⟩
    obtain ⟨first, others, hsplit, hfalse⟩ := hinside
    have htrue : prefixLines front true (c :: rest) = front ++ prefixLines front false (c :: rest) := rfl
    rw [htrue, Template.splitLines_front hfront hfalse, hsplit]
    cases others with
    | cons next more => rfl
    | nil =>
      have hne : first ≠ [] := by
        rintro rfl
        exact splitLines_cons_ne c rest hsplit
      rw [prefixPieces, prefixPieces, if_neg hne]

theorem dropReturn_append (hfront : ∀ c ∈ front, isIndent c = true) (line : List Char) :
    dropReturn (front ++ line) = front ++ dropReturn line := by
  rcases List.eq_nil_or_concat line with rfl | ⟨before, last, rfl⟩
  · have hend : front.getLast? ≠ some '\r' := by
      intro hreturn
      have hindent := hfront '\r' (List.mem_of_getLast? hreturn)
      exact absurd hindent (by decide)
    rw [List.append_nil, dropReturn, if_neg hend]
    exact (List.append_nil front).symm
  · have hlast : (front ++ (before ++ [last])).getLast? = (before ++ [last]).getLast? := by simp
    rw [List.concat_eq_append]
    unfold dropReturn
    rw [hlast]
    split
    · rw [← List.append_assoc, List.dropLast_concat, List.dropLast_concat]
    · rfl

theorem linesOfPieces_cons (piece : List Char) {rest : List (List Char)} (h : rest ≠ []) :
    linesOfPieces (piece :: rest) = dropReturn piece :: linesOfPieces rest := by
  cases rest with
  | nil => exact absurd rfl h
  | cons next more => rfl

theorem linesOfPieces_prefixPieces (hfront : ∀ c ∈ front, isIndent c = true)
    (pieces : List (List Char)) :
    linesOfPieces (prefixPieces front pieces) = (linesOfPieces pieces).map (front ++ ·) := by
  induction pieces with
  | nil => rfl
  | cons piece rest ih =>
    cases rest with
    | nil =>
      by_cases hempty : piece = []
      · rw [hempty]
        rfl
      · have hindented : front ++ piece ≠ [] := List.append_ne_nil_of_right_ne_nil front hempty
        rw [prefixPieces, linesOfPieces, linesOfPieces, if_neg hempty, if_neg hempty, if_neg hindented]
        rfl
    | cons next more =>
      have hne : prefixPieces front (next :: more) ≠ [] := by
        cases more <;> exact List.cons_ne_nil _ _
      rw [prefixPieces_cons piece (List.cons_ne_nil next more), linesOfPieces_cons _ hne, ih,
        linesOfPieces_cons _ (List.cons_ne_nil next more), dropReturn_append hfront, List.map_cons]

/-- A text with indentation in front of every line has the lines of the text with it in front of each. -/
theorem lines_prefixLines (hfront : ∀ c ∈ front, isIndent c = true) (text : List Char) :
    lines (prefixLines front true text) = (lines text).map (front ++ ·) := by
  have hfeed : '\n' ∉ front := fun hmem => absurd (hfront '\n' hmem) (by decide)
  rw [lines, (splitLines_prefixLines hfeed text).1, linesOfPieces_prefixPieces hfront, lines]

/-! ## The Text of the Lines -/

theorem joinLines_eq_intercalate (found : List (List Char)) :
    joinLines found = ['\n'].intercalate found := by
  induction found with
  | nil => rfl
  | cons line rest ih =>
    cases rest with
    | nil => simp [joinLines, List.intercalate]
    | cons next more =>
      rw [joinLines, ih]
      · simp [List.intercalate]
      · exact List.cons_ne_nil next more

theorem trimIndent_eq_nil_iff (text : List Char) :
    trimIndent text = [] ↔ ∀ line ∈ lines text, isBlankLine line = true := by
  rw [← trimBlankLines_eq_nil_iff]
  constructor
  · intro hnil
    have hlines := lines_trimIndent text
    rw [hnil] at hlines
    exact List.map_eq_nil_iff.1 hlines.symm
  · intro hnil
    rw [trimIndent, trimmedLines, hnil]
    rfl

end Text

/-! ## Main Result -/

/-- A line is blank. -/
def IsBlankText (line : String) : Prop :=
  ∀ c ∈ line.toList, Text.isBlank c = true

/-- What is left of a line from which an indentation of some bytes is cut off, and blanks at its end. -/
inductive CutFrom (indent : Nat) : String → String → Prop where
  /-- Nothing is left of a line that is blank. -/
  | blank {line : String} (hline : IsBlankText line) : CutFrom indent line ""
  /-- A line that is not blank keeps all between its indentation and the blanks at its end. -/
  | content {indentation kept blanks : String} (hsize : indentation.utf8ByteSize = indent)
      (hindentation : ∀ c ∈ indentation.toList, c = ' ' ∨ c = '\t')
      (hkept : ∃ c ∈ kept.toList.getLast?, Text.isBlank c = false) (hblanks : IsBlankText blanks) :
      CutFrom indent (indentation ++ kept ++ blanks) kept

/-- A text with the same string in front of every line. -/
def prefixLines (front text : String) : String :=
  String.ofList (Text.prefixLines front.toList true text.toList)

theorem isBlankText_ofList_iff {line : List Char} :
    IsBlankText (String.ofList line) ↔ Text.isBlankLine line = true := by
  rw [IsBlankText, String.toList_ofList, Text.isBlankLine, List.all_eq_true]

theorem isIndent_iff {c : Char} : Text.isIndent c = true ↔ c = ' ' ∨ c = '\t' := by
  simp [Text.isIndent]

/-- A line is cut by no more than its own indentation, or blank. -/
theorem cutFrom_cutLine {line : List Char} {indent : Nat}
    (h : Text.isBlankLine line = false → indent ≤ Text.indentOf line) :
    CutFrom indent (String.ofList line) (String.ofList (Text.cutLine indent line)) := by
  cases hline : Text.isBlankLine line with
  | true =>
    rw [Text.cutLine_of_isBlankLine indent hline]
    exact .blank (isBlankText_ofList_iff.2 hline)
  | false =>
    obtain ⟨indentation, blanks, hsplit, hindentation, hlength, hblanks⟩ := Text.exists_cut (h hline)
    have hsize : (String.ofList indentation).utf8ByteSize = indent := by
      rw [utf8ByteSize_eq_length, String.length_ofList, hlength]
      intro c hc
      rw [String.toList_ofList] at hc
      rcases isIndent_iff.1 (hindentation c hc) with rfl | rfl <;> rfl
    have hkept : ∃ c ∈ (Text.cutLine indent line).getLast?, Text.isBlank c = false := by
      obtain ⟨c, hc⟩ := Option.ne_none_iff_exists'.1
        (mt List.getLast?_eq_none_iff.1 (Text.cutLine_ne_nil indent hline))
      exact ⟨c, hc, Text.getLast?_reverse_dropWhile hc⟩
    have hcut : CutFrom indent
        (String.ofList indentation ++ String.ofList (Text.cutLine indent line) ++ String.ofList blanks)
        (String.ofList (Text.cutLine indent line)) :=
      .content hsize (by simpa [isIndent_iff] using hindentation) (by rwa [String.toList_ofList])
        (isBlankText_ofList_iff.2 hblanks)
    rwa [← String.ofList_append, ← String.ofList_append, ← hsplit] at hcut

theorem textLines_trimIndent (text : String) :
    textLines (trimIndent text) = (Text.trimmedLines text.toList).map String.ofList :=
  (codeLines_eq_textLines text).symm

theorem trimIndent_eq_empty_iff (text : String) :
    trimIndent text = "" ↔ ∀ line ∈ textLines text, IsBlankText line := by
  rw [trimIndent, ← String.toList_eq_nil_iff, String.toList_ofList, Text.trimIndent_eq_nil_iff]
  simp [textLines, isBlankText_ofList_iff]

/-- The lines that are kept are those from the first to the last one that is not blank, all cut by the
same indentation. -/
theorem exists_cut_body (text : String) : ∃ before body after indent,
    textLines text = before ++ body ++ after ∧ (∀ line ∈ before ++ after, IsBlankText line) ∧
      List.Forall₂ (CutFrom indent) body (textLines (trimIndent text)) := by
  obtain ⟨before, after, hsplit, hblank⟩ := Text.exists_blank_ends (Text.lines text.toList)
  generalize hbody : Text.trimBlankLines (Text.lines text.toList) = body at hsplit
  refine ⟨before.map String.ofList, body.map String.ofList, after.map String.ofList,
    Text.commonIndent body, ?_, ?_, ?_⟩
  · rw [textLines, hsplit, List.map_append, List.map_append]
  · intro line hline
    rw [← List.map_append] at hline
    obtain ⟨original, horiginal, rfl⟩ := List.mem_map.1 hline
    exact isBlankText_ofList_iff.2 (hblank original horiginal)
  · rw [textLines_trimIndent, Text.trimmedLines, hbody, List.map_map, List.forall₂_map_left_iff,
      List.forall₂_map_right_iff, List.forall₂_same]
    intro line hline
    exact cutFrom_cutLine fun hcontent =>
      (Text.least_commonIndent ⟨line, hline, hcontent⟩).2 line hline hcontent

/-- The first and the last line that are kept are not blank. -/
theorem ends_trimIndent (text : String) :
    (∀ line ∈ (textLines (trimIndent text)).head?, ¬ IsBlankText line) ∧
      ∀ line ∈ (textLines (trimIndent text)).getLast?, ¬ IsBlankText line := by
  have hcut {indent : Nat} {line : List Char} (h : Text.isBlankLine line = false) :
      ¬ IsBlankText (String.ofList (Text.cutLine indent line)) := by
    rw [isBlankText_ofList_iff, Text.isBlankLine_cutLine, h]
    exact Bool.false_ne_true
  rw [textLines_trimIndent, Text.trimmedLines, List.map_map]
  constructor
  · intro line hline
    rw [List.head?_map] at hline
    obtain ⟨original, horiginal, rfl⟩ := Option.map_eq_some_iff.1 hline
    exact hcut (Text.head?_trimBlankLines original horiginal)
  · intro line hline
    rw [List.getLast?_map] at hline
    obtain ⟨original, horiginal, rfl⟩ := Option.map_eq_some_iff.1 hline
    exact hcut (Text.getLast?_trimBlankLines original horiginal)

/-- No line that is kept ends with a blank. -/
theorem getLast?_trimIndent (text : String) :
    ∀ line ∈ textLines (trimIndent text), ∀ c ∈ line.toList.getLast?, Text.isBlank c = false := by
  intro line hline c hc
  rw [textLines_trimIndent, Text.trimmedLines, List.map_map] at hline
  obtain ⟨original, -, rfl⟩ := List.mem_map.1 hline
  rw [Function.comp_apply, String.toList_ofList] at hc
  exact Text.getLast?_reverse_dropWhile hc

/-- Some line that is kept is not indented. -/
theorem exists_unindented {text : String} (h : trimIndent text ≠ "") :
    ∃ line ∈ textLines (trimIndent text), ∃ c ∈ line.toList.head?, c ≠ ' ' ∧ c ≠ '\t' := by
  have hne : Text.trimBlankLines (Text.lines text.toList) ≠ [] := by
    intro hnil
    rw [Text.trimBlankLines_eq_nil_iff, ← Text.trimIndent_eq_nil_iff] at hnil
    exact h (by rw [trimIndent, hnil, String.ofList_nil])
  have hcontents := Text.exists_content hne
  generalize hbody : Text.trimBlankLines (Text.lines text.toList) = body at hcontents
  obtain ⟨line, hline, hcontent, hindent⟩ := Text.exists_indentOf_eq_zero hcontents
  obtain ⟨c, rest, hcons⟩ :=
    List.exists_cons_of_ne_nil (Text.cutLine_ne_nil (Text.commonIndent body) hcontent)
  refine ⟨String.ofList (Text.cutLine (Text.commonIndent body) line), ?_, c, ?_, ?_⟩
  · rw [textLines_trimIndent, Text.trimmedLines, hbody]
    exact List.mem_map_of_mem (List.mem_map_of_mem hline)
  · rw [String.toList_ofList, hcons]
    rfl
  · have hfirst := Text.head?_of_indentOf_eq_zero hindent c (by rw [hcons]; rfl)
    rw [← not_or, ← isIndent_iff, hfirst]
    exact Bool.false_ne_true

theorem trimIndent_eq_intercalate (text : String) :
    trimIndent text = "\n".intercalate (textLines (trimIndent text)) := by
  rw [textLines_trimIndent, ← String.toList_inj, String.toList_intercalate, trimIndent,
    String.toList_ofList, Text.trimIndent, Text.joinLines_eq_intercalate, List.map_map]
  congr 1
  simp

/-- Indentation as a normal form, for every text.

* Cutting a second time changes nothing.
* Nothing is left exactly if every line is blank.
* Otherwise the lines from the first to the last one that is not blank are left, joined by line feeds.
  The same amount of spaces and tabs is cut off in front of each of them that is not blank, and all
  blanks at its end; a blank line between them becomes empty. The first and the last line are not blank,
  no line ends with a blank, and some line is not indented.
* A string of spaces and tabs in front of every line makes no difference. -/
theorem trimIndent_normal_form (text : String) :
    trimIndent (trimIndent text) = trimIndent text ∧
    (trimIndent text = "" ↔ ∀ line ∈ textLines text, IsBlankText line) ∧
    (trimIndent text ≠ "" →
      (∃ before body after indent, textLines text = before ++ body ++ after ∧
        (∀ line ∈ before ++ after, IsBlankText line) ∧
        List.Forall₂ (CutFrom indent) body (textLines (trimIndent text))) ∧
      trimIndent text = "\n".intercalate (textLines (trimIndent text)) ∧
      (∃ line ∈ (textLines (trimIndent text)).head?, ¬ IsBlankText line) ∧
      (∃ line ∈ (textLines (trimIndent text)).getLast?, ¬ IsBlankText line) ∧
      (∀ line ∈ textLines (trimIndent text), ∀ c ∈ line.toList.getLast?, Text.isBlank c = false) ∧
      ∃ line ∈ textLines (trimIndent text), ∃ c ∈ line.toList.head?, c ≠ ' ' ∧ c ≠ '\t') ∧
    ∀ front : String, (∀ c ∈ front.toList, c = ' ' ∨ c = '\t') →
      textLines (prefixLines front text) = (textLines text).map (front ++ ·) ∧
      trimIndent (prefixLines front text) = trimIndent text := by
  refine ⟨?_, trimIndent_eq_empty_iff text, fun hne => ?_, fun front hfront => ?_⟩
  · rw [trimIndent, trimIndent, String.toList_ofList, Text.trimIndent, Text.trimmedLines_trimIndent]
    rfl
  · obtain ⟨hfirst, hlast⟩ := ends_trimIndent text
    obtain ⟨line, hline, hunindented⟩ := exists_unindented hne
    have hlines : textLines (trimIndent text) ≠ [] := List.ne_nil_of_mem hline
    refine ⟨exists_cut_body text, trimIndent_eq_intercalate text, ?_, ?_, getLast?_trimIndent text,
      line, hline, hunindented⟩
    · exact ⟨_, List.head?_eq_some_head hlines, hfirst _ (List.head?_eq_some_head hlines)⟩
    · exact ⟨_, List.getLast?_eq_some_getLast hlines, hlast _ (List.getLast?_eq_some_getLast hlines)⟩
  · have hindent : ∀ c ∈ front.toList, Text.isIndent c = true :=
      fun c hc => isIndent_iff.2 (hfront c hc)
    have hlines := Text.lines_prefixLines hindent text.toList
    constructor
    · rw [textLines, prefixLines, String.toList_ofList, hlines, textLines, List.map_map, List.map_map]
      refine List.map_congr_left fun line _ => ?_
      rw [Function.comp_apply, Function.comp_apply, String.ofList_append, String.ofList_toList]
    · rw [trimIndent, trimIndent, prefixLines, String.toList_ofList, Text.trimIndent,
        Text.trimmedLines_of_lines_eq hindent hlines, Text.trimIndent]

/-- A wide space is blank but does not indent: it stays in front of a line, while the spaces before it are
cut off, and two more characters in front of every line change nothing. -/
theorem wideSpace_normal_form :
    trimIndent "    a  \n\n  \u3000b\r\n" = "  a\n\n\u3000b" ∧
      trimIndent "  a\n\n\u3000b" = "  a\n\n\u3000b" ∧
      textLines (prefixLines "\t " "    a  \n\n  \u3000b\r\n") =
        ["\t     a  ", "\t ", "\t   \u3000b"] ∧
      trimIndent (prefixLines "\t " "    a  \n\n  \u3000b\r\n") = "  a\n\n\u3000b" ∧
      ∃ line ∈ textLines "  a\n\n\u3000b", ∃ c ∈ line.toList.head?, c ≠ ' ' ∧ c ≠ '\t' := by
  have htrimmed : trimIndent "    a  \n\n  \u3000b\r\n" = "  a\n\n\u3000b" := by decide +kernel
  obtain ⟨hidempotent, -, hcontent, hprefixed⟩ :=
    trimIndent_normal_form "    a  \n\n  \u3000b\r\n"
  obtain ⟨-, -, -, -, -, hunindented⟩ := hcontent (by rw [htrimmed]; decide)
  have hindented := hprefixed "\t " (by simp)
  rw [htrimmed] at hidempotent hindented hunindented
  exact ⟨htrimmed, hidempotent, by decide +kernel, hindented.2, hunindented⟩

end ShaderWeave
