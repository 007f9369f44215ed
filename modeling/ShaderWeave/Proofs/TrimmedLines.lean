import Mathlib.Data.String.Basic
import ShaderWeave.Proofs.CodeLines

/-!
# The Lines of a Trimmed Text

Cutting the indentation off a text and then cutting the text into lines gives the lines that were cut:
no line gains or loses anything when the lines are joined and cut apart again.

## Main results

* `Text.lines_joinLines`: lines are found again in the text that joins them.
* `codeLines_eq_textLines`: the lines that a fragment adds are the lines of its trimmed text.
-/

namespace ShaderWeave

namespace Text

variable {line : List Char} {found : List (List Char)}

/-! ## Joined Lines -/

/-- Lines are found again in the text that joins them, if none holds a line feed or ends with a carriage
return and the last one is not empty. -/
theorem lines_joinLines (hfeed : ∀ line ∈ found, '\n' ∉ line)
    (hreturn : ∀ line ∈ found, dropReturn line = line) (hlast : found.getLast? ≠ some []) :
    lines (joinLines found) = found := by
  induction found with
  | nil => rfl
  | cons first rest ih =>
    obtain ⟨hfirst, hrest⟩ := List.forall_mem_cons.1 hfeed
    obtain ⟨hfirstReturn, hrestReturn⟩ := List.forall_mem_cons.1 hreturn
    cases rest with
    | nil =>
      have hne : first ≠ [] := by
        rintro rfl
        exact hlast rfl
      rw [joinLines, lines, splitLines_of_no_feed hfirst, linesOfPieces, if_neg hne]
    | cons next more =>
      rw [List.getLast?_cons_cons] at hlast
      have hmore := ih hrest hrestReturn hlast
      -- The first line is cut off at its line feed, and there is a piece after it.
      obtain ⟨piece, pieces, hpieces⟩ :=
        List.exists_cons_of_ne_nil (splitLines_ne_nil (joinLines (next :: more)))
      rw [lines, hpieces] at hmore
      rw [joinLines, lines, splitLines_append hfirst, hpieces, linesOfPieces, hmore, hfirstReturn]
      · exact List.cons_ne_nil piece pieces
      · exact List.cons_ne_nil next more

/-! ## What Trimming Leaves -/

theorem not_mem_splitLines (text : List Char) : ∀ piece ∈ splitLines text, '\n' ∉ piece := by
  induction text with
  | nil => simp [splitLines]
  | cons c rest ih =>
    rw [splitLines]
    by_cases hc : c = '\n'
    · rw [if_pos hc]
      exact List.forall_mem_cons.2 ⟨List.not_mem_nil, ih⟩
    · rw [if_neg hc]
      obtain ⟨piece, pieces, hpieces⟩ := List.exists_cons_of_ne_nil (splitLines_ne_nil rest)
      rw [hpieces] at ih ⊢
      obtain ⟨hpiece, hothers⟩ := List.forall_mem_cons.1 ih
      refine List.forall_mem_cons.2 ⟨?_, hothers⟩
      rw [List.mem_cons, not_or]
      exact ⟨Ne.symm hc, hpiece⟩

theorem dropReturn_sublist (line : List Char) : (dropReturn line).Sublist line := by
  unfold dropReturn
  split
  · exact List.dropLast_sublist line
  · exact List.Sublist.refl line

theorem not_mem_linesOfPieces (h : ∀ piece ∈ found, '\n' ∉ piece) :
    ∀ line ∈ linesOfPieces found, '\n' ∉ line := by
  induction found with
  | nil => simp [linesOfPieces]
  | cons first rest ih =>
    obtain ⟨hfirst, hrest⟩ := List.forall_mem_cons.1 h
    cases rest with
    | nil =>
      rw [linesOfPieces]
      split
      · simp
      · simpa using hfirst
    | cons next more =>
      rw [linesOfPieces]
      · refine List.forall_mem_cons.2 ⟨fun hmem => ?_, ih hrest⟩
        exact hfirst ((dropReturn_sublist first).subset hmem)
      · exact List.cons_ne_nil next more

theorem not_mem_lines (text : List Char) : ∀ line ∈ lines text, '\n' ∉ line :=
  not_mem_linesOfPieces (not_mem_splitLines text)

theorem trimEnd_sublist (line : List Char) : (trimEnd line).Sublist line := by
  have hdrop := (List.dropWhile_sublist (l := line.reverse) isBlank).reverse
  rwa [List.reverse_reverse] at hdrop

theorem cutLine_sublist (indent : Nat) (line : List Char) : (cutLine indent line).Sublist line :=
  (trimEnd_sublist _).trans (List.drop_sublist _ line)

/-- The last of what is left, after elements with a property are dropped from the end, does not have the
property. -/
theorem getLast?_reverse_dropWhile {α : Type} {p : α → Bool} {list : List α} {last : α}
    (h : ((list.reverse.dropWhile p).reverse).getLast? = some last) : p last = false := by
  rw [List.getLast?_reverse] at h
  have hhead := List.head?_dropWhile_not p list.reverse
  rw [h] at hhead
  simpa using hhead

/-- A line without blanks at its end does not end with a carriage return. -/
theorem dropReturn_trimEnd (line : List Char) : dropReturn (trimEnd line) = trimEnd line := by
  unfold dropReturn
  rw [if_neg]
  intro hreturn
  have hblank : isBlank '\r' = false := getLast?_reverse_dropWhile hreturn
  exact absurd hblank (by decide)

theorem isBlank_of_isIndent {c : Char} (h : isIndent c = true) : isBlank c = true := by
  by_contra hblank
  rw [isIndent_eq_false (Bool.eq_false_iff.2 hblank)] at h
  exact Bool.false_ne_true h

/-- The first characters of a line, up to its indentation, indent it. -/
theorem isIndent_of_mem_take {indent : Nat} {c : Char} (h : indent ≤ indentOf line)
    (hc : c ∈ line.take indent) : isIndent c = true := by
  have hsub : line.take indent <+: line.takeWhile isIndent := by
    obtain ⟨rest, hsplit⟩ := List.takeWhile_prefix (l := line) isIndent
    have htake := congrArg (List.take indent) hsplit
    rw [List.take_append_of_le_length h] at htake
    rw [← htake]
    exact List.take_prefix _ _
  exact List.mem_takeWhile_imp (hsub.subset hc)

/-- A line that is not blank does not become empty. -/
theorem cutLine_ne_nil (indent : Nat) (h : isBlankLine line = false) : cutLine indent line ≠ [] := by
  intro hnil
  -- If nothing is left, what was not cut off in front is blank, and what was cut off is indentation.
  have hrest : ∀ c ∈ line.drop (min (indentOf line) indent), isBlank c = true := by
    unfold cutLine trimEnd at hnil
    rw [List.reverse_eq_nil_iff, List.dropWhile_eq_nil_iff] at hnil
    exact fun c hc => hnil c (List.mem_reverse.2 hc)
  have hfront : ∀ c ∈ line.take (min (indentOf line) indent), isBlank c = true :=
    fun c hc => isBlank_of_isIndent (isIndent_of_mem_take (Nat.min_le_left _ _) hc)
  have hblank : isBlankLine line = true := by
    rw [isBlankLine, List.all_eq_true]
    intro c hc
    rw [← List.take_append_drop (min (indentOf line) indent) line] at hc
    exact (List.mem_append.1 hc).elim (hfront c) (hrest c)
  rw [h] at hblank
  exact Bool.false_ne_true hblank

theorem mem_of_mem_trimBlankLines (h : line ∈ trimBlankLines found) : line ∈ found := by
  have hreversed := (List.dropWhile_sublist isBlankLine).subset (List.mem_reverse.1 h)
  exact (List.dropWhile_sublist isBlankLine).subset (List.mem_reverse.1 hreversed)

/-- The lines of a trimmed text are the lines that trimming leaves. -/
theorem lines_trimIndent (text : List Char) : lines (trimIndent text) = trimmedLines text := by
  unfold trimIndent
  apply lines_joinLines
  · intro line hline hfeed
    obtain ⟨original, horiginal, rfl⟩ := List.mem_map.1 hline
    exact not_mem_lines text original (mem_of_mem_trimBlankLines horiginal)
      ((cutLine_sublist _ original).subset hfeed)
  · intro line hline
    obtain ⟨original, -, rfl⟩ := List.mem_map.1 hline
    exact dropReturn_trimEnd _
  · -- The last line is not blank before it is cut, so it is not empty afterwards.
    intro hlast
    unfold trimmedLines at hlast
    rw [List.getLast?_map] at hlast
    obtain ⟨original, horiginal, hcut⟩ := Option.map_eq_some_iff.1 hlast
    exact cutLine_ne_nil _ (getLast?_reverse_dropWhile horiginal) hcut

end Text

/-- The lines of a text. -/
def textLines (text : String) : List String :=
  (Text.lines text.toList).map String.ofList

/-- A text of characters of one byte has as many bytes as characters. -/
theorem utf8ByteSize_eq_length {text : String} (h : ∀ c ∈ text.toList, c.utf8Size = 1) :
    text.utf8ByteSize = text.length := by
  have hbytes := String.utf8ByteSize_ofList text.toList
  rw [String.ofList_toList] at hbytes
  rw [hbytes, ← String.length_toList]
  generalize text.toList = chars at h
  induction chars with
  | nil => rfl
  | cons c rest ih =>
    obtain ⟨hc, hrest⟩ := List.forall_mem_cons.1 h
    rw [String.utf8Len_cons, ih hrest, hc, List.length_cons]

/-- The lines that a fragment adds are the lines of its trimmed text. -/
theorem codeLines_eq_textLines (code : String) : codeLines code = textLines (trimIndent code) := by
  rw [codeLines, textLines, trimIndent, String.toList_ofList, Text.lines_trimIndent]

end ShaderWeave
