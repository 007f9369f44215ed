import Mathlib.Data.List.Infix
import ShaderWeave.Proofs.TargetFormatting

/-!
# The Lines that a Fragment of Code Adds

A fragment that is one line, without blanks at its ends, adds this line to the main routine. A block of
rows of which one is not indented adds its rows, without the indentation that they have in the block.

## Main definitions

* `Text.rowsText`: rows that are indented, each on a line of its own.
* `mentions`: whether a text stands somewhere in a line.

## Main results

* `Code.lines_of_tight`, `Code.lines_block`: the lines of a single line and of a block.
* `mentions_append`, `mentions_eq_false_of_char`: how it is seen whether a line mentions a text.
-/

namespace ShaderWeave

namespace Text

variable {line : List Char} {rows : List (List Char)} {indent : Nat}

/-- Something holds of the characters of all texts if it does of those of the first, which is a literal,
and of the others. -/
theorem forall_mem_cons_ofList {P : List Char → Prop} {text : String} {rest : List String}
    (htext : text = String.ofList line) (h : P line) (hrest : ∀ next ∈ rest, P next.toList) :
    ∀ next ∈ text :: rest, P next.toList :=
  List.forall_mem_cons.2 ⟨of_ofList htext h, hrest⟩

/-! ## Single Lines -/

theorem splitLines_of_no_feed (h : '\n' ∉ line) : splitLines line = [line] := by
  have hsplit := Template.splitLines_front h (show splitLines [] = [[]] from rfl)
  rwa [List.append_nil] at hsplit

theorem lines_of_tight (h : Tight line) : lines line = [line] := by
  obtain ⟨c, hc, -⟩ := h.begins
  have hne : line ≠ [] := by
    rintro rfl
    cases hc
  rw [lines, splitLines_of_no_feed h.no_feed, linesOfPieces, if_neg hne]

/-- A line without indentation and without blanks at its end is left as it is. -/
theorem trimmedLines_of_tight (h : Tight line) : trimmedLines line = [line] := by
  have hbody : trimBlankLines [line] = [line] := by
    simp [trimBlankLines, h.isBlankLine]
  have hcut (shared : Nat) : cutLine shared line = line := by
    rw [cutLine, h.indentOf, Nat.zero_min, List.drop_zero, h.trimEnd]
  rw [trimmedLines, lines_of_tight h, hbody, List.map_singleton, hcut]

/-! ## Rows of a Block -/

/-- A row with its indentation. -/
def indented (indent : Nat) (row : List Char) : List Char :=
  List.replicate indent ' ' ++ row

/-- The text of rows that are indented, each on a line of its own. -/
def rowsText (indent : Nat) (rows : List (List Char)) : List Char :=
  rows.flatMap fun row => indented indent row ++ ['\n']

theorem Solid.indented (h : Solid line) (indent : Nat) : Solid (indented indent line) := by
  obtain ⟨c, hc, hblank⟩ := h.ends
  refine ⟨?_, c, ?_, hblank⟩
  · rw [Text.indented, List.mem_append, List.mem_replicate, not_or]
    exact ⟨fun hspace => absurd hspace.2 (by decide), h.no_feed⟩
  · rw [Text.indented, List.getLast?_append, Option.mem_def.1 hc]
    rfl

/-- Indentation is added to that which a row has itself. -/
theorem indentOf_indented (indent : Nat) (line : List Char) :
    indentOf (indented indent line) = indent + indentOf line := by
  have hspaces : ∀ c ∈ List.replicate indent ' ', isIndent c = true := fun c hc => by
    rw [(List.mem_replicate.1 hc).2]
    rfl
  rw [indentOf, indented, List.takeWhile_append_of_pos hspaces, List.length_append,
    List.length_replicate, indentOf]

theorem Solid.cutLine_indented (h : Solid line) (indent : Nat) :
    cutLine indent (Text.indented indent line) = line := by
  rw [cutLine, indentOf_indented, Nat.min_eq_right (Nat.le_add_right _ _), Text.indented,
    List.drop_left' (List.length_replicate ..), h.trimEnd]

theorem lines_rowsText (h : ∀ row ∈ rows, Solid row) (indent : Nat) :
    lines (rowsText indent rows) = rows.map (indented indent) := by
  induction rows with
  | nil => rfl
  | cons row rest ih =>
    obtain ⟨hrow, hrest⟩ := List.forall_mem_cons.1 h
    have hlines := ih hrest
    have htext : rowsText indent (row :: rest) =
        indented indent row ++ '\n' :: rowsText indent rest := by
      rw [rowsText, List.flatMap_cons, List.append_assoc, List.singleton_append, rowsText]
    obtain ⟨piece, pieces, hpieces⟩ :=
      List.exists_cons_of_ne_nil (splitLines_ne_nil (rowsText indent rest))
    rw [lines, hpieces] at hlines
    rw [lines, htext, splitLines_append (hrow.indented indent).no_feed, hpieces, linesOfPieces, hlines,
      (hrow.indented indent).dropReturn, List.map_cons]
    exact List.cons_ne_nil _ _

/-- Where no line is blank, none is dropped. -/
theorem trimBlankLines_of_forall {found : List (List Char)}
    (h : ∀ line ∈ found, isBlankLine line = false) : trimBlankLines found = found := by
  have hdrop (kept : List (List Char)) (hkept : ∀ line ∈ kept, isBlankLine line = false) :
      kept.dropWhile isBlankLine = kept := by
    cases kept with
    | nil => rfl
    | cons first rest =>
      exact List.dropWhile_cons_of_neg (Bool.eq_false_iff.1 (hkept first List.mem_cons_self))
  rw [trimBlankLines, hdrop found h, hdrop _ fun line hline => h line (List.mem_reverse.1 hline),
    List.reverse_reverse]

/-- Rows of which one is not indented share the indentation of the block. -/
theorem commonIndent_rows (h : ∀ row ∈ rows, Solid row) (hflush : ∃ row ∈ rows, indentOf row = 0) :
    commonIndent (rows.map (indented indent)) = indent := by
  have hfilter : (rows.map (indented indent)).filter (!isBlankLine ·) =
      rows.map (indented indent) := by
    refine List.filter_eq_self.2 fun line hline => ?_
    obtain ⟨row, hrow, rfl⟩ := List.mem_map.1 hline
    rw [((h row hrow).indented indent).isBlankLine]
    rfl
  have hleast : ((rows.map (indented indent)).map indentOf).min? = some indent := by
    refine List.min?_eq_some_iff.2 ⟨?_, fun found hfound => ?_⟩
    · obtain ⟨row, hrow, hzero⟩ := hflush
      refine List.mem_map.2 ⟨indented indent row, List.mem_map_of_mem hrow, ?_⟩
      rw [indentOf_indented, hzero, Nat.add_zero]
    · rw [List.map_map] at hfound
      obtain ⟨row, -, rfl⟩ := List.mem_map.1 hfound
      rw [Function.comp_apply, indentOf_indented]
      exact Nat.le_add_right _ _
  rw [commonIndent, hfilter, hleast, Option.getD_some]

/-- The rows of a block, which begins with a line feed, are left without the indentation of the
block. -/
theorem trimmedLines_rowsText (h : ∀ row ∈ rows, Solid row) (hflush : ∃ row ∈ rows, indentOf row = 0)
    (indent : Nat) : trimmedLines ('\n' :: rowsText indent rows) = rows := by
  have hlines : lines ('\n' :: rowsText indent rows) = [] :: rows.map (indented indent) := by
    obtain ⟨piece, pieces, hpieces⟩ :=
      List.exists_cons_of_ne_nil (splitLines_ne_nil (rowsText indent rows))
    rw [lines, splitLines, if_pos rfl, hpieces, linesOfPieces, ← hpieces, ← lines, lines_rowsText h]
    · rfl
    · exact List.cons_ne_nil _ _
  -- The empty line before the first row is dropped, and no row is.
  have hbody : trimBlankLines ([] :: rows.map (indented indent)) = rows.map (indented indent) := by
    change trimBlankLines (rows.map (indented indent)) = _
    refine trimBlankLines_of_forall fun line hline => ?_
    obtain ⟨row, hrow, rfl⟩ := List.mem_map.1 hline
    exact ((h row hrow).indented indent).isBlankLine
  have hcut : ∀ line ∈ rows, (cutLine indent ∘ indented indent) line = id line :=
    fun line hline => (h line hline).cutLine_indented indent
  rw [trimmedLines, hlines, hbody, commonIndent_rows h hflush, List.map_map,
    List.map_congr_left hcut, List.map_id]

end Text

/-! ## Fragments -/

@[simp]
theorem Piece.render_text (content : String) : (text content).render = content := rfl

@[simp]
theorem Piece.render_texture (target : Target) (name : String) (index : Option UInt32) :
    (texture target name index).render = target.textureOperand name index := rfl

/-- A fragment that is one line adds this line. -/
theorem Code.lines_of_tight {code : Code} {line : String} (hrender : code.render = line)
    (h : Text.Tight code.render.toList) : code.lines = [line] := by
  rw [lines, codeLines, Text.trimmedLines_of_tight h, List.map_singleton, String.ofList_toList,
    hrender]

/-- Fragments that are one line each add these lines. -/
theorem Code.flatMap_lines_of_tight {codes : List Code} {found : List String}
    (hrender : codes.map render = found) (h : ∀ line ∈ found, Text.Tight line.toList) :
    codes.flatMap (·.lines) = found := by
  rw [← hrender] at h
  rw [← hrender, List.map_eq_flatMap]
  exact List.flatMap_congr fun code hcode =>
    lines_of_tight rfl (h _ (List.mem_map_of_mem hcode))

/-- The text of a block. -/
theorem Code.toList_render_block (indent : Nat) (rows : List Code) :
    ((block indent rows).render).toList =
      '\n' :: Text.rowsText indent (rows.map fun row => row.render.toList) := by
  have hrows : (render (rows.flatMap fun row =>
      .text (String.ofList (List.replicate indent ' ')) :: row ++ [.text "\n"])).toList =
        Text.rowsText indent (rows.map fun row => row.render.toList) := by
    induction rows with
    | nil => rfl
    | cons row rest ih =>
      rw [List.flatMap_cons, render_append, String.toList_append, ih]
      simp [Piece.render, Text.rowsText, Text.indented]
  rw [block, render_cons, String.toList_append, hrows]
  simp [Piece.render]

/-- A block of which one row is not indented adds its rows. -/
theorem Code.lines_block {rows : List Code} {found : List String} (indent : Nat)
    (hrows : rows.map render = found) (h : ∀ line ∈ found, Text.Solid line.toList)
    (hflush : ∃ line ∈ found, Text.indentOf line.toList = 0) :
    (block indent rows).lines = found := by
  have htexts : rows.map (fun row => row.render.toList) = found.map String.toList := by
    rw [← hrows, List.map_map]
    rfl
  rw [lines, codeLines, toList_render_block, htexts, Text.trimmedLines_rowsText, List.map_map]
  · exact (List.map_congr_left fun line _ => String.ofList_toList).trans (List.map_id _)
  · exact List.forall_mem_map.2 h
  · obtain ⟨line, hline, hzero⟩ := hflush
    exact ⟨line.toList, List.mem_map_of_mem hline, hzero⟩

/-- A block of tight rows adds them. -/
theorem Code.lines_block_of_tight {rows : List Code} {first : String} {rest : List String}
    (indent : Nat) (hrows : rows.map render = first :: rest)
    (h : ∀ row ∈ rows, Text.Tight row.render.toList) :
    (block indent rows).lines = first :: rest := by
  have htight : ∀ line ∈ first :: rest, Text.Tight line.toList := by
    rw [← hrows]
    exact List.forall_mem_map.2 h
  exact lines_block indent hrows (fun line hline => (htight line hline).solid)
    ⟨first, List.mem_cons_self, (htight first List.mem_cons_self).indentOf⟩

theorem Code.toList_render (code : Code) :
    code.render.toList = code.flatMap fun piece => piece.render.toList := by
  induction code with
  | nil => rfl
  | cons piece rest ih => rw [render_cons, String.toList_append, ih, List.flatMap_cons]

/-- A fragment without a line feed that neither begins nor ends with a blank is one line. -/
theorem Code.tight_render {code : Code} {first last : String}
    (hfeed : ∀ piece ∈ code, '\n' ∉ piece.render.toList)
    (hfirst : code.head? = some (.text first)) (hlast : code.getLast? = some (.text last))
    (hbegins : Text.isSolidEnd first.toList.head? = true)
    (hends : Text.isSolidEnd last.toList.getLast? = true) :
    Text.Tight code.render.toList := by
  obtain ⟨c, hc, hcBlank⟩ := Text.isSolidEnd_iff.1 hbegins
  obtain ⟨d, hd, hdBlank⟩ := Text.isSolidEnd_iff.1 hends
  rw [toList_render]
  refine ⟨?_, ⟨c, ?_, hcBlank⟩, ⟨d, ?_, hdBlank⟩⟩
  · rw [List.mem_flatMap]
    rintro ⟨piece, hpiece, hmem⟩
    exact hfeed piece hpiece hmem
  · obtain ⟨rest, rfl⟩ := List.head?_eq_some_iff.1 hfirst
    rw [List.flatMap_cons, List.head?_append, Piece.render_text, Option.mem_def.1 hc]
    rfl
  · obtain ⟨rest, rfl⟩ := List.getLast?_eq_some_iff.1 hlast
    rw [List.flatMap_append, List.flatMap_singleton, List.getLast?_append, Piece.render_text,
      Option.mem_def.1 hd]
    rfl

theorem Code.render_literal (content : String) : render [.text content] = content := by
  rw [render_cons]
  exact String.append_empty

theorem Code.tight_literal {content : String} {chars : List Char}
    (hcontent : content = String.ofList chars) (h : Text.Tight chars) :
    Text.Tight (render [.text content]).toList := by
  rw [render_literal]
  exact Text.of_ofList hcontent h

/-- A numeral is made of digits. -/
theorem not_mem_toDigits (n : Nat) {c : Char} (hc : c.isDigit = false) : c ∉ Nat.toDigits 10 n := by
  intro hmem
  rw [Nat.isDigit_of_mem_toDigits (by decide) (by decide) hmem] at hc
  cases hc

/-! ## Mentions -/

/-- Whether the text stands somewhere in the line. -/
def mentions (text line : String) : Bool :=
  decide (text.toList <:+: line.toList)

theorem mentions_append (before text after : String) :
    mentions text (before ++ (text ++ after)) = true := by
  rw [mentions, decide_eq_true_eq, String.toList_append, String.toList_append, ← List.append_assoc]
  exact ⟨before.toList, after.toList, rfl⟩

/-- A line without one of the characters of a text does not mention the text. -/
theorem mentions_eq_false_of_char {text line : String} {c : Char} (htext : c ∈ text.toList)
    (hline : c ∉ line.toList) : mentions text line = false := by
  rw [mentions, decide_eq_false_iff_not]
  exact fun hmentioned => hline (hmentioned.subset htext)

theorem filter_mentions_cons {text line : String} {chars : List Char} {c : Char}
    (htext : c ∈ text.toList) (hline : line = String.ofList chars) (hchars : c ∉ chars)
    (rest : List String) :
    (line :: rest).filter (mentions text) = rest.filter (mentions text) := by
  have hmentions := mentions_eq_false_of_char htext (Text.of_ofList (P := (c ∉ ·)) hline hchars)
  exact List.filter_cons_of_neg (by rw [hmentions]; decide)

end ShaderWeave
