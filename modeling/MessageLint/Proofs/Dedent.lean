-- SUMMARY: A value over several lines is their text, whatever the base of their indentation.
import MessageLint.Proofs.Canonical.Entry

/-!
# Dedentation

A value may go over several lines, with blank lines between them. What it says depends on how far its
lines are indented against each other, and on how many blank lines stand between them. It depends
neither on the base of the indentation nor on how wide the blank lines are, and a value that starts on
the line of its `=` says the same as one that starts below. The pieces of the value are recovered from
its lines first; then `Piece.said` tells what they say together.
-/

namespace MessageLint

-- ---------------------------------------------------------------------------
-- Lines
-- ---------------------------------------------------------------------------

/-- A line of text: how wide the blank lines above it are, how far it is indented beyond the base, and
what stands on it. -/
structure TextLine where
  blanks : List Nat
  depth : Nat
  text : List Char

/-- A line of so many spaces. -/
def blankLine (width : Nat) : List Char := List.replicate width ' ' ++ ['\n']

namespace TextLine

/-- What stands on the line is text, and goes on with a value wherever it is indented. -/
structure Plain (l : TextLine) : Prop where
  clean : ∀ ch ∈ l.text, ch ∉ ['\n', '\x7b', '\x7d']
  head : ∃ ch, l.text.head? = some ch ∧ ch ∉ [' ', '.', '[', '*']

/-- The blank lines above the line. -/
def above (l : TextLine) : List Char := l.blanks.flatMap blankLine

/-- The line without its end. -/
def indented (base : Nat) (l : TextLine) : List Char := List.replicate (base + l.depth) ' ' ++ l.text

def render (base : Nat) (l : TextLine) : List Char := l.above ++ l.indented base ++ ['\n']

/-- What the line adds to the value in front of it: an end for each line that is left, and its text. -/
def added (l : TextLine) : List Char := List.replicate (1 + l.blanks.length) '\n' ++ l.indented 0

/-- What lines say: spaces at their end do not count. -/
def value (first : TextLine) (rest : List TextLine) : List Char :=
  (first.indented 0 ++ rest.flatMap added).rdropWhile (· = ' ')

end TextLine

/-- The source is a file of one message, with this name and with this one text for its value. -/
def Says (source name text : List Char) : Prop :=
  ∃ r m p t, Resource.parse (String.ofList source) = .ok r ∧ r.body = [.message m] ∧
    m.id.name.toList = name ∧ m.value = some p ∧ p.elements = [.text t] ∧ t.value.toList = text ∧
    m.attributes = [] ∧ m.comment = none

variable {base : Nat} {l first : TextLine} {rest : List TextLine} {tail : List Char}

namespace TextLine

theorem Plain.exists_head (h : l.Plain) : ∃ ch text, l.text = ch :: text ∧
    Cursor.isBlank ch = false ∧ ch ∉ ['\x7b', '\x7d', '.', '[', '*'] := by
  obtain ⟨hclean, ch, hhead, hch⟩ := h
  obtain ⟨text, htext⟩ := List.head?_eq_some_iff.1 hhead
  have hplain := hclean ch (by simp [htext])
  simp only [List.mem_cons, List.not_mem_nil, or_false, not_or] at hch hplain
  refine ⟨ch, text, htext, by simp [Cursor.isBlank, hch, hplain], by simp [hch, hplain]⟩

theorem Plain.element (h : l.Plain) (span : Span) :
    (Element.text ⟨String.ofList l.text, span⟩).Canonical := by
  obtain ⟨ch, text, htext, -⟩ := h.exists_head
  refine ⟨by simp [htext], fun ch hch => ?_⟩
  have hplain := h.clean ch (by simpa using hch)
  simp only [List.mem_cons, List.not_mem_nil, or_false, not_or] at hplain
  exact ⟨hplain.2.1, hplain.2.2, hplain.1⟩

/-- The lines behind a line, each from the end of the one in front of it. -/
def addedText (base : Nat) (rest : List TextLine) : List Char :=
  rest.flatMap fun l => '\n' :: (l.above ++ l.indented base)

theorem addedText_append (base : Nat) (rest : List TextLine) :
    addedText base rest ++ ['\n'] = '\n' :: rest.flatMap (render base) := by
  induction rest with
  | nil => rfl
  | cons l rest ih =>
    rw [List.flatMap_cons, addedText, List.flatMap_cons, List.append_assoc]
    change _ ++ (addedText base rest ++ ['\n']) = _
    rw [ih]
    simp [render]

end TextLine

-- ---------------------------------------------------------------------------
-- Skipping blank lines
-- ---------------------------------------------------------------------------

namespace Cursor

private theorem skipBlankLinesFrom_blankLine (lineStart : Cursor) (lines width : Nat) (r : List Char)
    (offset : Nat) : ∃ offset', skipBlankLinesFrom lineStart lines (blankLine width ++ r) offset =
      skipBlankLinesFrom ⟨r, offset'⟩ (lines + 1) r offset' := by
  induction width generalizing offset with
  | zero => exact ⟨offset + 1, rfl⟩
  | succ width ih => exact ih (offset + 1)

/-- Blank lines are counted, and skipping goes on behind the last of them. -/
private theorem skipBlankLinesFrom_blankLines (widths : List Nat) (lines : Nat) (r : List Char)
    (offset : Nat) : ∃ offset', skipBlankLinesFrom ⟨widths.flatMap blankLine ++ r, offset⟩ lines
      (widths.flatMap blankLine ++ r) offset =
        skipBlankLinesFrom ⟨r, offset'⟩ (lines + widths.length) r offset' := by
  induction widths generalizing lines offset with
  | nil => exact ⟨offset, rfl⟩
  | cons width widths ih =>
    rw [List.flatMap_cons, List.append_assoc]
    obtain ⟨start, hstart⟩ := skipBlankLinesFrom_blankLine
      ⟨blankLine width ++ (widths.flatMap blankLine ++ r), offset⟩ lines width _ offset
    obtain ⟨offset', hrun⟩ := ih (lines + 1) start
    exact ⟨offset', by rw [hstart, hrun, List.length_cons, Nat.add_right_comm, Nat.add_assoc]⟩

/-- A line end is skipped together with the blank lines behind it, and nothing of the next line is. -/
theorem skipBlankLines_above (h : l.Plain) (base : Nat) (tail : List Char) (offset : Nat) :
    ∃ offset', skipBlankLines ⟨'\n' :: (l.above ++ (l.indented base ++ tail)), offset⟩ =
      (1 + l.blanks.length, ⟨l.indented base ++ tail, offset'⟩) := by
  obtain ⟨ch, text, htext, hblank, -⟩ := h.exists_head
  obtain ⟨offset', hrun⟩ :=
    skipBlankLinesFrom_blankLines l.blanks 1 (l.indented base ++ tail) (offset + 1)
  refine ⟨offset', ?_⟩
  rw [skipBlankLines, skipBlankLinesFrom, TextLine.above, hrun, TextLine.indented, List.append_assoc,
    htext]
  exact skipBlankLinesFrom_spaces _ _ _ (by simp) hblank

theorem continuesPattern_indented (h : l.Plain) (hbase : 1 ≤ base) (tail : List Char) (offset : Nat) :
    continuesPattern ⟨l.indented base ++ tail, offset⟩ := by
  obtain ⟨ch, text, htext, hblank, hch⟩ := h.exists_head
  have hspace : isSpace ch = false := by simp_all [isBlank, isSpace]
  have hskip : skipSpaces ⟨l.indented base ++ tail, offset⟩ =
      ⟨ch :: text ++ tail, offset + byteLength (List.replicate (base + l.depth) ' ')⟩ := by
    rw [TextLine.indented, List.append_assoc, htext]
    exact Parser.Recovers.skipWhile_eq _ (by simp [isSpace]) (Parser.stops_cons.2 hspace)
  have hwidth : 0 < byteLength (List.replicate (base + l.depth) ' ') :=
    byteLength_pos (by simp; omega)
  have hpeek : peek ⟨ch :: text ++ tail, offset + byteLength (List.replicate (base + l.depth) ' ')⟩ =
      some ch := rfl
  simp only [continuesPattern, hskip, hpeek]
  simp_all [isBlank]

/-- A value goes on at a line end if such a line is the next one with something on it. -/
theorem continuesPiece_above (h : l.Plain) (hbase : 1 ≤ base) (tail : List Char) (offset : Nat) :
    continuesPiece ⟨'\n' :: (l.above ++ (l.indented base ++ tail)), offset⟩ := by
  obtain ⟨start, hskip⟩ := skipBlankLines_above h base tail offset
  have hline := continuesPattern_indented h hbase tail start
  simpa [continuesPiece, peek, hskip] using hline

end Cursor

-- ---------------------------------------------------------------------------
-- Reading
-- ---------------------------------------------------------------------------

namespace TextLine

/-- The pieces of a line: its indentation, with the line ends above it, and its text. -/
def indentPiece (base newlines : Nat) (l : TextLine) : Piece :=
  .indent newlines (base + l.depth) (.empty 0)

def textPiece (l : TextLine) : Piece := .text ⟨String.ofList l.text, .empty 0⟩

/-- The pieces of lines behind a line. -/
def addedPieces (base : Nat) (rest : List TextLine) : List Piece :=
  rest.flatMap fun l => [l.indentPiece base (1 + l.blanks.length), l.textPiece]

end TextLine

namespace Parser

variable {placeable : Parser Placeable}

theorem countSpaces_recovers {count : Nat} (hrest : Stops Cursor.isSpace tail) :
    countSpaces.Recovers id count (List.replicate count ' ') tail := by
  refine .bind_last (.takeWhile (by simp [Cursor.isSpace]) hrest) fun spaces hspaces => .pure ?_
  obtain rfl : spaces = String.ofList (List.replicate count ' ') := hspaces
  simp

theorem stops_text (h : l.Plain) : Stops Cursor.isSpace (l.text ++ tail) := by
  obtain ⟨ch, text, htext, hblank, -⟩ := h.exists_head
  rw [htext]
  exact stops_cons.2 (by simp_all [Cursor.isBlank, Cursor.isSpace])

/-- The spaces in front of a line. -/
theorem spaces_recovers (h : l.Plain) (base newlines : Nat) (start : Cursor) (tail : List Char) :
    (do
      let spaces ← countSpaces
      return .indent newlines spaces (← spanFrom start) : Parser Piece).Recovers
      (·.respan .forget) (l.indentPiece base newlines) (List.replicate (base + l.depth) ' ')
      (l.text ++ tail) := by
  refine .bind_last (countSpaces_recovers (stops_text h)) fun count hcount => ?_
  obtain rfl : count = base + l.depth := hcount
  exact .spanFrom_bind fun _ => .pure rfl

theorem indentPiece_recovers (h : l.Plain) :
    (piece placeable).Recovers (·.respan .forget) (l.indentPiece base (1 + l.blanks.length))
      ('\n' :: (l.above ++ List.replicate (base + l.depth) ' ')) (l.text ++ tail) := by
  intro offset
  obtain ⟨start, hskip⟩ := Cursor.skipBlankLines_above h base tail offset
  have hline : l.above ++ List.replicate (base + l.depth) ' ' ++ (l.text ++ tail) =
      l.above ++ (l.indented base ++ tail) := by simp [TextLine.indented]
  obtain ⟨p, stop, hrun, hp⟩ := spaces_recovers h base (1 + l.blanks.length)
    ⟨'\n' :: (l.above ++ (l.indented base ++ tail)), offset⟩ tail start
  refine ⟨p, stop, ?_, hp⟩
  rw [List.cons_append, hline, piece, Parser.place_bind]
  change (skipBlankLines >>= _) _ = _
  rw [skipBlankLines_bind, hskip, TextLine.indented, List.append_assoc]
  rw [TextLine.indented, List.append_assoc] at hrun
  exact hrun

/-- The text of a line, up to where no text goes on. -/
theorem textPiece_recovers (h : l.Plain) (hrest : Stops isPatternText tail) :
    (piece placeable).Recovers (·.respan .forget) l.textPiece l.text tail := by
  have htext : (⟨String.ofList l.text, .empty 0⟩ : TextElement).value.toList = l.text := by simp
  exact htext ▸ piece_recovers_text (h.element (.empty 0)) hrest

/-- The lines of a value from the text of its first one on. A round reads a text, or what stands
between two texts, so what is left starts with one or the other. -/
theorem gather_lines (placeable : Parser Placeable) (hbase : 1 ≤ base) (hfirst : first.Plain)
    (hrest : ∀ l ∈ rest, l.Plain) (seen : List Piece) :
    (gather (fun _ c => c.continuesPiece) (fun _ => piece placeable) seen).Recovers
      (List.map (·.respan .forget))
      (seen.reverse ++ first.textPiece :: TextLine.addedPieces base rest)
      (first.text ++ TextLine.addedText base rest) ['\n'] := by
  apply Recovers.gather (M := fun _ todo text =>
    (∃ rest : List TextLine, (∀ l ∈ rest, l.Plain) ∧ todo = TextLine.addedPieces base rest ∧
      text = TextLine.addedText base rest) ∨
    ∃ (first : TextLine) (rest : List TextLine), first.Plain ∧ (∀ l ∈ rest, l.Plain) ∧
      todo = first.textPiece :: TextLine.addedPieces base rest ∧
      text = first.text ++ TextLine.addedText base rest)
  · rintro seen text (⟨rest, -, hnil, rfl⟩ | ⟨first, rest, -, -, hnil, -⟩)
    · cases rest with
      | nil => exact ⟨rfl, endsPattern_end⟩
      | cons l rest => simp [TextLine.addedPieces] at hnil
    · simp at hnil
  · rintro seen a as text (⟨rest, hrest, hcons, rfl⟩ | ⟨first, rest, hfirst, hrest, hcons, rfl⟩)
    · cases rest with
      | nil => simp [TextLine.addedPieces] at hcons
      | cons l rest =>
        obtain ⟨hl, hrest⟩ := List.forall_mem_cons.1 hrest
        simp only [TextLine.addedPieces, List.flatMap_cons, List.cons_append, List.nil_append,
          List.cons.injEq] at hcons
        obtain ⟨rfl, rfl⟩ := hcons
        refine ⟨'\n' :: (l.above ++ List.replicate (base + l.depth) ' '),
          l.text ++ TextLine.addedText base rest, by simp [TextLine.addedText, TextLine.indented],
          by simp, ?_, ?_, fun _ _ => .inr ⟨l, rest, hl, hrest, rfl, rfl⟩⟩
        · intro offset
          have hline := Cursor.continuesPiece_above hl hbase (TextLine.addedText base rest ++ ['\n']) offset
          simpa [TextLine.indented] using hline
        · simpa using indentPiece_recovers hl
    · obtain ⟨rfl, rfl⟩ := List.cons.inj hcons
      obtain ⟨ch, text, htext, hblank, -⟩ := hfirst.exists_head
      refine ⟨first.text, TextLine.addedText base rest, rfl, by simp [htext], fun offset => ?_, ?_,
        fun _ _ => .inl ⟨rest, hrest, rfl, rfl⟩⟩
      · rw [htext]
        exact continuesPiece_cons (by rintro rfl; simp [Cursor.isBlank] at hblank) offset
      · rw [TextLine.addedText_append]
        exact textPiece_recovers hfirst (stops_cons.2 rfl)
  · exact .inr ⟨first, rest, hfirst, hrest, rfl, rfl⟩

/-- A value that starts on the line of its `=` and goes on over further lines. -/
theorem pieces_recovers_line (placeable : Parser Placeable) (hbase : 1 ≤ base) (hfirst : first.Plain)
    (hrest : ∀ l ∈ rest, l.Plain) :
    (pieces placeable false).Recovers (List.map (·.respan .forget))
      (first.textPiece :: TextLine.addedPieces base rest)
      (first.text ++ TextLine.addedText base rest) ['\n'] :=
  gather_lines placeable hbase hfirst hrest []

/-- A value that starts on a line of its own. -/
theorem pieces_recovers_block (placeable : Parser Placeable) (hbase : 1 ≤ base) (hfirst : first.Plain)
    (hrest : ∀ l ∈ rest, l.Plain) :
    (pieces placeable true).Recovers (List.map (·.respan .forget))
      (first.indentPiece base 0 :: first.textPiece :: TextLine.addedPieces base rest)
      (first.indented base ++ TextLine.addedText base rest) ['\n'] := by
  have hopening : (blockIndent >>= fun p =>
      gather (fun _ c => c.continuesPiece) (fun _ => piece placeable) [p]).Recovers
      (List.map (·.respan .forget))
      (first.indentPiece base 0 :: first.textPiece :: TextLine.addedPieces base rest)
      (List.replicate (base + first.depth) ' ' ++ (first.text ++ TextLine.addedText base rest))
      ['\n'] := by
    refine .bind (g := (·.respan .forget)) (a := first.indentPiece base 0) ?_ fun p hp => ?_
    · rw [List.append_assoc]
      exact .place_bind fun start _ => spaces_recovers hfirst base 0 start _
    · intro offset
      obtain ⟨ps, stop, hrun, hps⟩ := gather_lines placeable hbase hfirst hrest [p] offset
      exact ⟨ps, stop, hrun, by simpa [hp] using hps⟩
  rw [TextLine.indented, List.append_assoc]
  intro offset
  simpa [pieces, Parser.bind_assoc] using hopening offset

end Parser

-- ---------------------------------------------------------------------------
-- What pieces say
-- ---------------------------------------------------------------------------

namespace Piece

/-- What a piece of a text says once `common` spaces are taken from its indentation. -/
def said (common : Nat) : Piece → List Char
  | .indent newlines spaces _ => List.replicate newlines '\n' ++ List.replicate (spaces - common) ' '
  | .text t => t.value.toList
  | .placeable _ => []

/-- Pieces without a placeable join to one text, unless nothing is left of them. -/
theorem join_said (common : Nat) {ps : List Piece} (h : ∀ q, .placeable q ∉ ps) :
    (Element.join (ps.filterMap (dedent common)) = [] ∧ ps.flatMap (said common) = []) ∨
      ∃ t, Element.join (ps.filterMap (dedent common)) = [.text t] ∧
        t.value.toList = ps.flatMap (said common) := by
  induction ps with
  | nil => exact .inl ⟨rfl, rfl⟩
  | cons p ps ih =>
    have htail := ih fun q hq => h q (List.mem_cons_of_mem _ hq)
    -- what is dropped says nothing, and what is kept is a text that says it
    have hpiece : (p.dedent common = none ∧ p.said common = []) ∨
        ∃ t, p.dedent common = some (.text t) ∧ t.value.toList = p.said common := by
      cases p with
      | placeable q => exact absurd List.mem_cons_self (h q)
      | text t => exact .inr ⟨t, rfl, rfl⟩
      | indent newlines spaces span =>
        rw [dedent]
        split
        · next hnone => exact .inl ⟨rfl, by simp [said, hnone.1, hnone.2]⟩
        · exact .inr ⟨_, rfl, by simp [said]⟩
    rw [List.flatMap_cons]
    obtain ⟨hnone, hsaid⟩ | ⟨t, hsome, hsaid⟩ := hpiece
    · rw [List.filterMap_cons_none hnone, hsaid]
      exact htail
    · rw [List.filterMap_cons_some hsome, ← hsaid]
      refine .inr ?_
      change ∃ t', Element.joinOnto (.text t) (Element.join _) = _ ∧ _
      obtain ⟨hjoin, hrest⟩ | ⟨t', hjoin, hrest⟩ := htail
      · exact ⟨t, by rw [hjoin]; rfl, by simp [hrest]⟩
      · exact ⟨⟨t.value ++ t'.value, t.span.extend t'.span⟩, by rw [hjoin]; rfl, by simp [hrest]⟩

/-- A text of pieces loses the blanks at its end. -/
theorem elements_said {ps : List Piece} {text : List Char} (h : ∀ q, .placeable q ∉ ps)
    (htext : (ps.flatMap (said (commonIndent ps))).rdropWhile Cursor.isBlank = text)
    (hne : text ≠ []) : ∃ t, elements ps = [.text t] ∧ t.value.toList = text := by
  obtain ⟨-, hnil⟩ | ⟨t, hjoin, hsaid⟩ := join_said (commonIndent ps) h
  · rw [hnil, List.rdropWhile_nil] at htext
    exact absurd htext.symm hne
  · have htrim : (Element.trimEnd t.value).toList = text := by
      rw [Element.trimEnd, String.toList_ofList, hsaid]
      exact htext
    have hkept : (Element.trimEnd t.value).isEmpty = false := by
      rw [Bool.eq_false_iff, ne_eq, String.isEmpty_iff, ← String.toList_eq_nil_iff, htrim]
      exact hne
    refine ⟨⟨Element.trimEnd t.value, t.span⟩, ?_, htrim⟩
    rw [elements, hjoin, Element.trimLast, hkept]
    rfl

end Piece

namespace TextLine

theorem flatMap_said (rest : List TextLine) :
    (addedPieces base rest).flatMap (Piece.said base) = rest.flatMap added := by
  induction rest with
  | nil => rfl
  | cons l rest ih =>
    change (List.replicate (1 + l.blanks.length) '\n' ++ List.replicate (base + l.depth - base) ' ') ++
      ((String.ofList l.text).toList ++ (addedPieces base rest).flatMap (Piece.said base)) = _
    rw [Nat.add_sub_cancel_left, String.toList_ofList, ih]
    simp [added, indented]

theorem placeable_notMem_addedPieces (q : Placeable) : .placeable q ∉ addedPieces base rest := by
  simp [addedPieces, indentPiece, textPiece]

theorem filterMap_spaces? (rest : List TextLine) :
    (addedPieces base rest).filterMap Piece.spaces? = rest.map fun l => base + l.depth := by
  induction rest with
  | nil => rfl
  | cons l rest ih =>
    change (base + l.depth) :: (addedPieces base rest).filterMap Piece.spaces? = _
    rw [ih, List.map_cons]

/-- The least indentation is the base, if some line is not indented beyond it. -/
theorem min?_indentation (base : Nat) {lines : List TextLine} (h : ∃ l ∈ lines, l.depth = 0) :
    (lines.map fun l => base + l.depth).min? = some base := by
  obtain ⟨l, hl, hdepth⟩ := h
  refine List.min?_eq_some_iff.2 ⟨List.mem_map.2 ⟨l, hl, by rw [hdepth, Nat.add_zero]⟩, fun n hn => ?_⟩
  obtain ⟨l', -, rfl⟩ := List.mem_map.1 hn
  exact Nat.le_add_right _ _

/-- The last line of a value ends it. -/
theorem exists_last (first : TextLine) (rest : List TextLine) : ∃ l ∈ first :: rest, ∃ before,
    first.indented 0 ++ rest.flatMap added = before ++ l.text := by
  rcases List.eq_nil_or_concat rest with rfl | ⟨rest, l, rfl⟩
  · exact ⟨first, List.mem_cons_self, List.replicate first.depth ' ', by simp [indented]⟩
  · refine ⟨l, by simp, first.indented 0 ++ rest.flatMap added ++
      (List.replicate (1 + l.blanks.length) '\n' ++ List.replicate l.depth ' '), ?_⟩
    simp [added, indented]

/-- Behind something that is no space, only spaces are blanks of a text without line ends. -/
theorem rdropWhile_isBlank (before : List Char) {text : List Char} (hline : '\n' ∉ text)
    (hink : ∃ ch ∈ text, ch ≠ ' ') :
    (before ++ text).rdropWhile Cursor.isBlank = (before ++ text).rdropWhile (· = ' ') ∧
      (before ++ text).rdropWhile (· = ' ') ≠ [] := by
  induction text using List.reverseRecOn with
  | nil => simp at hink
  | append_singleton text ch ih =>
    rw [List.mem_append, not_or, List.mem_singleton] at hline
    rw [← List.append_assoc]
    by_cases hspace : ch = ' '
    · subst hspace
      rw [List.rdropWhile_concat_pos _ _ _ rfl, List.rdropWhile_concat_pos _ _ _ (by simp)]
      exact ih hline.1 (by simpa using hink)
    · have hblank : ¬Cursor.isBlank ch := by simp [Cursor.isBlank, hspace, Ne.symm hline.2]
      rw [List.rdropWhile_concat_neg _ _ _ hblank, List.rdropWhile_concat_neg _ _ _ (by simpa)]
      exact ⟨rfl, by simp⟩

/-- The blanks at the end of a value are spaces, for something else stands on its last line. -/
theorem trimmed (h : ∀ l ∈ first :: rest, l.Plain) :
    (first.indented 0 ++ rest.flatMap added).rdropWhile Cursor.isBlank = value first rest ∧
      value first rest ≠ [] := by
  obtain ⟨l, hl, before, hvalue⟩ := exists_last first rest
  obtain ⟨ch, text, htext, hblank, -⟩ := (h l hl).exists_head
  have hspace : ch ≠ ' ' := by
    rintro rfl
    simp [Cursor.isBlank] at hblank
  rw [value, hvalue]
  refine rdropWhile_isBlank before (fun hmem => ?_) ⟨ch, by simp [htext], hspace⟩
  exact absurd ((h l hl).clean _ hmem) (by simp)

/-- The pieces of a value that starts on a line of its own say its lines. -/
theorem elements_block (base : Nat) (h : ∀ l ∈ first :: rest, l.Plain)
    (hbase : ∃ l ∈ first :: rest, l.depth = 0) :
    ∃ t, Piece.elements (first.indentPiece base 0 :: first.textPiece :: addedPieces base rest) =
      [.text t] ∧ t.value.toList = value first rest := by
  have hcommon : Piece.commonIndent
      (first.indentPiece base 0 :: first.textPiece :: addedPieces base rest) = base := by
    change (((base + first.depth) :: (addedPieces base rest).filterMap Piece.spaces?).min?).getD 0 = _
    have hmin := min?_indentation base hbase
    rw [List.map_cons] at hmin
    rw [filterMap_spaces?, hmin, Option.getD_some]
  have hsaid : (first.indentPiece base 0 :: first.textPiece :: addedPieces base rest).flatMap
      (Piece.said base) = first.indented 0 ++ rest.flatMap added := by
    simp [List.flatMap_cons, flatMap_said, indentPiece, textPiece, Piece.said, indented]
  obtain ⟨htrimmed, hne⟩ := trimmed h
  refine Piece.elements_said (fun q => ?_) (by rw [hcommon, hsaid, htrimmed]) hne
  simp [placeable_notMem_addedPieces, indentPiece, textPiece]

/-- And so do those of a value that starts on the line of its `=`. -/
theorem elements_line (base : Nat) (h : ∀ l ∈ first :: rest, l.Plain) (hfirst : first.depth = 0)
    (hbase : ∃ l ∈ rest, l.depth = 0) :
    ∃ t, Piece.elements (first.textPiece :: addedPieces base rest) = [.text t] ∧
      t.value.toList = value first rest := by
  have hcommon : Piece.commonIndent (first.textPiece :: addedPieces base rest) = base := by
    change (((addedPieces base rest).filterMap Piece.spaces?).min?).getD 0 = _
    rw [filterMap_spaces?, min?_indentation base hbase, Option.getD_some]
  have hsaid : (first.textPiece :: addedPieces base rest).flatMap (Piece.said base) =
      first.indented 0 ++ rest.flatMap added := by
    simp [List.flatMap_cons, flatMap_said, textPiece, Piece.said, indented, hfirst]
  obtain ⟨htrimmed, hne⟩ := trimmed h
  refine Piece.elements_said (fun q => ?_) (by rw [hcommon, hsaid, htrimmed]) hne
  simp [placeable_notMem_addedPieces, textPiece]

end TextLine

-- ---------------------------------------------------------------------------
-- Files of one message
-- ---------------------------------------------------------------------------

namespace Parser

variable {placeable : Parser Placeable}

/-- A value on the lines below its `=`, of which the first may stand below blank lines. -/
theorem pattern?_of_block {p : Pattern} {text : List Char} (hbase : 1 ≤ base) (h : first.Plain)
    (hpattern : (pattern placeable true).Recovers (·.respan .forget) p (first.indented base ++ text)
      tail) :
    (pattern? placeable).Recovers (Option.map (·.respan .forget)) (some p)
      ('\n' :: (first.above ++ (first.indented base ++ text))) tail := by
  intro offset
  obtain ⟨start, hskip⟩ := Cursor.skipBlankLines_above h base (text ++ tail) offset
  have hline := Cursor.continuesPattern_indented h hbase (text ++ tail) start
  obtain ⟨p', stop, hrun, hp⟩ := hpattern start
  refine ⟨some p', stop, ?_, congrArg some hp⟩
  have hrest : '\n' :: (first.above ++ (first.indented base ++ text)) ++ tail =
      '\n' :: (first.above ++ (first.indented base ++ (text ++ tail))) := by simp
  have hspaces (r : List Char) : Cursor.skipSpaces ⟨'\n' :: r, offset⟩ = ⟨'\n' :: r, offset⟩ := rfl
  have hend (r : List Char) : (Cursor.atEnd ⟨'\n' :: r, offset⟩ ||
      decide (Cursor.peek ⟨'\n' :: r, offset⟩ = some '\n')) = true := rfl
  rw [List.append_assoc] at hrun
  rw [hrest, pattern?, Parser.place_bind, hspaces, if_pos (hend _), hskip, if_pos hline, moveTo_bind]
  exact bind_eq_ok.2 ⟨p', _, hrun, rfl⟩

end Parser

/-- A file that holds one entry and ends in a line end. -/
theorem Resource.parse_of_entry {e : Entry} {ch : Char} {text : List Char}
    (hch : Cursor.isBlank ch = false)
    (hentry : Parser.entry.Recovers (·.respan .forget) e (ch :: text) ['\n']) :
    ∃ r e', Resource.parse (String.ofList (ch :: text ++ ['\n'])) = .ok r ∧ r.body = [e'] ∧
      e'.respan .forget = e.respan .forget := by
  have hblock : Parser.block.Recovers (·.respan .forget) ⟨e, false⟩ (ch :: text ++ ['\n']) [] := by
    refine .bind hentry fun e' he' => .lineEnd_bind fun offset => ?_
    exact ⟨⟨e', false⟩, offset, rfl, by simp [Block.respan, he']⟩
  have hblocks : (Parser.gather (fun _ c => !c.atEnd) (fun _ => Parser.block) []).Recovers
      (List.map (·.respan .forget)) [⟨e, false⟩] (ch :: text ++ ['\n']) [] := by
    apply Parser.Recovers.gather (M := fun _ todo more =>
      todo = [] ∧ more = [] ∨ todo = [⟨e, false⟩] ∧ more = ch :: text ++ ['\n'])
    · rintro seen more (⟨-, rfl⟩ | ⟨hnil, -⟩)
      · exact ⟨rfl, fun _ => rfl⟩
      · simp at hnil
    · rintro seen a as more (⟨hcons, -⟩ | ⟨hcons, rfl⟩)
      · simp at hcons
      · obtain ⟨rfl, rfl⟩ := List.cons.inj hcons
        exact ⟨_, [], (List.append_nil _).symm, by simp, fun _ => rfl, hblock,
          fun _ _ => .inl ⟨rfl, rfl⟩⟩
    · exact .inr ⟨rfl, rfl⟩
  obtain ⟨bs, stop, hrun, hbs⟩ := hblocks 0
  obtain ⟨b, rfl, hb⟩ := List.map_eq_singleton_iff.1 hbs
  refine ⟨⟨Block.attach [b], ⟨0, stop⟩⟩, b.entry, ?_, Block.attach_singleton b, ?_⟩
  · have hread : Parser.blocks (.ofString (String.ofList (ch :: text ++ ['\n']))) =
        .ok ([b], ⟨[], stop⟩) := by
      have hstart : Cursor.ofString (String.ofList (ch :: text ++ ['\n'])) =
          ⟨ch :: text ++ ['\n'], 0⟩ := by rw [Cursor.ofString, String.toList_ofList]
      rw [hstart, Parser.blocks, Parser.skipBlankLines_bind, Cursor.skipBlankLines_of_peek rfl hch,
        ← hrun, List.append_nil]
    rw [Resource.parse, hread]
  · exact congrArg Block.entry hb

/-- What differs in spans only from a pattern of one text is one text with the same value. -/
theorem Pattern.exists_text_of_respan {p p' : Pattern} {t : TextElement} (hp : p.elements = [.text t])
    (h : p'.respan .forget = p.respan .forget) :
    ∃ t', p'.elements = [.text t'] ∧ t'.value = t.value := by
  obtain ⟨elements, span⟩ := p
  obtain ⟨elements', span'⟩ := p'
  obtain rfl : elements = [.text t] := hp
  have helements : elements'.map (·.respan .forget) = [.text (t.respan .forget)] := by
    simpa [Pattern.respan, Element.respan] using h
  obtain ⟨e, he, hrespan⟩ := List.map_eq_singleton_iff.1 helements
  cases e with
  | placeable q => cases hrespan
  | text t' =>
    have htext : t'.respan .forget = t.respan .forget := Element.text.inj hrespan
    exact ⟨t', he, congrArg (·.value) htext⟩

/-- A message without attributes and comment says what its value is. -/
theorem says_of_value {name value text : List Char} {p : Pattern} {t : TextElement} (hname : IsName name)
    (hp : p.elements = [.text t]) (ht : t.value.toList = text)
    (hvalue : (Parser.pattern? Parser.placeable).Recovers (Option.map (·.respan .forget)) (some p) value
      ['\n']) :
    Says (name ++ ' ' :: '=' :: (value ++ ['\n'])) name text := by
  obtain ⟨first, tail, rfl, halpha⟩ := exists_head_of_isName hname
  let m : Message := ⟨⟨String.ofList (first :: tail), .empty 0⟩, some p, [], none, .empty 0⟩
  have hid : m.id.Canonical := by simpa [m, Identifier.Canonical] using hname
  have hends : Parser.EndsDefinition ['\n'] := ⟨Parser.endsPattern_end, by simp [Cursor.isBlank]⟩
  have hmessage : Parser.message.Recovers (·.respan .forget) (.message m)
      (first :: (tail ++ ' ' :: '=' :: value)) ['\n'] := by
    simpa [m, Identifier.render] using
      Parser.message_of_value hid rfl (.inl rfl) hvalue (List.forall_mem_nil _) hends
  have hblank : Cursor.isBlank first = false :=
    (opens_of_isAlphanum (by simp [Char.isAlphanum, halpha])).1
  obtain ⟨r, e, hparse, hbody, he⟩ :=
    Resource.parse_of_entry hblank (Parser.entry_of_message halpha hmessage)
  have htext : first :: (tail ++ ' ' :: '=' :: value) ++ ['\n'] =
    first :: tail ++ ' ' :: '=' :: (value ++ ['\n']) := by simp
  rw [htext] at hparse
  -- what was read differs from `m` in spans only
  obtain ⟨⟨id, value', attrs, note, span⟩, rfl⟩ : ∃ m', e = .message m' := by
    cases e with
    | message m' => exact ⟨m', rfl⟩
    | term | comment => cases he
  simp only [Entry.respan, Message.respan, Entry.message.injEq, Message.mk.injEq, m, List.map_nil,
    List.map_eq_nil_iff, Option.map_none, Option.map_eq_none_iff, Option.map_some,
    Option.map_eq_some_iff] at he
  obtain ⟨hid', ⟨p', rfl, hp'⟩, rfl, rfl, -⟩ := he
  obtain ⟨t', ht', hvalue'⟩ := Pattern.exists_text_of_respan hp hp'
  have hname' : id.name = String.ofList (first :: tail) := congrArg Identifier.name hid'
  exact ⟨r, _, p', t', hparse, hbody, by simp [hname'], rfl, ht', by rw [hvalue', ht], rfl, rfl⟩

/-- A message whose value goes over several lines says what stands on them, less the indentation that
all of them share. It says the same if the value starts on the line of the `=`. -/
theorem says_value {name : List Char} (hname : IsName name) (hbase : 1 ≤ base)
    (h : ∀ l ∈ first :: rest, l.Plain) :
    ((∃ l ∈ first :: rest, l.depth = 0) →
      Says (name ++ " =\n".toList ++ (first :: rest).flatMap (·.render base)) name
        (TextLine.value first rest)) ∧
    (first.depth = 0 → (∃ l ∈ rest, l.depth = 0) →
      Says (name ++ " = ".toList ++ first.text ++ '\n' :: rest.flatMap (·.render base)) name
        (TextLine.value first rest)) := by
  obtain ⟨hfirst, hrest⟩ := List.forall_mem_cons.1 h
  have hadded := TextLine.addedText_append base rest
  refine ⟨fun hmin => ?_, fun hdepth hmin => ?_⟩
  · obtain ⟨t, helements, ht⟩ := TextLine.elements_block base h hmin
    have hpieces := Parser.pieces_recovers_block Parser.placeable hbase hfirst hrest
    have hpattern := Parser.pattern_of_pieces true (.empty 0) hpieces
    have hread := says_of_value hname helements ht (Parser.pattern?_of_block hbase hfirst hpattern)
    have hline : first.render base = first.above ++ first.indented base ++ ['\n'] := rfl
    simpa [hline, hadded] using hread
  · obtain ⟨t, helements, ht⟩ := TextLine.elements_line base h hdepth hmin
    have hpieces := Parser.pieces_recovers_line Parser.placeable hbase hfirst hrest
    have hpattern := Parser.pattern_of_pieces false (.empty 0) hpieces
    obtain ⟨ch, text, htext, hblank, -⟩ := hfirst.exists_head
    have hhead : ∃ ch tail, first.text ++ TextLine.addedText base rest = ch :: tail ∧ ch ≠ ' ' ∧
        ch ≠ '\n' := ⟨ch, _, by rw [htext, List.cons_append], by simp_all [Cursor.isBlank]⟩
    have hread := says_of_value hname helements ht (Parser.pattern?_of_line hhead hpattern)
    simpa [hadded] using hread

theorem says_value_note :
    Says "note =\n  One.\n\n   \n    Two.\n  Three. \n".toList "note".toList
        "One.\n\n\n  Two.\nThree.".toList ∧
      Says "note = One.\n\n   \n    Two.\n  Three. \n".toList "note".toList
        "One.\n\n\n  Two.\nThree.".toList := by
  let first : TextLine := ⟨[], 0, "One.".toList⟩
  let rest : List TextLine := [⟨[0, 3], 2, "Two.".toList⟩, ⟨[], 0, "Three. ".toList⟩]
  have hplain : ∀ l ∈ first :: rest, l.Plain := by
    simp only [first, rest, List.forall_mem_cons]
    refine ⟨⟨by simp, by simp⟩, ⟨by simp, by simp⟩, ⟨by simp, by simp⟩, List.forall_mem_nil _⟩
  have hvalue : TextLine.value first rest = "One.\n\n\n  Two.\nThree.".toList := by decide
  have hread := @says_value 2 first rest "note".toList (by simp [IsName, isNameChar]) (by decide) hplain
  rw [hvalue] at hread
  exact ⟨hread.1 ⟨first, by simp, rfl⟩, hread.2 rfl ⟨_, List.mem_cons_of_mem _ List.mem_cons_self, rfl⟩⟩

end MessageLint
