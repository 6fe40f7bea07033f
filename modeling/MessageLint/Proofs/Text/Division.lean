-- SUMMARY: Runs and markup divide every value between them, and a run by itself is one run.
import MessageLint.Proofs.Cursor
import MessageLint.Proofs.Text.Markup

/-!
# Values in parts

Whatever characters a value holds, it is a row of parts: runs of text, and regions of markup that begin
at a `<` and reach as far as scanning goes from there. `Divides` says which rows these are, without the
two places that the scanner keeps. Parts are rows of characters, so all places between them are ends of
characters (`spans`). A `<` in a run opens no markup, with what follows the run or without it, so nothing
in a run divides it when it is scanned by itself.
-/

namespace MessageLint.Markup

-- ---------------------------------------------------------------------------
-- Parts
-- ---------------------------------------------------------------------------

/-- `region` begins at a `<` that opens markup, and ends where this markup does; `rest` follows. -/
def IsRegion (region rest : List Char) : Prop :=
  ∃ tail, region = '<' :: tail ∧ behindMarkup? (tail ++ rest) = some rest

inductive Part where
  | run (text : List Char)
  | region (text : List Char)

namespace Part

def chars : Part → List Char
  | .run text | .region text => text

def run? : Part → Option (List Char)
  | .run text => some text
  | .region _ => none

end Part

/-- The value is the row of these parts. A run is not empty, has no `<` that opens markup, and is not
followed by another run. -/
inductive Divides : List Part → List Char → Prop
  | nil : Divides [] []
  | run {text rest : List Char} {parts : List Part} : text ≠ [] → Plain text rest →
      (∀ next ∈ parts.head?, next.run? = none) → Divides parts rest →
        Divides (.run text :: parts) (text ++ rest)
  | region {text rest : List Char} {parts : List Part} : IsRegion text rest → Divides parts rest →
      Divides (.region text :: parts) (text ++ rest)

/-- Where parts stand that follow one another from `offset` on. -/
def spans : Nat → List Part → List Span
  | _, [] => []
  | offset, p :: parts =>
    ⟨offset, offset + byteLength p.chars⟩ :: spans (offset + byteLength p.chars) parts

variable {text rest run value : List Char} {parts : List Part}

-- ---------------------------------------------------------------------------
-- What is divided
-- ---------------------------------------------------------------------------

theorem Divides.flatMap_chars (h : Divides parts value) : parts.flatMap Part.chars = value := by
  induction h with
  | nil => rfl
  | run _ _ _ _ ih | region _ _ ih => rw [List.flatMap_cons, ih]; rfl

/-- Every part of a row is cut out of the text of the row by its span. -/
theorem slice?_spans (before : List Char) (parts : List Part) :
    (spans (byteLength before) parts).map (·.slice? (before ++ parts.flatMap Part.chars)) =
      parts.map fun p => some p.chars := by
  induction parts generalizing before with
  | nil => rfl
  | cons p parts ih =>
    have hfirst := Span.slice?_append before p.chars (parts.flatMap Part.chars)
    have hrest := ih (before ++ p.chars)
    rw [byteLength_append] at hrest
    rw [List.append_assoc] at hfirst hrest
    rw [spans, List.map_cons, List.flatMap_cons, hfirst, hrest, List.map_cons]

/-- A run of a divided value has no `<` that opens markup, and is not empty. -/
theorem Divides.plain (h : Divides parts value) (hrun : run ∈ parts.filterMap Part.run?) :
    run ≠ [] ∧ Plain run [] := by
  induction h with
  | nil => cases hrun
  | @run text rest parts hne hplain _ _ ih =>
    rcases List.mem_cons.1 hrun with rfl | hrun
    · exact ⟨hne, hplain.alone⟩
    · exact ih hrun
  | region _ _ ih => exact ih hrun

/-- Nothing in plain text divides it. -/
theorem textRuns_eq_singleton (h : Plain text []) (hne : text ≠ []) : textRuns text = [text] := by
  rw [textRuns_plain h, finished_reverse]
  simpa using hne

-- ---------------------------------------------------------------------------
-- How a value is divided
-- ---------------------------------------------------------------------------

/-- A run that is being read, as a part in front of others. -/
theorem Divides.finished {read : List Char} (hplain : Plain read.reverse rest)
    (hnext : ∀ next ∈ parts.head?, next.run? = none) (h : Divides parts rest) :
    ∃ parts', Divides parts' (read.reverse ++ rest) ∧
      parts'.filterMap Part.run? = Markup.finished read ++ parts.filterMap Part.run? := by
  cases read with
  | nil => exact ⟨parts, h, rfl⟩
  | cons c read =>
    exact ⟨.run (c :: read).reverse :: parts, .run (by simp) hplain hnext h, rfl⟩

/-- What is still to come is divided into the runs that scanning answers. -/
theorem exists_divides_runsFrom {read : List Char} (hplain : Plain read.reverse text) :
    ∃ parts, Divides parts (read.reverse ++ text) ∧
      parts.filterMap Part.run? = runsFrom read text := by
  fun_induction runsFrom read text with
  | case1 read => simpa using Divides.finished hplain (by simp) .nil
  | case2 read tail rest hbehind _ ih =>
    obtain ⟨parts, hparts, hruns⟩ := ih (plain_of_notMem List.not_mem_nil rest)
    obtain ⟨inside, rfl⟩ := behindMarkup?_suffix hbehind
    have hregion : Divides (.region ('<' :: inside) :: parts) ('<' :: (inside ++ rest)) :=
      .region ⟨inside, rfl, hbehind⟩ hparts
    obtain ⟨parts', hparts', hruns'⟩ := hregion.finished hplain (by simp [Part.run?])
    exact ⟨parts', hparts', by rw [hruns', ← hruns]; rfl⟩
  | case3 read tail hbehind ih =>
    simpa using ih (by simpa using plain_concat hplain fun _ => hbehind)
  | case4 read c tail hc ih =>
    simpa using ih (by simpa using plain_concat hplain fun h => (hc h).elim)

theorem exists_divides_textRuns (value : List Char) :
    ∃ parts, Divides parts value ∧ parts.filterMap Part.run? = textRuns value := by
  have hplain : Plain [].reverse value := plain_of_notMem List.not_mem_nil value
  exact exists_divides_runsFrom hplain

/-- Every value is divided into runs and regions of markup, the runs being those that scanning answers.
Each part is a stretch of the value between ends of characters. Scanned by itself, a run is one run. -/
theorem textRuns_divide (value : List Char) :
    (∃ parts, Divides parts value ∧ parts.filterMap Part.run? = textRuns value ∧
      (spans 0 parts).map (·.slice? value) = parts.map fun p => some p.chars) ∧
    ∀ run ∈ textRuns value, textRuns run = [run] := by
  obtain ⟨parts, hparts, hruns⟩ := exists_divides_textRuns value
  refine ⟨⟨parts, hparts, hruns, ?_⟩, fun run hrun => ?_⟩
  · rw [← hparts.flatMap_chars]
    exact slice?_spans [] parts
  · rw [← hruns] at hrun
    obtain ⟨hne, hplain⟩ := hparts.plain hrun
    exact textRuns_eq_singleton hplain hne

end MessageLint.Markup
