-- SUMMARY: Sources inside longer sources: when a parser does the same in both.
import MessageLint.Proofs.Basic
import MessageLint.Proofs.Runs
import MessageLint.Proofs.Respan

/-!
# Frames

A frame puts text in front of a source and behind it. `p.Carries` compares a run of a parser on the
source with the run at the same place inside the frame. Text in front only moves spans. Text behind
may change what the parser sees when it looks ahead, so what is left of the source must still hold
something to stop at. Such a condition is asked for behind the run (`H`) and handed back for the place
in front of it (`G`), so that the rules below compose from the last parser of a sequence to the first.
-/

namespace MessageLint

-- ---------------------------------------------------------------------------
-- What is left of a source
-- ---------------------------------------------------------------------------

/-- A character that is no blank is left. -/
def Inked (rest : List Char) : Prop := ∃ ch ∈ rest, Cursor.isBlank ch = false

/-- The rest has a character that is no blank, or ends a line. -/
def Lined (rest : List Char) : Prop := Inked rest ∨ rest.getLast? = some '\n'

/-- The rest ends a line and is more than that line end. -/
def Spaced (rest : List Char) : Prop := rest.getLast? = some '\n' ∧ rest ≠ ['\n']

/-- Nothing is asked of the rest. -/
def Anything (_ : List Char) : Prop := True

/-- A condition under which a parser may look ahead: it is kept by going back in the source. -/
structure Guard (G : List Char → Prop) : Prop where
  lined : ∀ {rest}, G rest → Lined rest
  append : ∀ {rest} text, G rest → G (text ++ rest)

theorem Inked.lined {rest : List Char} (h : Inked rest) : Lined rest := .inl h

theorem Lined.ne_nil {rest : List Char} (h : Lined rest) : rest ≠ [] := by
  rintro rfl
  obtain ⟨ch, hmem, -⟩ | hlast := h
  · simp at hmem
  · simp at hlast

theorem Inked.dropWhile_isBlank {rest : List Char} (h : Inked rest) :
    rest.dropWhile Cursor.isBlank ≠ [] := by
  obtain ⟨ch, hmem, hch⟩ := h
  intro hnil
  have := List.dropWhile_eq_nil_iff.1 hnil ch hmem
  rw [hch] at this
  exact absurd this (by decide)

theorem Inked.guard : Guard Inked where
  lined := Inked.lined
  append text h := by
    obtain ⟨ch, hmem, hch⟩ := h
    exact ⟨ch, List.mem_append_right text hmem, hch⟩

/-- Behind a blank, a rest is lined unless the blank ended the last line. -/
theorem Lined.of_cons {ch : Char} {rest : List Char} (h : Lined (ch :: rest))
    (hch : Cursor.isBlank ch) : Lined rest ∨ rest = [] ∧ ch = '\n' := by
  obtain ⟨k, hmem, hk⟩ | hlast := h
  · obtain rfl | hmem := List.mem_cons.1 hmem
    · rw [hch] at hk
      exact absurd hk (by decide)
    · exact .inl (.inl ⟨k, hmem, hk⟩)
  · cases rest with
    | nil => exact .inr ⟨rfl, by simpa using hlast⟩
    | cons k rest => exact .inl (.inr (by simpa using hlast))

/-- Skipping spaces does not leave a line without its end. -/
theorem Lined.dropWhile_isSpace {rest : List Char} (h : Lined rest) :
    Lined (rest.dropWhile Cursor.isSpace) := by
  induction rest with
  | nil => exact h
  | cons ch rest ih =>
    by_cases hch : Cursor.isSpace ch
    · obtain rfl := Cursor.eq_space_of_isSpace hch
      rw [List.dropWhile_cons_of_pos hch]
      exact ih ((h.of_cons rfl).resolve_right fun ⟨_, h⟩ => absurd h (by decide))
    · rwa [List.dropWhile_cons_of_neg hch]

theorem Lined.guard : Guard Lined where
  lined := id
  append text h := by
    refine h.imp (Inked.guard.append text) fun hlast => ?_
    rw [List.getLast?_append, hlast]
    rfl

theorem Spaced.guard : Guard Spaced where
  lined h := .inr h.1
  append {rest} text h := by
    have hne : rest ≠ [] := by
      rintro rfl
      simp [Spaced] at h
    refine ⟨by rw [List.getLast?_append, h.1]; rfl, fun heq => ?_⟩
    cases text with
    | nil => exact h.2 heq
    | cons ch text => simp [hne] at heq

theorem Guard.ne_nil {G : List Char → Prop} (hG : Guard G) {rest : List Char} (h : G rest) :
    rest ≠ [] :=
  (hG.lined h).ne_nil

-- ---------------------------------------------------------------------------
-- Frames
-- ---------------------------------------------------------------------------

/-- What stands around a source: `before` bytes in front of it, and behind it a text that starts
like an entry. -/
structure Frame where
  before : Nat
  tail : List Char
  tail_head : ∀ ch, tail.head? = some ch → ch.isAlpha ∨ ch = '-' ∨ ch = '#'

/-- The same place of the source inside the frame. -/
def Cursor.inside (w : Frame) (c : Cursor) : Cursor := ⟨c.rest ++ w.tail, c.offset + w.before⟩

namespace Frame

/-- A span of the source inside the frame. -/
def move (w : Frame) : Span → Span := Span.shift w.before

theorem move_extend (w : Frame) (s t : Span) : w.move (s.extend t) = (w.move s).extend (w.move t) :=
  Span.shift_extend w.before s t

def moveError (w : Frame) (e : SyntaxError) : SyntaxError := ⟨e.cause, w.move e.span⟩

/-- Nothing stands behind the source, or what is left of it satisfies `G`. -/
def Allows (w : Frame) (G : List Char → Prop) (c : Cursor) : Prop := w.tail = [] ∨ G c.rest

variable {w : Frame} {c d : Cursor} {G : List Char → Prop} {ch : Char} {p : Char → Bool}

theorem Allows.ne_nil (hG : Guard G) (h : w.Allows G c) : w.tail = [] ∨ c.rest ≠ [] :=
  h.imp_right hG.ne_nil

theorem Allows.of_reads (hG : Guard G) {text : List Char} (hreads : c.Reads text d)
    (h : w.Allows G d) : w.Allows G c := by
  refine h.imp_right fun hd => ?_
  rw [hreads.rest]
  exact hG.append text hd

theorem tail_head_not_blank (h : w.tail.head? = some ch) : Cursor.isBlank ch = false := by
  obtain halpha | rfl | rfl := w.tail_head ch h
  · refine Bool.eq_false_iff.2 fun hblank => ?_
    obtain rfl | rfl : ch = ' ' ∨ ch = '\n' := by simpa [Cursor.isBlank] using hblank
    · exact absurd halpha (by decide)
    · exact absurd halpha (by decide)
  · rfl
  · rfl

end Frame

namespace Cursor

variable {w : Frame} {c d : Cursor} {G : List Char → Prop} {ch : Char} {p : Char → Bool}

@[simp] theorem rest_inside : (c.inside w).rest = c.rest ++ w.tail := rfl

@[simp] theorem offset_inside : (c.inside w).offset = c.offset + w.before := rfl

theorem inside_of_tail (h : w.tail = []) : c.inside w = ⟨c.rest, c.offset + w.before⟩ := by
  rw [inside, h, List.append_nil]

theorem here_inside (h : w.tail = []) : (c.inside w).here = w.move c.here := by
  obtain ⟨rest, offset⟩ := c
  cases rest with
  | nil => simp [here, atEnd, inside, h, Frame.move, Span.shift]
  | cons ch rest => simp [here, atEnd, inside, Frame.move, Span.shift, Nat.add_right_comm]

theorem peek_inside (h : w.tail = [] ∨ c.rest ≠ []) : (c.inside w).peek = c.peek := by
  obtain h | h := h
  · rw [inside_of_tail h]; rfl
  · obtain ⟨ch, r, hr⟩ := List.exists_cons_of_ne_nil h
    simp [peek, hr]

theorem peek_inside_of_some (h : c.peek = some ch) : (c.inside w).peek = some ch := by
  obtain ⟨r, hr⟩ := peek_eq_some.1 h
  simp [peek, hr]

theorem atEnd_inside (h : w.tail = [] ∨ c.rest ≠ []) : (c.inside w).atEnd = c.atEnd := by
  obtain h | h := h
  · rw [inside_of_tail h]; rfl
  · obtain ⟨ch, r, hr⟩ := List.exists_cons_of_ne_nil h
    simp [atEnd, hr]

theorem next_inside (h : w.tail = [] ∨ c.rest ≠ []) : (c.inside w).next = c.next.inside w := by
  obtain ⟨rest, offset⟩ := c
  cases rest with
  | nil =>
    have h : w.tail = [] := by simpa using h
    simp [next, inside, h]
  | cons ch rest => simp [next, inside, Nat.add_right_comm]

theorem advance_inside (k : Nat) (h : w.tail = [] ∨ (c.advance k).rest ≠ []) :
    (c.inside w).advance k = (c.advance k).inside w := by
  induction k generalizing c with
  | zero => rfl
  | succ k ih =>
    have hne : w.tail = [] ∨ c.rest ≠ [] := by
      refine h.imp_right fun hrest hnil => hrest ?_
      obtain ⟨text, hreads⟩ := c.reads_advance (k + 1)
      exact hreads.rest_eq_nil hnil
    rw [advance_succ, next_inside hne, ih h, advance_succ]

theorem takeWhile_inside (h : w.tail = [] ∨ (c.skipWhile p).rest ≠ []) :
    (c.inside w).rest.takeWhile p = c.rest.takeWhile p := by
  obtain h | h := h
  · rw [inside_of_tail h]
  · exact (takeWhile_append_of_dropWhile h).1

theorem skipWhile_inside (h : w.tail = [] ∨ (c.skipWhile p).rest ≠ []) :
    (c.inside w).skipWhile p = (c.skipWhile p).inside w := by
  simp only [skipWhile, takeWhile_inside h]
  obtain h | h := h
  · simp [inside, h, Nat.add_right_comm]
  · simp [inside, (takeWhile_append_of_dropWhile h).2, Nat.add_right_comm]

/-- Where only characters of `p` are left, the skipping goes up to the text behind. -/
theorem peek_skipWhile_inside (h : (c.skipWhile p).rest = [])
    (htail : ∀ ch, w.tail.head? = some ch → p ch = false) :
    ((c.inside w).skipWhile p).peek = w.tail.head? := by
  have h : c.rest.dropWhile p = [] := h
  have hall : ∀ ch ∈ c.rest, p ch = true := List.dropWhile_eq_nil_iff.1 h
  simp only [peek, skipWhile, rest_inside, List.dropWhile_append_of_pos hall]
  cases htl : w.tail with
  | nil => rfl
  | cons ch tail => rw [List.dropWhile_cons_of_neg (by simp [htail ch (by simp [htl])])]

/-- From a place on a line that starts at `lineStart`, blank lines end at the same place inside the
frame, unless they end at the end of the source in the middle of a line. -/
private theorem skipBlankLinesFrom_inside (lineStart : Cursor) (lines : Nat) (r : List Char)
    (offset : Nat) (h : w.tail = [] ∨ Lined r ∨ r = [] ∧ lineStart = ⟨[], offset⟩) :
    skipBlankLinesFrom (lineStart.inside w) lines (r ++ w.tail) (offset + w.before) =
      ((skipBlankLinesFrom lineStart lines r offset).1,
        (skipBlankLinesFrom lineStart lines r offset).2.inside w) := by
  fun_induction skipBlankLinesFrom lineStart lines r offset with
  | case1 lineStart lines offset =>
    obtain htail | hlined | ⟨-, rfl⟩ := h
    · simp [htail, skipBlankLinesFrom, inside]
    · exact absurd rfl hlined.ne_nil
    · cases htail : w.tail with
      | nil => simp [htail, skipBlankLinesFrom, inside]
      | cons ch tail =>
        have hhead : w.tail.head? = some ch := by simp [htail]
        exact skipBlankLinesFrom_cons _ _ _ _ (w.tail_head_not_blank hhead)
  | case2 lineStart lines r offset ih =>
    rw [List.cons_append, skipBlankLinesFrom, Nat.add_right_comm]
    refine ih (h.imp_right fun h => .inl ?_)
    obtain hlined | ⟨hnil, -⟩ := h
    · exact (hlined.of_cons rfl).resolve_right fun h => absurd h.2 (by decide)
    · simp at hnil
  | case3 lineStart lines r offset ih =>
    rw [List.cons_append, skipBlankLinesFrom, Nat.add_right_comm]
    refine ih (h.imp_right fun h => ?_)
    obtain hlined | ⟨hnil, -⟩ := h
    · exact (hlined.of_cons rfl).imp_right fun h => ⟨h.1, by rw [h.1]⟩
    · simp at hnil
  | case4 lineStart lines r offset hnil hspace hnewline =>
    obtain ⟨ch, r, rfl, hch⟩ := exists_head_not_blank hnil hspace hnewline
    exact skipBlankLinesFrom_cons _ _ _ _ hch

theorem skipBlankLines_inside (h : w.tail = [] ∨ Lined c.rest ∨ c.rest = []) :
    (c.inside w).skipBlankLines = (c.skipBlankLines.1, c.skipBlankLines.2.inside w) :=
  skipBlankLinesFrom_inside c 0 c.rest c.offset
    (h.imp_right (Or.imp_right fun hnil => ⟨hnil, by rw [← hnil]⟩))

theorem skipBlank_inside (h : w.Allows Inked c) :
    (c.inside w).skipBlank = c.skipBlank.inside w ∧
      (c.inside w).skipBlank.peek = c.skipBlank.peek := by
  have hne : w.tail = [] ∨ c.skipBlank.rest ≠ [] := h.imp_right Inked.dropWhile_isBlank
  have hskip : (c.inside w).skipBlank = c.skipBlank.inside w := skipWhile_inside hne
  exact ⟨hskip, by rw [hskip, peek_inside hne]⟩

/-- Whether a pattern goes on can be seen on a line that is not blank; a text behind the source does
not continue one. -/
theorem continuesPattern_inside (h : w.tail = [] ∨ c.rest = [] ∨ Lined c.rest) :
    (c.inside w).continuesPattern = c.continuesPattern := by
  have hsame : w.tail = [] ∨ c.skipSpaces.rest ≠ [] →
      (c.inside w).continuesPattern = c.continuesPattern := by
    intro hne
    have hskip : (c.inside w).skipSpaces = c.skipSpaces.inside w := skipWhile_inside hne
    simp only [continuesPattern, hskip, peek_inside hne, offset_inside, Nat.add_lt_add_iff_right]
  obtain htail | hnil | hlined := h
  · exact hsame (.inl htail)
  · cases htail : w.tail with
    | nil => exact hsame (.inl htail)
    | cons ch tail =>
      have hhead : w.tail.head? = some ch := by simp [htail]
      have hspace : isSpace ch = false := by
        have := w.tail_head_not_blank hhead
        simp_all [isBlank, isSpace]
      have hskip : (c.inside w).skipSpaces = c.inside w := by
        simp [skipSpaces, skipWhile, inside, hnil, htail, hspace]
      have hpeek : (c.inside w).peek = some ch := by simp [peek, hnil, htail]
      have hbrace : ch ≠ '\x7b' := by
        rintro rfl
        exact absurd (w.tail_head _ hhead) (by decide)
      have hempty : c.continuesPattern = false := by
        simp [continuesPattern, skipSpaces, skipWhile, peek, hnil]
      rw [hempty]
      unfold continuesPattern
      simp only [hskip, hpeek, Nat.lt_irrefl, decide_false, Bool.false_and]
  · exact hsame (.inr hlined.dropWhile_isSpace.ne_nil)

/-- Blank lines end at the end of the source or before something that is no blank. -/
theorem skipBlankLines_inked (c : Cursor) :
    c.skipBlankLines.2.rest = [] ∨ Inked c.skipBlankLines.2.rest := by
  obtain ⟨text, hends⟩ := c.skipBlankLines_ends
  refine hends.stop.imp_right fun ⟨_, ch, hpeek, hnewline⟩ => ⟨ch, ?_, ?_⟩
  · obtain ⟨r, hr⟩ := peek_eq_some.1 hpeek
    rw [(reads_skipSpaces _).rest, hr]
    simp
  · have hspace : isSpace ch = false := peek_skipWhile hpeek
    simp_all [isBlank, isSpace]

end Cursor

-- ---------------------------------------------------------------------------
-- Runs that agree
-- ---------------------------------------------------------------------------

/-- What the outcome of a run from `c` says of the outcome `r'` of the run inside the frame: what was
read is the same up to `f`. Where text stands behind the source, faults say nothing, and success only
if what is left behind it satisfies `H`; then `G` holds in front of it. -/
def Frame.Agree (w : Frame) (G H : List Char → Prop) (f : α → β) (c : Cursor)
    (r : Except SyntaxError (α × Cursor)) (r' : Except SyntaxError (β × Cursor)) : Prop :=
  match r with
  | .ok (a, d) => w.Allows H d → w.Allows G c ∧ r' = .ok (f a, d.inside w)
  | .error e => w.tail = [] → r' = .error (w.moveError e)

/-- Inside the frame `p'` does what `p` does on the source alone. -/
def Parser.Carries (w : Frame) (G H : List Char → Prop) (f : α → β) (p : Parser α)
    (p' : Parser β) : Prop :=
  ∀ c, w.Agree G H f c (p c) (p' (c.inside w))

namespace Frame.Agree

variable {w : Frame} {G E H K M : List Char → Prop} {f : α → β} {g : γ → δ} {c : Cursor}

/-- A step that agrees, in front of runs that do. -/
theorem before {d : Cursor} {r : Except SyntaxError (α × Cursor)}
    {r' r'' : Except SyntaxError (β × Cursor)}
    (hstep : w.Allows M d → w.Allows G c ∧ r'' = r') (h : w.Agree M H f d r r') :
    w.Agree G H f c r r'' := by
  cases r with
  | ok ad =>
    intro hend
    obtain ⟨hd, hr⟩ := h hend
    exact (hstep hd).imp_right fun heq => heq.trans hr
  | error e => exact fun htail => (hstep (.inl htail)).2.trans (h htail)

/-- What the run inside the frame is may be found out with `G` at hand. -/
theorem congr {r : Except SyntaxError (α × Cursor)} {r' r'' : Except SyntaxError (β × Cursor)}
    (heq : w.Allows G c → r'' = r') (h : w.Agree G H f c r r') : w.Agree G H f c r r'' :=
  h.before fun hc => ⟨hc, heq hc⟩

theorem mono {r : Except SyntaxError (α × Cursor)} {r' : Except SyntaxError (β × Cursor)}
    (hG : ∀ rest, G rest → E rest) (hH : ∀ rest, K rest → H rest) (h : w.Agree G H f c r r') :
    w.Agree E K f c r r' := by
  cases r with
  | ok ad => exact fun hd => (h (hd.imp_right (hH _))).imp_left fun hc => hc.imp_right (hG _)
  | error e => exact h

theorem bind {p : Parser α} {q : α → Parser γ} {p' : Parser β} {q' : β → Parser δ}
    (hp : w.Agree G M f c (p c) (p' (c.inside w)))
    (hq : ∀ a d, p c = .ok (a, d) → w.Agree M H g d (q a d) (q' (f a) (d.inside w))) :
    w.Agree G H g c ((p >>= q) c) ((p' >>= q') (c.inside w)) := by
  change w.Agree G H g c (Parser.bind p q c) (Parser.bind p' q' (c.inside w))
  unfold Parser.bind
  cases hpc : p c with
  | error e =>
    rw [hpc] at hp
    intro htail
    rw [hp htail]
  | ok ad =>
    obtain ⟨a, d⟩ := ad
    rw [hpc] at hp
    have hq := hq a d hpc
    change w.Agree G H g c (q a d) _
    cases hqd : q a d with
    | error e =>
      rw [hqd] at hq
      intro htail
      rw [(hp (.inl htail)).2]
      exact hq htail
    | ok be =>
      rw [hqd] at hq
      intro he
      obtain ⟨hd, hq⟩ := hq he
      obtain ⟨hc, hp⟩ := hp hd
      exact ⟨hc, by rw [hp]; exact hq⟩

end Frame.Agree

namespace Parser.Carries

variable {w : Frame} {G E H K M : List Char → Prop} {f : α → β} {g : γ → δ} {p : Parser α}
  {p' : Parser β} {q : α → Parser γ} {q' : β → Parser δ}

theorem agree (h : p.Carries w G H f p') (c : Cursor) : w.Agree G H f c (p c) (p' (c.inside w)) :=
  h c

theorem mono (hG : ∀ rest, G rest → E rest) (hH : ∀ rest, K rest → H rest)
    (h : p.Carries w G H f p') : p.Carries w E K f p' :=
  fun c => (h c).mono hG hH

/-- With nothing behind the source, the conditions say nothing. -/
theorem of_tail (htail : w.tail = []) (h : p.Carries w G H f p') : p.Carries w E K f p' := by
  intro c
  have hc := h c
  unfold Frame.Agree at hc ⊢
  split
  · next heq =>
    rw [heq] at hc
    exact fun _ => ⟨.inl htail, (hc (.inl htail)).2⟩
  · next heq =>
    rw [heq] at hc
    exact hc

theorem ite {P : Prop} [Decidable P] {p₂ : Parser α} {p₂' : Parser β}
    (hp : P → p.Carries w G H f p') (hp₂ : ¬P → p₂.Carries w G H f p₂') :
    Parser.Carries w G H f (if P then p else p₂) (if P then p' else p₂') := by
  split
  · exact hp ‹_›
  · exact hp₂ ‹_›

-- ---------------------------------------------------------------------------
-- Sequencing
-- ---------------------------------------------------------------------------

theorem bind (hp : p.Carries w G M f p') (hq : ∀ a, (q a).Carries w M H g (q' (f a))) :
    (p >>= q).Carries w G H g (p' >>= q') :=
  fun c => (hp c).bind fun a d _ => hq a d

theorem pure (a : α) (h : f a = b) : Parser.Carries w G G f (Pure.pure a) (Pure.pure b) :=
  fun _ hd => ⟨hd, by rw [← h]; rfl⟩

theorem map {k : α → γ} {k' : β → δ} (hp : p.Carries w G H f p') (hk : ∀ a, g (k a) = k' (f a)) :
    (k <$> p).Carries w G H g (k' <$> p') :=
  hp.bind fun a => .pure (k a) (hk a)

theorem fail (cause : SyntaxCause) : Parser.Carries w G H f (Parser.fail cause) (Parser.fail cause) :=
  fun c htail => by
    rw [Parser.fail_apply, Cursor.here_inside htail]
    rfl

theorem failAt {span span' : Span} (cause : SyntaxCause) (h : w.move span = span') :
    Parser.Carries w G H f (Parser.failAt span cause) (Parser.failAt span' cause) :=
  fun _ _ => by
    rw [← h]
    rfl

theorem skipBlankLines (hG : Guard G) :
    Parser.Carries w G G id Parser.skipBlankLines Parser.skipBlankLines := by
  intro c hd
  obtain ⟨text, hends⟩ := c.skipBlankLines_ends
  have hc := hd.of_reads hG hends.reads
  refine ⟨hc, ?_⟩
  rw [Parser.skipBlankLines, Cursor.skipBlankLines_inside (hc.imp_right fun h => .inl (hG.lined h))]
  rfl

theorem skipBlankBefore (t : Char) :
    Parser.Carries w Inked Inked id (Parser.skipBlankBefore t) (Parser.skipBlankBefore t) := by
  intro c
  unfold Parser.skipBlankBefore
  apply Frame.Agree.congr
  · intro hc
    rw [(Cursor.skipBlank_inside hc).2, (Cursor.skipBlank_inside hc).1]
  · split
    · exact fun hd => ⟨hd.of_reads Inked.guard c.reads_skipBlank, rfl⟩
    · exact fun hd => ⟨hd, rfl⟩

theorem place_bind {k : Cursor → Parser α} {k' : Cursor → Parser β}
    (h : ∀ start, (k start).Carries w G H f (k' (start.inside w))) :
    (Parser.place >>= k).Carries w G H f (Parser.place >>= k') :=
  fun c => h c c

theorem spanFrom (start : Cursor) :
    Parser.Carries w G G w.move (Parser.spanFrom start) (Parser.spanFrom (start.inside w)) :=
  fun _ hd => ⟨hd, rfl⟩

-- ---------------------------------------------------------------------------
-- Characters
-- ---------------------------------------------------------------------------

theorem peek_bind (hG : Guard G) {k : Option Char → Parser α} {k' : Option Char → Parser β}
    (h : ∀ next, (k next).Carries w G H f (k' next)) :
    (Parser.peek >>= k).Carries w G H f (Parser.peek >>= k') := by
  intro c
  refine .congr (fun hc => ?_) (h c.peek c)
  rw [Parser.peek_bind, Cursor.peek_inside (hc.ne_nil hG)]

theorem skip (hG : Guard G) (k : Nat) : Parser.Carries w G G id (Parser.skip k) (Parser.skip k) := by
  intro c hd
  obtain ⟨text, hreads⟩ := c.reads_advance k
  refine ⟨hd.of_reads hG hreads, ?_⟩
  rw [Parser.skip, Cursor.advance_inside k (hd.ne_nil hG)]

/-- A character that is no blank lies behind the place where it is asked for. -/
theorem token {t : Char} (ht : Cursor.isBlank t = false) :
    Parser.Carries w Inked Anything id (Parser.token t) (Parser.token t) := by
  intro c
  unfold Parser.token
  split
  · next hpeek =>
    intro _
    obtain ⟨r, hr⟩ := Cursor.peek_eq_some.1 hpeek
    refine ⟨.inr ⟨t, by simp [hr], ht⟩, ?_⟩
    rw [if_pos (Cursor.peek_inside_of_some hpeek), Cursor.next_inside (.inr (by simp [hr]))]
  · next hpeek =>
    intro htail
    rw [Cursor.peek_inside (.inl htail), if_neg hpeek, Cursor.here_inside htail]
    rfl

theorem token_bind {t : Char} {k : Unit → Parser α} {k' : Unit → Parser β}
    (ht : Cursor.isBlank t = false) (h : ∀ u, (k u).Carries w M H f (k' u)) :
    (Parser.token t >>= k).Carries w Inked H f (Parser.token t >>= k') :=
  ((token ht).mono (fun _ h => h) fun _ _ => trivial).bind h

theorem lineEnd (hG : Guard G) : Parser.Carries w G G id Parser.lineEnd Parser.lineEnd := by
  intro c
  unfold Parser.lineEnd
  split
  · next hend =>
    intro hd
    obtain ⟨text, hreads⟩ := c.reads_next
    have hc := hd.of_reads hG hreads
    have hne := hc.ne_nil hG
    rw [Cursor.atEnd_inside hne, Cursor.peek_inside hne, if_pos hend, Cursor.next_inside hne]
    exact ⟨hc, rfl⟩
  · next hend =>
    intro htail
    rw [Cursor.atEnd_inside (.inl htail), Cursor.peek_inside (.inl htail), if_neg hend,
      Cursor.here_inside htail]
    rfl

theorem takeWhile (hG : Guard G) (p : Char → Bool) :
    Parser.Carries w G G id (Parser.takeWhile p) (Parser.takeWhile p) := by
  intro c hd
  have hne := hd.ne_nil hG
  refine ⟨hd.of_reads hG (c.reads_skipWhile p), ?_⟩
  rw [Parser.takeWhile, Cursor.takeWhile_inside hne, Cursor.skipWhile_inside hne]
  rfl

theorem skipSpaces (hG : Guard G) :
    Parser.Carries w G G id Parser.skipSpaces Parser.skipSpaces := by
  intro c hd
  refine ⟨hd.of_reads hG c.reads_skipSpaces, ?_⟩
  rw [Parser.skipSpaces, Cursor.skipSpaces, Cursor.skipWhile_inside (hd.ne_nil hG)]
  rfl

theorem skipBlank (hG : Guard G) : Parser.Carries w G G id Parser.skipBlank Parser.skipBlank := by
  intro c hd
  refine ⟨hd.of_reads hG c.reads_skipBlank, ?_⟩
  rw [Parser.skipBlank, Cursor.skipBlank, Cursor.skipWhile_inside (hd.ne_nil hG)]
  rfl

-- ---------------------------------------------------------------------------
-- Loops and nesting
-- ---------------------------------------------------------------------------

theorem gather {h : α → β} {more : List α → Cursor → Bool} {more' : List β → Cursor → Bool}
    {step : List α → Parser α} {step' : List β → Parser β}
    (hmore : ∀ seen c, w.Allows G c → more' (seen.map h) (c.inside w) = more seen c)
    (hstep : ∀ seen, (step seen).Carries w G G h (step' (seen.map h))) (seen : List α) :
    Parser.Carries w G G (List.map h) (Parser.gather more step seen)
      (Parser.gather more' step' (seen.map h)) := by
  intro c
  fun_induction Parser.gather more step seen c with
  | case1 seen c hwant e hrun =>
    intro htail
    have hstep := hstep seen c
    rw [hrun] at hstep
    rw [Parser.gather, if_pos (by rw [hmore _ _ (.inl htail), hwant]), hstep htail]
  | case2 seen c hwant a m hrun hlt ih =>
    have hstep := hstep seen c
    rw [hrun] at hstep
    refine ih.before fun hm => ?_
    obtain ⟨hc, hstep⟩ := hstep hm
    have hlt : (m.inside w).rest.length < (c.inside w).rest.length := by simpa using hlt
    refine ⟨hc, ?_⟩
    rw [Parser.gather, if_pos (by rw [hmore _ _ hc, hwant]), hstep]
    simp only [if_pos hlt, List.map_cons]
  | case3 seen c hwant a m hrun hlt =>
    have hstep := hstep seen c
    rw [hrun] at hstep
    intro hm
    obtain ⟨hc, hstep⟩ := hstep hm
    have hlt : ¬ (m.inside w).rest.length < (c.inside w).rest.length := by simpa using hlt
    refine ⟨hc, ?_⟩
    rw [Parser.gather, if_pos (by rw [hmore _ _ hc, hwant]), hstep]
    simp only [if_neg hlt, List.map_reverse, List.map_cons]
  | case4 seen c hwant =>
    intro hd
    rw [Parser.gather, if_neg (by rw [hmore _ _ hd]; exact hwant), List.map_reverse]
    exact ⟨hd, rfl⟩

theorem below {size : Nat}
    {p : (c : Cursor) → c.rest.length < size → Except SyntaxError (α × Cursor)}
    {p' : (c : Cursor) → c.rest.length < size + w.tail.length → Except SyntaxError (β × Cursor)}
    (hp : ∀ c h h', w.Agree G H f c (p c h) (p' (c.inside w) h')) :
    Parser.Carries w G H f (Parser.below size p) (Parser.below (size + w.tail.length) p') := by
  intro c
  unfold Parser.below
  by_cases h : c.rest.length < size
  · have h' : (c.inside w).rest.length < size + w.tail.length := by simpa using h
    rw [dif_pos h, dif_pos h']
    exact hp c h h'
  · have h' : ¬ (c.inside w).rest.length < size + w.tail.length := by simpa using h
    rw [dif_neg h, dif_neg h']
    exact Carries.fail _ c

end Parser.Carries

end MessageLint
