-- SUMMARY: A source with a line end behind it: what cursors and loops see of it.
import MessageLint.Proofs.Frame.Basic

/-!
# A line end behind the source

`c.ended` is the place `c` in the source with one more line end behind it. A parser that stops where
its construct does sees nothing of that line end: its runs at `c` and at `c.ended` are the same
(`Parser.Mirrors`). One that skips blanks may run into it, and then comes out at another place. This
happens only where nothing but blanks is left (`Parser.Lost`), and there a construct that still has to
be closed is at fault with and without the line end. So three kinds of parsers are told apart: those
that mirror each other, those that must find something that is no blank as well (`Parser.Closes`), and
those that mirror each other unless both get lost (`Parser.Echoes`).
-/

namespace MessageLint

-- ---------------------------------------------------------------------------
-- Places
-- ---------------------------------------------------------------------------

/-- The same place with a line end behind the source. -/
def Cursor.ended (c : Cursor) : Cursor := ⟨c.rest ++ ['\n'], c.offset⟩

theorem Inked.of_append (text : List Char) {rest : List Char} (h : Inked (text ++ rest))
    (htext : ∀ ch ∈ text, Cursor.isBlank ch) : Inked rest := by
  obtain ⟨ch, hmem, hch⟩ := h
  refine ⟨ch, (List.mem_append.1 hmem).resolve_left fun hfront => ?_, hch⟩
  rw [htext ch hfront] at hch
  cases hch

theorem isBlank_of_not_inked {rest : List Char} (h : ¬Inked rest) :
    ∀ ch ∈ rest, Cursor.isBlank ch := fun ch hmem => by
  by_contra hch
  exact h ⟨ch, hmem, by simpa using hch⟩

theorem blank_cases {rest : List Char} (h : ¬Inked rest) :
    rest = [] ∨ ∃ r, rest = ' ' :: r ∨ rest = '\n' :: r := by
  cases rest with
  | nil => exact .inl rfl
  | cons ch r =>
    refine .inr ⟨r, ?_⟩
    simpa [Cursor.isBlank] using isBlank_of_not_inked h ch (by simp)

namespace Cursor

variable {c d : Cursor} {p : Char → Bool} {t : Char} {n : Nat}

@[simp] theorem rest_ended (c : Cursor) : c.ended.rest = c.rest ++ ['\n'] := rfl

@[simp] theorem offset_ended (c : Cursor) : c.ended.offset = c.offset := rfl

@[simp] theorem spanTo_ended (c d : Cursor) : c.ended.spanTo d.ended = c.spanTo d := rfl

theorem peek_ended (c : Cursor) : c.ended.peek = some (c.peek.getD '\n') := by
  cases hrest : c.rest <;> simp [peek, hrest]

theorem peek_ended_of_ne (h : c.rest ≠ []) : c.ended.peek = c.peek := by
  obtain ⟨ch, r, hr⟩ := List.exists_cons_of_ne_nil h
  simp [peek, hr]

/-- No other character than a line end is put behind the source. -/
theorem peek_ended_iff (ht : t ≠ '\n') : c.ended.peek = some t ↔ c.peek = some t := by
  rw [peek_ended, Option.some_inj]
  cases c.peek with
  | none => simp [Ne.symm ht]
  | some ch => simp

theorem atEnd_ended (c : Cursor) : c.ended.atEnd = false := by
  simp [atEnd]

theorem next_ended (h : c.rest ≠ []) : c.ended.next = c.next.ended := by
  obtain ⟨rest, offset⟩ := c
  cases rest with
  | nil => exact absurd rfl h
  | cons ch rest => rfl

theorem advance_ended (h : n ≤ c.rest.length) : c.ended.advance n = (c.advance n).ended := by
  induction n generalizing c with
  | zero => rfl
  | succ n ih =>
    obtain ⟨rest, offset⟩ := c
    cases rest with
    | nil => simp at h
    | cons ch rest => exact ih (c := ⟨rest, _⟩) (by simpa using h)

/-- Going forward over as many characters as there are leaves nothing. -/
theorem advance_rest (h : c.rest.length ≤ n) : (c.advance n).rest = [] := by
  induction n generalizing c with
  | zero => exact List.length_eq_zero_iff.1 (Nat.le_zero.1 h)
  | succ n ih =>
    obtain ⟨rest, offset⟩ := c
    cases rest with
    | nil => exact ih (c := ⟨[], offset⟩) (Nat.zero_le n)
    | cons ch rest => exact ih (c := ⟨rest, _⟩) (by simpa using h)

/-- A run of characters that are no line ends stops in front of the one behind the source. -/
theorem takeWhile_ended (h : p '\n' = false) :
    c.ended.rest.takeWhile p = c.rest.takeWhile p := by
  rw [rest_ended, List.takeWhile_append]
  split
  · next hall => simp [h, List.Sublist.eq_of_length (List.takeWhile_sublist p) hall]
  · rfl

theorem skipWhile_ended_of_ne (h : (c.skipWhile p).rest ≠ []) :
    c.ended.rest.takeWhile p = c.rest.takeWhile p ∧
      c.ended.skipWhile p = (c.skipWhile p).ended := by
  have hdrop : c.rest.dropWhile p ≠ [] := h
  have htake : c.ended.rest.takeWhile p = c.rest.takeWhile p := by
    rw [rest_ended, List.takeWhile_append, if_neg]
    intro hall
    have hsplit := congrArg List.length (List.takeWhile_append_dropWhile (p := p) (l := c.rest))
    rw [List.length_append, hall] at hsplit
    exact hdrop (List.length_eq_zero_iff.1 (by omega))
  refine ⟨htake, ?_⟩
  rw [skipWhile, htake, rest_ended, List.dropWhile_append, if_neg (by simpa using hdrop)]
  rfl

theorem skipWhile_ended (h : p '\n' = false) : c.ended.skipWhile p = (c.skipWhile p).ended := by
  rw [skipWhile, takeWhile_ended h, rest_ended, List.dropWhile_append]
  split
  · next hnil => simp [h, skipWhile, ended, List.isEmpty_iff.1 hnil]
  · rfl

theorem skipSpaces_ended (c : Cursor) : c.ended.skipSpaces = c.skipSpaces.ended :=
  skipWhile_ended rfl

theorem skipBlank_ended (h : Inked c.rest) : c.ended.skipBlank = c.skipBlank.ended :=
  (skipWhile_ended_of_ne h.dropWhile_isBlank).2

theorem isBlank_of_peek (h : ¬Inked c.rest) (hpeek : c.peek = some t) : isBlank t := by
  obtain ⟨r, hr⟩ := peek_eq_some.1 hpeek
  exact isBlank_of_not_inked h t (by simp [hr])

theorem not_inked_ended (h : ¬Inked c.rest) : ¬Inked c.ended.rest := by
  rintro ⟨ch, hmem, hch⟩
  obtain hmem | hmem := List.mem_append.1 hmem
  · exact h ⟨ch, hmem, hch⟩
  · rw [List.mem_singleton.1 hmem] at hch
    cases hch

theorem not_inked_of_reads {text : List Char} (h : ¬Inked c.rest) (hreads : c.Reads text d) :
    ¬Inked d.rest := fun hd => h (by rw [hreads.rest]; exact Inked.guard.append text hd)

theorem skipBlank_rest (h : ¬Inked c.rest) : c.skipBlank.rest = [] :=
  List.dropWhile_eq_nil_iff.2 (isBlank_of_not_inked h)

/-- The next character that is no blank is the same one, or there is none. -/
theorem peek_skipBlank_ended (ht : isBlank t = false) :
    c.ended.skipBlank.peek = some t ↔ c.skipBlank.peek = some t := by
  have hnewline : t ≠ '\n' := by
    rintro rfl
    cases ht
  by_cases h : Inked c.rest
  · rw [skipBlank_ended h, peek_ended_iff hnewline]
  · simp [peek, skipBlank_rest h, skipBlank_rest (not_inked_ended h)]

-- ---------------------------------------------------------------------------
-- Blank lines
-- ---------------------------------------------------------------------------

private theorem skipBlankLinesFrom_ended (lineStart : Cursor) (lines : Nat) (r : List Char)
    (offset : Nat) (h : Inked r) :
    skipBlankLinesFrom lineStart.ended lines (r ++ ['\n']) offset =
      ((skipBlankLinesFrom lineStart lines r offset).1,
        (skipBlankLinesFrom lineStart lines r offset).2.ended) := by
  fun_induction skipBlankLinesFrom lineStart lines r offset with
  | case1 => simp [Inked] at h
  | case2 lineStart lines r offset ih =>
    rw [List.cons_append, skipBlankLinesFrom]
    exact ih (Inked.of_append [' '] h (by simp [isBlank]))
  | case3 lineStart lines r offset ih =>
    rw [List.cons_append, skipBlankLinesFrom]
    exact ih (Inked.of_append ['\n'] h (by simp [isBlank]))
  | case4 lineStart lines r offset hnil hspace hnewline =>
    obtain ⟨ch, r, rfl, hch⟩ := exists_head_not_blank hnil hspace hnewline
    exact skipBlankLinesFrom_cons _ _ _ _ hch

theorem skipBlankLines_ended (h : Inked c.rest) :
    c.ended.skipBlankLines = (c.skipBlankLines.1, c.skipBlankLines.2.ended) :=
  skipBlankLinesFrom_ended c 0 c.rest c.offset h

theorem inked_skipBlankLines (h : Inked c.rest) : Inked c.skipBlankLines.2.rest := by
  obtain ⟨text, hends⟩ := c.skipBlankLines_ends
  rw [hends.reads.rest] at h
  exact h.of_append text hends.blank

theorem skipBlankLines_rest (h : ¬Inked c.rest) : c.skipBlankLines.2.rest = [] := by
  obtain ⟨text, hends⟩ := c.skipBlankLines_ends
  exact c.skipBlankLines_inked.resolve_right (not_inked_of_reads h hends.reads)

theorem continuesPattern_ended (c : Cursor) : c.ended.continuesPattern = c.continuesPattern := by
  unfold continuesPattern
  simp only [skipSpaces_ended, peek_ended, offset_ended]
  cases c.skipSpaces.peek <;> simp

theorem continuesPattern_of_rest (h : c.rest = []) : c.continuesPattern = false := by
  simp [continuesPattern, skipSpaces, skipWhile, peek, h]

/-- A pattern goes on behind blank lines only where something that is no blank is left. -/
theorem inked_of_continuesPattern (h : c.skipBlankLines.2.continuesPattern) : Inked c.rest := by
  by_contra hblank
  rw [continuesPattern_of_rest (skipBlankLines_rest hblank)] at h
  cases h

/-- Behind a line end a pattern goes on or not, whatever stands behind the source. -/
theorem continuesPattern_skipBlankLines_ended (c : Cursor) :
    c.ended.skipBlankLines.2.continuesPattern = c.skipBlankLines.2.continuesPattern := by
  by_cases h : Inked c.rest
  · rw [skipBlankLines_ended h, continuesPattern_ended]
  · rw [continuesPattern_of_rest (skipBlankLines_rest h),
      continuesPattern_of_rest (skipBlankLines_rest (not_inked_ended h))]

theorem continuesPiece_ended (c : Cursor) : c.ended.continuesPiece = c.continuesPiece := by
  unfold continuesPiece
  rw [peek_ended, continuesPattern_skipBlankLines_ended]
  cases hpeek : c.peek with
  | none =>
    have hrest : c.rest = [] := by simpa [peek] using hpeek
    rw [continuesPattern_of_rest (skipBlankLines_rest (by simp [Inked, hrest]))]
    rfl
  | some ch => rfl

-- ---------------------------------------------------------------------------
-- Two characters
-- ---------------------------------------------------------------------------

/-- A look at two characters sees the same if it does not care for a line end. -/
private theorem look_ended {f : List Char → Bool}
    (hnone : f ['\n'] = f []) (hone : ∀ a, f [a, '\n'] = f [a])
    (htwo : ∀ a b r r', f (a :: b :: r) = f (a :: b :: r')) : f c.ended.rest = f c.rest := by
  obtain ⟨rest, offset⟩ := c
  match rest with
  | [] => exact hnone
  | [a] => exact hone a
  | a :: b :: r => exact htwo a b _ _

theorem startsNumber_ended (c : Cursor) : c.ended.startsNumber = c.startsNumber := by
  refine look_ended (f := fun rest => startsNumber ⟨rest, 0⟩) rfl (fun a => ?_) fun a b r r' => ?_
  all_goals by_cases ha : a = '-' <;> simp [startsNumber, ha, Char.isDigit]

theorem startsVariant_ended (c : Cursor) : c.ended.startsVariant = c.startsVariant := by
  refine look_ended (f := fun rest => startsVariant ⟨rest, 0⟩) rfl (fun a => ?_) fun a b r r' => ?_
  all_goals
    unfold startsVariant
    split <;> simp_all

theorem arrow_ended (c : Cursor) :
    ['-', '>'].isPrefixOf c.ended.rest = ['-', '>'].isPrefixOf c.rest := by
  refine look_ended (f := (['-', '>'].isPrefixOf ·)) rfl (fun a => ?_) fun a b r r' => ?_
  all_goals simp [List.isPrefixOf]

end Cursor

namespace Parser

variable {α β γ : Type}

-- ---------------------------------------------------------------------------
-- Runs
-- ---------------------------------------------------------------------------

/-- Two runs that give the same answer and end at the same place, without and with a line end behind
the source, or both fail. -/
inductive Same : Except SyntaxError (α × Cursor) → Except SyntaxError (α × Cursor) → Prop
  | ok (a : α) (d : Cursor) : Same (.ok (a, d)) (.ok (a, d.ended))
  | error (e e' : SyntaxError) : Same (.error e) (.error e')

/-- A run that does not end in front of something that is no blank. -/
def Lost (r : Except SyntaxError (α × Cursor)) : Prop := ∀ a d, r = .ok (a, d) → ¬Inked d.rest

/-- Two runs that are the same unless both are lost. -/
def Echo (r r' : Except SyntaxError (α × Cursor)) : Prop := Same r r' ∨ Lost r ∧ Lost r'

/-- The parser `p'` does with a line end behind the source what `p` does without it. -/
def Mirrors (p p' : Parser α) : Prop := ∀ c, Same (p c) (p' c.ended)

/-- Where only blanks are left the parser is lost. -/
def Loses (p : Parser α) : Prop := ∀ c, ¬Inked c.rest → Lost (p c)

/-- Where only blanks are left the parser fails. -/
def Refuses (p : Parser α) : Prop := ∀ c, ¬Inked c.rest → ∃ e, p c = .error e

/-- The parsers do the same, unless both are lost. -/
structure Echoes (p p' : Parser α) : Prop where
  echo : ∀ c, Echo (p c) (p' c.ended)
  loses : Loses p
  loses' : Loses p'

/-- The parsers do the same and must find something that is no blank. -/
structure Closes (p p' : Parser α) : Prop where
  mirrors : Mirrors p p'
  refuses : Refuses p
  refuses' : Refuses p'

variable {p p' : Parser α} {q q' : α → Parser β} {c c' : Cursor}

theorem Lost.error (e : SyntaxError) : Lost (.error e : Except SyntaxError (α × Cursor)) :=
  fun _ _ h => by cases h

theorem Lost.of_reads {r : Except SyntaxError (α × Cursor)} (hc : ¬Inked c.rest)
    (h : ∀ a d, r = .ok (a, d) → ∃ text, c.Reads text d) : Lost r := fun a d hrun =>
  have ⟨_, hreads⟩ := h a d hrun
  Cursor.not_inked_of_reads hc hreads

theorem Same.bind {r r' : Except SyntaxError (α × Cursor)} (hp : p c = r) (hp' : p' c' = r')
    (h : Same r r') (hq : ∀ a d, r = .ok (a, d) → Same (q a d) (q' a d.ended)) :
    Same ((p >>= q) c) ((p' >>= q') c') := by
  change Same (Parser.bind p q c) (Parser.bind p' q' c')
  unfold Parser.bind
  rw [hp, hp']
  cases h with
  | ok a d => exact hq a d rfl
  | error e e' => exact .error e e'

theorem Lost.bind (h : Lost (p c)) (hq : ∀ a, Loses (q a)) : Lost ((p >>= q) c) := by
  intro b e hrun
  obtain ⟨a, d, ha, hb⟩ := bind_eq_ok.1 hrun
  exact hq a d (h a d ha) b e hb

theorem Lost.bind_refuses (h : Lost (p c)) (hq : ∀ a, Refuses (q a)) :
    ∃ e, (p >>= q) c = .error e := by
  cases hrun : (p >>= q) c with
  | error e => exact ⟨e, rfl⟩
  | ok r =>
    obtain ⟨b, d⟩ := r
    obtain ⟨a, m, ha, hb⟩ := bind_eq_ok.1 hrun
    obtain ⟨e, he⟩ := hq a m (h a m ha)
    rw [he] at hb
    cases hb

-- ---------------------------------------------------------------------------
-- Parsers that get lost or fail on blanks
-- ---------------------------------------------------------------------------

theorem Loses.of_reads (h : ∀ c a d, p c = .ok (a, d) → ∃ text, c.Reads text d) : Loses p :=
  fun c hc => .of_reads hc (h c)

theorem Refuses.loses (h : Refuses p) : Loses p := fun c hc => by
  obtain ⟨e, he⟩ := h c hc
  rw [he]
  exact .error e

theorem Loses.bind (h : Loses p) (hq : ∀ a, Loses (q a)) : Loses (p >>= q) :=
  fun c hc => (h c hc).bind hq

theorem Loses.bind_refuses (h : Loses p) (hq : ∀ a, Refuses (q a)) : Refuses (p >>= q) :=
  fun c hc => (h c hc).bind_refuses hq

theorem Refuses.place_bind {f : Cursor → Parser α} (h : ∀ start, Refuses (f start)) :
    Refuses (place >>= f) := fun c => h c c

theorem Refuses.bind (h : Refuses p) (q : α → Parser β) : Refuses (p >>= q) := fun c hc => by
  obtain ⟨e, he⟩ := h c hc
  refine ⟨e, ?_⟩
  change Parser.bind p q c = _
  rw [Parser.bind, he]

theorem Loses.pure (a : α) : Loses (Pure.pure a : Parser α) :=
  .of_reads fun c _ _ h => by
    obtain ⟨rfl, rfl⟩ := by simpa using h
    exact ⟨[], .refl c⟩

theorem Loses.gather {more : List α → Cursor → Bool} {step : List α → Parser α} (seen : List α)
    (h : ∀ seen, Loses (step seen)) : Loses (gather more step seen) := fun _ hc _ _ hrun =>
  gather_induction (motive := fun _ c => ¬Inked c.rest)
    (fun seen m a d hm _ hstep => h seen m hm a d hstep) hc hrun

/-- A loop is lost when one of its rounds is. -/
theorem Lost.gather {more : List α → Cursor → Bool} {step : List α → Parser α} {seen : List α}
    (hwant : more seen c) (h : Lost (step seen c)) (hstep : ∀ seen, Loses (step seen)) :
    Lost (gather more step seen c) := by
  intro as d hrun
  rw [Parser.gather, if_pos hwant] at hrun
  split at hrun
  · cases hrun
  · next a m hround =>
    have hm := h a m hround
    split at hrun
    · exact Loses.gather _ hstep m hm as d hrun
    · cases hrun
      exact hm

theorem Refuses.token {t : Char} (ht : Cursor.isBlank t = false) : Refuses (token t) :=
  fun c hc => by
    unfold Parser.token
    rw [if_neg fun hpeek => by rw [Cursor.isBlank_of_peek hc hpeek] at ht; cases ht]
    exact ⟨_, rfl⟩

-- ---------------------------------------------------------------------------
-- Parsers that do the same
-- ---------------------------------------------------------------------------

theorem Same.bind_mirrors (h : Same (p c) (p' c')) (hq : ∀ a, Mirrors (q a) (q' a)) :
    Same ((p >>= q) c) ((p' >>= q') c') :=
  .bind rfl rfl h fun a d _ => hq a d

theorem Mirrors.bind (h : Mirrors p p') (hq : ∀ a, Mirrors (q a) (q' a)) :
    Mirrors (p >>= q) (p' >>= q') :=
  fun c => (h c).bind_mirrors hq

theorem Mirrors.map (h : Mirrors p p') (f : α → β) : Mirrors (f <$> p) (f <$> p') :=
  h.bind fun a c => .ok (f a) c

theorem Mirrors.pure (a : α) : Mirrors (Pure.pure a : Parser α) (Pure.pure a) := fun d => .ok a d

theorem Mirrors.fail (cause cause' : SyntaxCause) :
    Mirrors (Parser.fail cause : Parser α) (Parser.fail cause') := fun _ => .error _ _

theorem Mirrors.failAt (span span' : Span) (cause cause' : SyntaxCause) :
    Mirrors (Parser.failAt span cause : Parser α) (Parser.failAt span' cause') :=
  fun _ => .error _ _

theorem Mirrors.place_bind {f f' : Cursor → Parser α}
    (h : ∀ start, Mirrors (f start) (f' start.ended)) :
    Mirrors (place >>= f) (place >>= f') := fun c => h c c

/-- A span ends at the place, whatever stands behind it. -/
theorem Mirrors.spanFrom_bind {start start' : Cursor} {f f' : Span → Parser α}
    (hstart : start'.offset = start.offset) (h : ∀ span, Mirrors (f span) (f' span)) :
    Mirrors (spanFrom start >>= f) (spanFrom start' >>= f') := fun c => by
  have hspan : start'.spanTo c.ended = start.spanTo c := by
    rw [Cursor.spanTo, Cursor.spanTo, hstart, Cursor.offset_ended]
  rw [Parser.spanFrom_bind, Parser.spanFrom_bind, hspan]
  exact h _ c

theorem Mirrors.spanned {start start' : Cursor} (hstart : start'.offset = start.offset)
    (f : Span → α) :
    Mirrors (spanFrom start >>= fun span => Pure.pure (f span))
      (spanFrom start' >>= fun span => Pure.pure (f span)) :=
  .spanFrom_bind hstart fun span => .pure (f span)

theorem Mirrors.takeWhile {s : Char → Bool} (hs : s '\n' = false) :
    Mirrors (takeWhile s) (takeWhile s) := fun c => by
  rw [takeWhile_apply, takeWhile_apply, Cursor.takeWhile_ended hs, Cursor.skipWhile_ended hs]
  exact .ok _ _

theorem Mirrors.skipSpaces : Mirrors skipSpaces skipSpaces := fun c => by
  rw [Parser.skipSpaces, Parser.skipSpaces, Cursor.skipSpaces_ended]
  exact .ok _ _

/-- Something to look ahead for that is seen alike with and without the line end. -/
theorem Mirrors.look {P : Cursor → Prop} [DecidablePred P] {p₂ p₂' : Parser α}
    (hP : ∀ c : Cursor, P c.ended ↔ P c) (h : Mirrors p p') (h₂ : Mirrors p₂ p₂') :
    Mirrors (place >>= fun c => if P c then p else p₂) (place >>= fun c => if P c then p' else p₂') :=
  fun c => by
    rw [Parser.place_bind, Parser.place_bind, ite_apply, ite_apply]
    simp only [hP]
    split
    · exact h c
    · exact h₂ c

/-- Where nothing is left, the next character is the line end. -/
theorem Same.peek_bind {f f' : Option Char → Parser α}
    (hnone : c.rest = [] → Same (f none c) (f' (some '\n') c.ended))
    (hsome : c.rest ≠ [] → ∀ first, c.peek = first → Same (f first c) (f' first c.ended)) :
    Same ((peek >>= f) c) ((peek >>= f') c.ended) := by
  rw [Parser.peek_bind, Parser.peek_bind]
  by_cases hc : c.rest = []
  · simpa [Cursor.peek, hc] using hnone hc
  · rw [Cursor.peek_ended_of_ne hc]
    exact hsome hc _ rfl

theorem Same.skip_bind {f f' : Unit → Parser α} (hc : c.rest ≠ [])
    (h : Same (f () c.next) (f' () c.next.ended)) :
    Same ((skip 1 >>= f) c) ((skip 1 >>= f') c.ended) := by
  rw [Parser.skip_bind, Parser.skip_bind, Cursor.advance_ended (List.length_pos_iff.2 hc)]
  exact h

/-- Whether the next character is this one can be seen with and without the line end. -/
theorem Mirrors.peek_ite {t : Char} {p₂ p₂' : Parser α} (ht : t ≠ '\n') (h : Mirrors p p')
    (h₂ : Mirrors p₂ p₂') :
    Mirrors (peek >>= fun ch => if ch = some t then p else p₂)
      (peek >>= fun ch => if ch = some t then p' else p₂') :=
  .look (P := fun c => c.peek = some t) (fun _ => Cursor.peek_ended_iff ht) h h₂

theorem Mirrors.skipBlankBefore {t : Char} (ht : Cursor.isBlank t = false) :
    Mirrors (skipBlankBefore t) (skipBlankBefore t) := fun c => by
  unfold Parser.skipBlankBefore
  simp only [Cursor.peek_skipBlank_ended ht]
  split
  · next hpeek =>
    have hinked : Inked c.rest := by
      by_contra hblank
      simp [Cursor.peek, Cursor.skipBlank_rest hblank] at hpeek
    rw [Cursor.skipBlank_ended hinked]
    exact .ok _ _
  · exact .ok _ _

/-- The runs of a loop from a place are related by `R` if at each place either that is known, or both
loops want a round there, or neither does, and the rounds do the same. -/
theorem gather_related {R : Except SyntaxError (List α × Cursor) →
      Except SyntaxError (List α × Cursor) → Prop} {more more' : List α → Cursor → Bool}
    {step step' : List α → Parser α} (hsame : ∀ {r r'}, Same r r' → R r r')
    (hround : ∀ seen c, R (gather more step seen c) (gather more' step' seen c.ended) ∨
      more' seen c.ended = more seen c ∧ (more seen c → Same (step seen c) (step' seen c.ended)))
    (seen : List α) (c : Cursor) :
    R (gather more step seen c) (gather more' step' seen c.ended) := by
  induction hsize : c.rest.length using Nat.strongRecOn generalizing seen c with
  | _ size ih =>
    obtain hdone | ⟨hmore, hround⟩ := hround seen c
    · exact hdone
    · rw [Parser.gather, Parser.gather.eq_def more', hmore]
      split
      · next hwant =>
        specialize hround hwant
        generalize step seen c = r at hround ⊢
        generalize step' seen c.ended = r' at hround ⊢
        cases hround with
        | error e e' => exact hsame (.error e e')
        | ok a d =>
          have hlt : d.ended.rest.length < c.ended.rest.length ↔ d.rest.length < c.rest.length := by
            simp
          simp only [hlt]
          split
          · next hlt => exact ih _ (hsize ▸ hlt) _ d rfl
          · exact hsame (.ok _ d)
      · exact hsame (.ok _ c)

theorem Mirrors.gather {more more' : List α → Cursor → Bool} {step step' : List α → Parser α}
    (hmore : ∀ seen c, more' seen c.ended = more seen c)
    (hstep : ∀ seen c, more seen c → Same (step seen c) (step' seen c.ended)) (seen : List α) :
    Mirrors (gather more step seen) (gather more' step' seen) :=
  gather_related id (fun seen c => .inr ⟨hmore seen c, hstep seen c⟩) seen

-- ---------------------------------------------------------------------------
-- Parsers that do the same unless they are lost
-- ---------------------------------------------------------------------------

theorem Echoes.of_mirrors (h : Mirrors p p') (hp : Loses p) (hp' : Loses p') : Echoes p p' :=
  ⟨fun c => .inl (h c), hp, hp'⟩

/-- Where something that is no blank is left, the parsers do the same. -/
theorem Echoes.of_inked (h : ∀ c, Inked c.rest → Echo (p c) (p' c.ended)) (hp : Loses p)
    (hp' : Loses p') : Echoes p p' where
  echo c := by
    by_cases hc : Inked c.rest
    · exact h c hc
    · exact .inr ⟨hp c hc, hp' _ (Cursor.not_inked_ended hc)⟩
  loses := hp
  loses' := hp'

theorem Echoes.bind (h : Echoes p p') (hq : ∀ a, Echoes (q a) (q' a)) :
    Echoes (p >>= q) (p' >>= q') where
  echo c := by
    obtain hsame | ⟨hlost, hlost'⟩ := h.echo c
    · change Echo (Parser.bind p q c) (Parser.bind p' q' c.ended)
      unfold Parser.bind
      generalize p c = r at hsame ⊢
      generalize p' c.ended = r' at hsame ⊢
      cases hsame with
      | ok a d => exact (hq a).echo d
      | error e e' => exact .inl (.error e e')
    · exact .inr ⟨hlost.bind fun a => (hq a).loses, hlost'.bind fun a => (hq a).loses'⟩
  loses := h.loses.bind fun a => (hq a).loses
  loses' := h.loses'.bind fun a => (hq a).loses'

theorem Echoes.pure (a : α) : Echoes (Pure.pure a : Parser α) (Pure.pure a) :=
  .of_mirrors (.pure a) (.pure a) (.pure a)

theorem Echoes.place_bind {f f' : Cursor → Parser α}
    (h : ∀ start start', start'.offset = start.offset → Echoes (f start) (f' start')) :
    Echoes (place >>= f) (place >>= f') :=
  ⟨fun c => (h c c.ended rfl).echo c, fun c => (h c c rfl).loses c, fun c => (h c c rfl).loses' c⟩

theorem Echoes.failAt (span span' : Span) (cause cause' : SyntaxCause) :
    Echoes (Parser.failAt span cause : Parser α) (Parser.failAt span' cause') :=
  .of_mirrors (.failAt span span' cause cause') (fun _ _ => .error _) fun _ _ => .error _

theorem Echoes.fail (cause cause' : SyntaxCause) :
    Echoes (Parser.fail cause : Parser α) (Parser.fail cause') :=
  .of_mirrors (.fail cause cause') (fun _ _ => .error _) fun _ _ => .error _

theorem Echoes.map (h : Echoes p p') (f : α → β) : Echoes (f <$> p) (f <$> p') :=
  h.bind fun a => .pure (f a)

theorem Echoes.look {P : Cursor → Prop} [DecidablePred P] {p₂ p₂' : Parser α}
    (hP : ∀ c : Cursor, P c.ended ↔ P c) (h : Echoes p p') (h₂ : Echoes p₂ p₂') :
    Echoes (place >>= fun c => if P c then p else p₂)
      (place >>= fun c => if P c then p' else p₂') where
  echo c := by
    rw [Parser.place_bind, Parser.place_bind, ite_apply, ite_apply]
    simp only [hP]
    split
    · exact h.echo c
    · exact h₂.echo c
  loses c := by
    rw [Parser.place_bind]
    split
    · exact h.loses c
    · exact h₂.loses c
  loses' c := by
    rw [Parser.place_bind]
    split
    · exact h.loses' c
    · exact h₂.loses' c

theorem Echoes.peek_ite {t : Char} {p₂ p₂' : Parser α} (ht : t ≠ '\n') (h : Echoes p p')
    (h₂ : Echoes p₂ p₂') :
    Echoes (peek >>= fun ch => if ch = some t then p else p₂)
      (peek >>= fun ch => if ch = some t then p' else p₂') :=
  .look (P := fun c => c.peek = some t) (fun _ => Cursor.peek_ended_iff ht) h h₂

theorem Echoes.spanned {start start' : Cursor} (hstart : start'.offset = start.offset)
    (f : Span → α) :
    Echoes (spanFrom start >>= fun span => Pure.pure (f span))
      (spanFrom start' >>= fun span => Pure.pure (f span)) :=
  .of_mirrors (.spanned hstart f) (fun c => Loses.pure _ c) fun c => Loses.pure _ c

theorem Loses.skip (n : Nat) : Loses (skip n) := .of_reads fun c a d h => by
  obtain rfl : c.advance n = d := by simpa [Parser.skip] using h
  exact c.reads_advance n

theorem Echoes.skip (n : Nat) : Echoes (skip n) (skip n) := by
  refine .of_inked (fun c _ => ?_) (.skip n) (.skip n)
  by_cases hn : n ≤ c.rest.length
  · rw [Parser.skip, Parser.skip, Cursor.advance_ended hn]
    exact .inl (.ok _ _)
  · have hlost : ∀ d : Cursor, d.rest.length ≤ n → Lost (Parser.skip n d) := by
      rintro d hd a e hrun
      obtain rfl : d.advance n = e := by simpa [Parser.skip] using hrun
      simp [Inked, Cursor.advance_rest hd]
    exact .inr ⟨hlost c (by omega), hlost c.ended (by simp; omega)⟩

theorem Loses.skipBlank : Loses skipBlank := .of_reads fun c a d h => by
  obtain rfl : c.skipBlank = d := by simpa [Parser.skipBlank] using h
  exact ⟨_, c.reads_skipBlank⟩

theorem Echoes.skipBlank : Echoes skipBlank skipBlank := by
  refine .of_inked (fun c hc => ?_) .skipBlank .skipBlank
  rw [Parser.skipBlank, Parser.skipBlank, Cursor.skipBlank_ended hc]
  exact .inl (.ok _ _)

theorem Loses.lineEnd : Loses lineEnd := .of_reads fun c a d h => by
  obtain ⟨-, rfl⟩ := lineEnd_ok.1 h
  exact c.reads_next

theorem Echoes.skipSpaces : Echoes skipSpaces skipSpaces := by
  have hloses : Loses Parser.skipSpaces := .of_reads fun c a d h => by
    obtain rfl : c.skipSpaces = d := by simpa [Parser.skipSpaces] using h
    exact ⟨_, c.reads_skipSpaces⟩
  exact .of_mirrors .skipSpaces hloses hloses

theorem Echoes.lineEnd : Echoes lineEnd lineEnd := by
  refine .of_inked (fun c hc => ?_) .lineEnd .lineEnd
  have hne : c.rest ≠ [] := hc.lined.ne_nil
  refine .inl ?_
  unfold Parser.lineEnd
  rw [Cursor.atEnd_ended, Cursor.peek_ended_of_ne hne, Cursor.atEnd, List.isEmpty_eq_false_iff.2 hne]
  split
  · rw [Cursor.next_ended hne]
    exact .ok _ _
  · exact .error _ _

theorem Echoes.gather {more more' : List α → Cursor → Bool} {step step' : List α → Parser α}
    (hmore : ∀ seen c, more' seen c.ended = more seen c)
    (hstep : ∀ seen, Echoes (step seen) (step' seen)) (seen : List α) :
    Echoes (gather more step seen) (gather more' step' seen) := by
  have hloses : ∀ seen, Loses (step seen) := fun seen => (hstep seen).loses
  have hloses' : ∀ seen, Loses (step' seen) := fun seen => (hstep seen).loses'
  refine ⟨gather_related .inl (fun seen c => ?_) seen, .gather seen hloses, .gather seen hloses'⟩
  obtain hsame | ⟨hlost, hlost'⟩ := (hstep seen).echo c
  · exact .inr ⟨hmore seen c, fun _ => hsame⟩
  · by_cases hwant : more seen c
    · exact .inl (.inr ⟨hlost.gather hwant hloses,
        hlost'.gather ((hmore seen c).trans hwant) hloses'⟩)
    · exact .inr ⟨hmore seen c, fun h => absurd h hwant⟩

-- ---------------------------------------------------------------------------
-- Parsers that must find something
-- ---------------------------------------------------------------------------

theorem Closes.echoes (h : Closes p p') : Echoes p p' :=
  .of_mirrors h.mirrors h.refuses.loses h.refuses'.loses

theorem Closes.bind (h : Closes p p') (hq : ∀ a, Mirrors (q a) (q' a)) :
    Closes (p >>= q) (p' >>= q') :=
  ⟨h.mirrors.bind hq, h.refuses.bind q, h.refuses'.bind q'⟩

/-- Behind parsers that may be lost, ones that then fail. -/
theorem Echoes.bind_closes (h : Echoes p p') (hq : ∀ a, Closes (q a) (q' a)) :
    Closes (p >>= q) (p' >>= q') where
  mirrors c := by
    obtain hsame | ⟨hlost, hlost'⟩ := h.echo c
    · exact hsame.bind_mirrors fun a => (hq a).mirrors
    · obtain ⟨e, he⟩ := hlost.bind_refuses fun a => (hq a).refuses
      obtain ⟨e', he'⟩ := hlost'.bind_refuses fun a => (hq a).refuses'
      rw [he, he']
      exact .error e e'
  refuses c hc := (h.loses c hc).bind_refuses fun a => (hq a).refuses
  refuses' c hc := (h.loses' c hc).bind_refuses fun a => (hq a).refuses'

theorem Closes.place_bind {f f' : Cursor → Parser α}
    (h : ∀ start start', start'.offset = start.offset → Closes (f start) (f' start')) :
    Closes (place >>= f) (place >>= f') :=
  ⟨fun c => (h c c.ended rfl).mirrors c, fun c => (h c c rfl).refuses c,
    fun c => (h c c rfl).refuses' c⟩

theorem Closes.token {t : Char} (ht : Cursor.isBlank t = false) :
    Closes (token t) (token t) where
  mirrors c := by
    have hnewline : t ≠ '\n' := by
      rintro rfl
      cases ht
    unfold Parser.token
    simp only [Cursor.peek_ended_iff hnewline]
    split
    · next hpeek =>
      obtain ⟨r, hr⟩ := Cursor.peek_eq_some.1 hpeek
      rw [Cursor.next_ended (by simp [hr])]
      exact .ok _ _
    · exact .error _ _
  refuses := .token ht
  refuses' := .token ht

theorem Closes.below {size : Nat}
    {p : (c : Cursor) → c.rest.length < size → Except SyntaxError (α × Cursor)}
    {p' : (c : Cursor) → c.rest.length < size + 1 → Except SyntaxError (α × Cursor)}
    (h : ∀ c hlt hlt', Same (p c hlt) (p' c.ended hlt'))
    (hp : ∀ c hlt, ¬Inked c.rest → ∃ e, p c hlt = .error e)
    (hp' : ∀ c hlt, ¬Inked c.rest → ∃ e, p' c hlt = .error e) :
    Closes (below size p) (below (size + 1) p') where
  mirrors c := by
    unfold Parser.below
    by_cases hlt : c.rest.length < size
    · have hlt' : c.ended.rest.length < size + 1 := by simpa using hlt
      rw [dif_pos hlt, dif_pos hlt']
      exact h c hlt hlt'
    · have hlt' : ¬c.ended.rest.length < size + 1 := by simpa using hlt
      rw [dif_neg hlt, dif_neg hlt']
      exact .error _ _
  refuses c hc := by
    unfold Parser.below
    split
    · exact hp c _ hc
    · exact ⟨_, rfl⟩
  refuses' c hc := by
    unfold Parser.below
    split
    · exact hp' c _ hc
    · exact ⟨_, rfl⟩

end Parser

end MessageLint
