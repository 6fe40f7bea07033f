-- SUMMARY: Rules for runs of parsers: they stay in the source, move forward, and fail inside it.
import MessageLint.Proofs.Spans.Expression

/-!
# Safe runs

A run of a parser is safe (`Parser.Safe`) if it ends where it should: a success stands in the source, on
a boundary of characters and not before a given offset, a failure has a span inside the source. The
offset is what makes the rules compose: a parser that must read something promises one more byte than
it was given.

Parsers with others nested in them are compared under two choices of these, `Parser.Coincide`: the runs
are the same and they are safe, if what is nested does the same at the offsets that can be reached.
-/

namespace MessageLint

-- ---------------------------------------------------------------------------
-- Places behind an offset
-- ---------------------------------------------------------------------------

/-- The cursor stands in the source, at the offset `lo` or behind it. -/
structure Cursor.At (source : String) (lo : Nat) (c : Cursor) : Prop where
  isIn : c.In source.toList
  le : lo ≤ c.offset

/-- The span ends where it starts or later, and no later than the source. -/
structure Span.Inside (source : String) (s : Span) : Prop where
  start_le_stop : s.start ≤ s.stop
  stop_le_size : s.stop ≤ source.utf8ByteSize

variable {source : String} {lo lo' : Nat} {c d m : Cursor} {ch : Char} {text : List Char}

namespace Cursor.At

theorem refl (hc : c.In source.toList) : c.At source c.offset := ⟨hc, Nat.le_refl _⟩

theorem mono (hle : lo' ≤ lo) (h : c.At source lo) : c.At source lo' :=
  ⟨h.isIn, Nat.le_trans hle h.le⟩

theorem reads (h : c.At source lo) (hreads : c.Reads text d) : d.At source lo :=
  ⟨hreads.in h.isIn, Nat.le_trans h.le hreads.le⟩

theorem reads_pos (h : c.At source lo) (hreads : c.Reads text d) (hne : text ≠ []) :
    d.At source (lo + 1) := by
  have := byteLength_pos hne
  have := h.le
  exact ⟨hreads.in h.isIn, by rw [hreads.offset]; omega⟩

theorem next (h : c.At source lo) : c.next.At source lo :=
  let ⟨_, hreads⟩ := c.reads_next
  h.reads hreads

theorem next_of_peek (hpeek : c.peek = some ch) (h : c.At source lo) : c.next.At source (lo + 1) :=
  h.reads_pos (Cursor.reads_next_of_peek hpeek) (by simp)

theorem advance (n : Nat) (h : c.At source lo) : (c.advance n).At source lo :=
  let ⟨_, hreads⟩ := c.reads_advance n
  h.reads hreads

theorem skipWhile (q : Char → Bool) (h : c.At source lo) : (c.skipWhile q).At source lo :=
  h.reads (c.reads_skipWhile q)

theorem skipWhile_of_peek {q : Char → Bool} (hpeek : c.peek = some ch) (hch : q ch)
    (h : c.At source lo) : (c.skipWhile q).At source (lo + 1) := by
  obtain ⟨r, hr⟩ := Cursor.peek_eq_some.1 hpeek
  exact h.reads_pos (c.reads_skipWhile q) (by simp [hr, hch])

theorem skipSpaces (h : c.At source lo) : c.skipSpaces.At source lo := h.skipWhile _

theorem skipBlank (h : c.At source lo) : c.skipBlank.At source lo := h.skipWhile _

theorem skipBlankLines (h : c.At source lo) : c.skipBlankLines.2.At source lo :=
  let ⟨_, hends⟩ := c.skipBlankLines_ends
  h.reads hends.reads

/-- At a line end there is at least this one to skip. -/
theorem skipBlankLines_of_peek (hpeek : c.peek = some '\n') (h : c.At source lo) :
    c.skipBlankLines.2.At source (lo + 1) := by
  obtain ⟨text, hends⟩ := c.skipBlankLines_ends
  exact h.reads_pos hends.reads (hends.ne_nil hpeek)

theorem le_size (h : c.At source lo) : c.offset ≤ source.utf8ByteSize := by
  rw [← byteLength_toList]
  exact h.isIn.offset_le

/-- Behind a place there is less to read. -/
theorem length_lt (hc : c.In source.toList) (hd : d.At source (c.offset + 1)) :
    d.rest.length < c.rest.length := by
  have hlt : c.offset < d.offset := hd.le
  obtain ⟨text, hreads⟩ := hc.reads hd.isIn (Nat.le_of_lt hlt)
  exact hreads.length_lt hlt

theorem spanTo (h : d.At source c.offset) : (c.spanTo d).Inside source := ⟨h.le, h.le_size⟩

theorem here (h : c.At source lo) : c.here.Inside source := by
  cases hrest : c.rest with
  | nil =>
    have hhere : c.here = ⟨c.offset, c.offset⟩ := by simp [Cursor.here, Cursor.atEnd, hrest]
    rw [hhere]
    exact ⟨Nat.le_refl _, h.le_size⟩
  | cons ch r =>
    have hhere : c.here = ⟨c.offset, c.offset + 1⟩ := by simp [Cursor.here, Cursor.atEnd, hrest]
    have hnext := (refl h.isIn).next_of_peek (Cursor.peek_eq_some.2 ⟨r, hrest⟩)
    rw [hhere]
    exact ⟨Nat.le_succ _, Nat.le_trans hnext.le hnext.le_size⟩

end Cursor.At

namespace Parser

variable {α β : Type} {p q : Parser α}

-- ---------------------------------------------------------------------------
-- Safe runs
-- ---------------------------------------------------------------------------

/-- A run that succeeds ends in the source, not before `lo`; one that fails points into the source. -/
def Safe (source : String) (lo : Nat) : Except SyntaxError (α × Cursor) → Prop
  | .ok (_, d) => d.At source lo
  | .error e => e.span.Inside source

theorem Safe.mono {r : Except SyntaxError (α × Cursor)} (h : Safe source lo r) (hle : lo' ≤ lo) :
    Safe source lo' r := by
  cases r with
  | error e => exact h
  | ok r => exact Cursor.At.mono hle h

theorem Safe.bind {f : α → Parser β} (h : Safe source lo (p c))
    (hf : ∀ a d, p c = .ok (a, d) → d.At source lo → Safe source lo' (f a d)) :
    Safe source lo' ((p >>= f) c) := by
  change Safe source lo' (Parser.bind p f c)
  unfold Parser.bind
  cases hrun : p c with
  | error e =>
    rw [hrun] at h
    exact h
  | ok r =>
    rw [hrun] at h
    exact hf r.1 r.2 hrun h

theorem safe_token (t : Char) (h : c.At source lo) : Safe source (lo + 1) (token t c) := by
  unfold token
  split
  · next hpeek => exact h.next_of_peek hpeek
  · exact h.here

theorem safe_lineEnd (h : c.At source lo) : Safe source lo (lineEnd c) := by
  unfold lineEnd
  split
  · exact h.next
  · exact h.here

theorem safe_skipBlankBefore (t : Char) (h : c.At source lo) :
    Safe source lo (skipBlankBefore t c) := by
  unfold skipBlankBefore
  split
  · exact h.skipBlank
  · exact h

-- ---------------------------------------------------------------------------
-- Runs that coincide
-- ---------------------------------------------------------------------------

/-- Two runs that are one and the same, and safe. -/
structure Coincide (source : String) (lo : Nat) (r r' : Except SyntaxError (α × Cursor)) : Prop where
  eq : r = r'
  safe : Safe source lo r

theorem Safe.coincide {r : Except SyntaxError (α × Cursor)} (h : Safe source lo r) :
    Coincide source lo r r :=
  ⟨rfl, h⟩

theorem Coincide.mono {r r' : Except SyntaxError (α × Cursor)} (h : Coincide source lo r r')
    (hle : lo' ≤ lo) : Coincide source lo' r r' :=
  ⟨h.eq, h.safe.mono hle⟩

theorem Coincide.bind {f g : α → Parser β} (h : Coincide source lo (p c) (q c))
    (hf : ∀ a d, p c = .ok (a, d) → d.At source lo → Coincide source lo' (f a d) (g a d)) :
    Coincide source lo' ((p >>= f) c) ((q >>= g) c) := by
  have heq : (p >>= f) c = (q >>= g) c := by
    change Parser.bind p f c = Parser.bind q g c
    unfold Parser.bind
    rw [← h.eq]
    cases hrun : p c with
    | error e => rfl
    | ok r =>
      have hsafe := h.safe
      rw [hrun] at hsafe
      exact (hf r.1 r.2 hrun hsafe).eq
  exact ⟨heq, h.safe.bind fun a d hrun hd => (hf a d hrun hd).safe⟩

/-- The first parser is the same on both sides. -/
theorem Safe.bind_coincide {f g : α → Parser β} (h : Safe source lo (p c))
    (hf : ∀ a d, p c = .ok (a, d) → d.At source lo → Coincide source lo' (f a d) (g a d)) :
    Coincide source lo' ((p >>= f) c) ((p >>= g) c) :=
  h.coincide.bind hf

-- ---------------------------------------------------------------------------
-- Loops
-- ---------------------------------------------------------------------------

section Loops

variable {more : List α → Cursor → Bool} {step step' : List α → Parser α} {seen : List α}

/-- Loops whose rounds coincide and move forward. The first round, if there is one, does. -/
theorem gather_coincide
    (round : ∀ seen m, m.At source lo → more seen m →
      Coincide source (m.offset + 1) (step seen m) (step' seen m))
    (hc : c.At source lo) :
    Coincide source (if more seen c then c.offset + 1 else c.offset) (gather more step seen c)
      (gather more step' seen c) := by
  have key : gather more step seen c = gather more step' seen c ∧
      Safe source (if more seen c then c.offset + 1 else c.offset) (gather more step seen c) := by
    fun_induction gather more step seen c with
    | case1 seen c hmore e hstep =>
      have hround := round seen c hc hmore
      rw [gather, if_pos hmore, ← hround.eq, hstep]
      exact ⟨rfl, by simpa [Safe, hstep] using hround.safe⟩
    | case2 seen c hmore a m hstep hlt ih =>
      have hround := round seen c hc hmore
      have hm : m.At source (c.offset + 1) := by simpa [Safe, hstep] using hround.safe
      obtain ⟨heq, hsafe⟩ := ih (hm.mono (by have := hc.le; omega))
      rw [gather.eq_def more step', if_pos hmore, ← hround.eq, hstep]
      simp only [if_pos hlt]
      refine ⟨heq, hsafe.mono ?_⟩
      have := hm.le
      rw [if_pos hmore]
      split <;> omega
    | case3 seen c hmore a m hstep hlt =>
      have hround := round seen c hc hmore
      have hm : m.At source (c.offset + 1) := by simpa [Safe, hstep] using hround.safe
      exact absurd (Cursor.At.length_lt hc.isIn hm) hlt
    | case4 seen c hmore =>
      rw [gather, if_neg hmore, if_neg hmore]
      exact ⟨rfl, Cursor.At.refl hc.isIn⟩
  exact ⟨key.1, key.2⟩

theorem gather_safe
    (round : ∀ seen m, m.At source lo → more seen m → Safe source (m.offset + 1) (step seen m))
    (hc : c.At source lo) :
    Safe source (if more seen c then c.offset + 1 else c.offset) (gather more step seen c) :=
  (gather_coincide (fun seen m hm hmore => (round seen m hm hmore).coincide) hc).safe

/-- A loop without a guard: `step` is run while `more` asks for it, and each round moves forward. -/
inductive Iterates (more : List α → Cursor → Bool) (step : List α → Parser α) :
    List α → Cursor → Except SyntaxError (List α × Cursor) → Prop
  | stop {seen : List α} {c : Cursor} :
      more seen c = false → Iterates more step seen c (.ok (seen.reverse, c))
  | fault {seen : List α} {c : Cursor} {e : SyntaxError} :
      more seen c → step seen c = .error e → Iterates more step seen c (.error e)
  | round {seen : List α} {c d : Cursor} {a : α} {r : Except SyntaxError (List α × Cursor)} :
      more seen c → step seen c = .ok (a, d) → c.offset < d.offset →
        Iterates more step (a :: seen) d r → Iterates more step seen c r

/-- Where rounds move forward, the guard of `gather` stops nothing. -/
theorem gather_iterates
    (round : ∀ seen m, m.At source lo → more seen m → Safe source (m.offset + 1) (step seen m))
    (hc : c.At source lo) : Iterates more step seen c (gather more step seen c) := by
  fun_induction gather more step seen c with
  | case1 seen c hmore e hstep => exact .fault hmore hstep
  | case2 seen c hmore a m hstep _ ih =>
    have hm : m.At source (c.offset + 1) := by simpa [Safe, hstep] using round seen c hc hmore
    exact .round hmore hstep hm.le (ih (hm.mono (by have := hc.le; omega)))
  | case3 seen c hmore a m hstep hlt =>
    have hm : m.At source (c.offset + 1) := by simpa [Safe, hstep] using round seen c hc hmore
    exact absurd (Cursor.At.length_lt hc.isIn hm) hlt
  | case4 seen c hmore => exact .stop (by simpa using hmore)

end Loops

end Parser

end MessageLint
