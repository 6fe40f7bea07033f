-- SUMMARY: Parsers that read a text back as the tree it was written from.
import MessageLint.Proofs.Respan
import MessageLint.Proofs.Runs

/-!
# Recovery

`p.Recovers g a text rest` says that `p` reads `text` in front of `rest`, wherever it stands, and
answers `a` up to what `g` forgets. What follows the text is part of the statement because parsers
look ahead: each of them has a condition on `rest` under which it stops where the text does. Recovery
goes along with sequencing, so a parser is shown to recover a construct by walking through both.
-/

namespace MessageLint

/-- Forgets where a node was read. -/
def Span.forget (_ : Span) : Span := ⟨0, 0⟩

@[simp] theorem Span.forget_eq (s : Span) : s.forget = ⟨0, 0⟩ := rfl

namespace Parser

variable {α β γ δ : Type} {p : Parser α} {f : α → Parser β} {g : α → γ} {h : β → δ}
  {a : α} {b : β} {text more rest : List Char} {ch : Char}

-- ---------------------------------------------------------------------------
-- Ends of runs
-- ---------------------------------------------------------------------------

/-- Nothing more is taken by a run of characters that satisfy `q`. -/
def Stops (q : Char → Bool) (rest : List Char) : Prop := ∀ ch, rest.head? = some ch → q ch = false

@[simp] theorem stops_cons {q : Char → Bool} : Stops q (ch :: rest) ↔ q ch = false := by
  simp [Stops]

theorem Stops.dropWhile {q : Char → Bool} (hrest : Stops q rest) (htext : ∀ ch ∈ text, q ch) :
    (text ++ rest).dropWhile q = rest := by
  rw [List.dropWhile_append_of_pos htext]
  cases rest with
  | nil => rfl
  | cons ch rest => exact List.dropWhile_cons_of_neg (by simpa using hrest)

theorem Stops.takeWhile {q : Char → Bool} (hrest : Stops q rest) (htext : ∀ ch ∈ text, q ch) :
    (text ++ rest).takeWhile q = text := by
  rw [List.takeWhile_append_of_pos htext]
  cases rest with
  | nil => simp
  | cons ch rest => rw [List.takeWhile_cons_of_neg (by simpa using hrest), List.append_nil]

/-- In front of `rest`, the parser reads `text` as `a`, up to what `g` forgets. -/
def Recovers (p : Parser α) (g : α → γ) (a : α) (text rest : List Char) : Prop :=
  ∀ offset, ∃ a' offset', p ⟨text ++ rest, offset⟩ = .ok (a', ⟨rest, offset'⟩) ∧ g a' = g a

namespace Recovers

-- ---------------------------------------------------------------------------
-- Sequencing
-- ---------------------------------------------------------------------------

theorem bind (hp : p.Recovers g a text (more ++ rest))
    (hf : ∀ a', g a' = g a → (f a').Recovers h b more rest) :
    (p >>= f).Recovers h b (text ++ more) rest := by
  intro offset
  obtain ⟨a', m, hrun, ha⟩ := hp offset
  obtain ⟨b', n, hrun', hb⟩ := hf a' ha m
  exact ⟨b', n, bind_eq_ok.2 ⟨a', _, by rwa [List.append_assoc], hrun'⟩, hb⟩

/-- Only the last parser of a sequence reads something. -/
theorem bind_nil (hp : p.Recovers g a [] (text ++ rest))
    (hf : ∀ a', g a' = g a → (f a').Recovers h b text rest) : (p >>= f).Recovers h b text rest :=
  bind hp hf

theorem pure {a' : α} (ha : g a' = g a) : (Pure.pure a' : Parser α).Recovers g a [] rest := by
  intro offset
  exact ⟨a', offset, rfl, ha⟩

/-- The last parser of a sequence that reads something. -/
theorem bind_last (hp : p.Recovers g a text rest)
    (hf : ∀ a', g a' = g a → (f a').Recovers h b [] rest) : (p >>= f).Recovers h b text rest := by
  have hrun : (p >>= f).Recovers h b (text ++ []) rest := bind hp hf
  rwa [List.append_nil] at hrun

theorem place_bind {f : Cursor → Parser α}
    (hf : ∀ c : Cursor, c.rest = text ++ rest → (f c).Recovers g a text rest) :
    (place >>= f).Recovers g a text rest := by
  intro offset
  exact hf ⟨text ++ rest, offset⟩ rfl offset

theorem spanFrom_bind {start : Cursor} {f : Span → Parser α}
    (hf : ∀ span, (f span).Recovers g a text rest) :
    (spanFrom start >>= f).Recovers g a text rest := by
  intro offset
  exact hf _ offset

theorem peek_bind {f : Option Char → Parser α}
    (hf : (f (text ++ rest).head?).Recovers g a text rest) :
    (peek >>= f).Recovers g a text rest := by
  intro offset
  exact hf offset

-- ---------------------------------------------------------------------------
-- Characters
-- ---------------------------------------------------------------------------

theorem skip_bind (text : List Char) {n : Nat} {f : Unit → Parser α} (hn : text.length = n)
    (hf : (f ()).Recovers g a more rest) : (skip n >>= f).Recovers g a (text ++ more) rest := by
  intro offset
  rw [Parser.skip_bind, List.append_assoc, ← hn, Cursor.advance_append]
  exact hf _

theorem skip_one_bind {f : Unit → Parser α} (hf : (f ()).Recovers g a text rest) :
    (skip 1 >>= f).Recovers g a (ch :: text) rest :=
  skip_bind [ch] rfl hf

theorem token_bind {f : Unit → Parser α} (hf : (f ()).Recovers g a text rest) :
    (token ch >>= f).Recovers g a (ch :: text) rest := by
  intro offset
  obtain ⟨a', n, hrun, ha⟩ := hf (offset + ch.utf8Size)
  exact ⟨a', n, token_bind_ok.2 ⟨rfl, hrun⟩, ha⟩

theorem lineEnd_bind {f : Unit → Parser α} (hf : (f ()).Recovers g a text rest) :
    (lineEnd >>= f).Recovers g a ('\n' :: text) rest := by
  intro offset
  obtain ⟨a', n, hrun, ha⟩ := hf (offset + '\n'.utf8Size)
  exact ⟨a', n, lineEnd_bind_ok.2 ⟨.inr rfl, hrun⟩, ha⟩

/-- A cursor that has skipped the characters of `text`. -/
theorem skipWhile_eq (text : List Char) {q : Char → Bool} {offset : Nat}
    (htext : ∀ ch ∈ text, q ch) (hstop : Stops q rest) :
    Cursor.skipWhile q ⟨text ++ rest, offset⟩ = ⟨rest, offset + byteLength text⟩ := by
  rw [Cursor.skipWhile, hstop.dropWhile htext, hstop.takeWhile htext]

theorem takeWhile {q : Char → Bool} (htext : ∀ ch ∈ text, q ch) (hstop : Stops q rest) :
    (takeWhile q).Recovers id (String.ofList text) text rest := by
  intro offset
  refine ⟨_, offset + byteLength text, ?_, rfl⟩
  rw [takeWhile_apply, skipWhile_eq text htext hstop, hstop.takeWhile htext]

theorem skipBlank_bind (text : List Char) {f : Unit → Parser α}
    (htext : ∀ ch ∈ text, Cursor.isBlank ch) (hstop : Stops Cursor.isBlank (more ++ rest))
    (hf : (f ()).Recovers g a more rest) :
    (skipBlank >>= f).Recovers g a (text ++ more) rest := by
  intro offset
  rw [Parser.skipBlank_bind, List.append_assoc, Cursor.skipBlank, skipWhile_eq text htext hstop]
  exact hf _

theorem skipBlank_bind_nil {f : Unit → Parser α} (hstop : Stops Cursor.isBlank (text ++ rest))
    (hf : (f ()).Recovers g a text rest) : (skipBlank >>= f).Recovers g a text rest :=
  skipBlank_bind [] (by simp) hstop hf

theorem skipBlank_bind_last {f : Unit → Parser α} (htext : ∀ ch ∈ text, Cursor.isBlank ch)
    (hstop : Stops Cursor.isBlank rest) (hf : (f ()).Recovers g a [] rest) :
    (skipBlank >>= f).Recovers g a text rest := by
  have hrun : (skipBlank >>= f).Recovers g a (text ++ []) rest := skipBlank_bind text htext hstop hf
  rwa [List.append_nil] at hrun

theorem skipSpaces_bind (text : List Char) {f : Unit → Parser α}
    (htext : ∀ ch ∈ text, Cursor.isSpace ch) (hstop : Stops Cursor.isSpace (more ++ rest))
    (hf : (f ()).Recovers g a more rest) :
    (skipSpaces >>= f).Recovers g a (text ++ more) rest := by
  intro offset
  rw [Parser.skipSpaces_bind, List.append_assoc, Cursor.skipSpaces, skipWhile_eq text htext hstop]
  exact hf _

-- ---------------------------------------------------------------------------
-- Loops
-- ---------------------------------------------------------------------------

/-- A loop recovers a list if each round recovers the first element that is left. `M seen as text`
relates what was gathered so far to what is still to come and to its text. -/
theorem gather {M : List α → List α → List Char → Prop} {seen as : List α}
    {next : List α → Cursor → Bool} {step : List α → Parser α}
    (stop : ∀ seen text, M seen [] text →
      text = [] ∧ ∀ offset, next seen ⟨rest, offset⟩ = false)
    (round : ∀ seen a as text, M seen (a :: as) text → ∃ here more, text = here ++ more ∧
      here ≠ [] ∧ (∀ offset, next seen ⟨here ++ (more ++ rest), offset⟩) ∧
      (step seen).Recovers g a here (more ++ rest) ∧ ∀ a', g a' = g a → M (a' :: seen) as more)
    (hM : M seen as text) :
    (gather next step seen).Recovers (List.map g) (seen.reverse ++ as) text rest := by
  induction as generalizing seen text with
  | nil =>
    obtain ⟨rfl, hstop⟩ := stop seen text hM
    intro offset
    refine ⟨seen.reverse, offset, ?_, by simp⟩
    rw [Parser.gather, List.nil_append, hstop]
    rfl
  | cons a as ih =>
    obtain ⟨here, more, rfl, hne, hnext, hstep, hkeep⟩ := round seen a as text hM
    intro offset
    obtain ⟨a', m, hrun, ha⟩ := hstep offset
    obtain ⟨as', n, hrun', has⟩ := ih (hkeep a' ha) m
    refine ⟨as', n, ?_, by simpa [ha] using has⟩
    have hpos := List.length_pos_iff.2 hne
    rw [Parser.gather, List.append_assoc, if_pos (hnext offset), hrun]
    simp only [List.length_append] at hrun' ⊢
    rw [if_pos (by omega), hrun']

end Recovers

end Parser

end MessageLint
