-- SUMMARY: What a successful run of each parser of the grammar has done.
import MessageLint.Grammar.Entry
import MessageLint.Proofs.Cursor

/-!
# Runs of parsers

A proof about what a parser answers starts from a run of it, `p c = .ok (a, d)`. The lemmas of this
module take such a run apart, once for each construct of the grammar: `termRef_ok` names the runs of
the parsers that `termRef` is made of and says what it built from their answers. For the loops there
are two rules, `gather_induction` for what every round preserves and `gather_stops` for why the last
one was the last.
-/

namespace MessageLint

namespace Parser

variable {α β γ : Type} {c d m : Cursor}

-- ---------------------------------------------------------------------------
-- Sequencing
-- ---------------------------------------------------------------------------

theorem bind_eq_ok {p : Parser α} {f : α → Parser β} {r : β × Cursor} :
    (p >>= f) c = .ok r ↔ ∃ a d, p c = .ok (a, d) ∧ f a d = .ok r := by
  change Parser.bind p f c = _ ↔ _
  unfold Parser.bind
  cases p c with
  | error e => simp
  | ok ad =>
    obtain ⟨a, d⟩ := ad
    refine ⟨fun h => ⟨a, d, rfl, h⟩, ?_⟩
    rintro ⟨_, _, ⟨⟩, h⟩
    exact h

theorem bind_congr {p q : Parser α} (h : p c = q c) (f : α → Parser β) :
    (p >>= f) c = (q >>= f) c := by
  change Parser.bind p f c = Parser.bind q f c
  rw [Parser.bind, Parser.bind, h]

theorem bind_eq_error {p : Parser α} {f : α → Parser β} {e : SyntaxError} :
    (p >>= f) c = .error e ↔ p c = .error e ∨ ∃ a d, p c = .ok (a, d) ∧ f a d = .error e := by
  change Parser.bind p f c = _ ↔ _
  unfold Parser.bind
  rcases p c with e' | ⟨a, d⟩ <;> simp

@[simp] theorem pure_apply (a : α) : (Pure.pure a : Parser α) c = .ok (a, c) := rfl

@[simp] theorem pure_bind (a : α) (f : α → Parser β) : (Pure.pure a : Parser α) >>= f = f a := rfl

@[simp] theorem pure_bind' (a : α) (f : α → Parser β) : Parser.pure a >>= f = f a := rfl

@[simp] theorem map_bind (g : α → β) (p : Parser α) (f : β → Parser γ) :
    g <$> p >>= f = p >>= fun a => f (g a) := by
  funext c
  change Parser.bind (Parser.bind p fun a => Parser.pure (g a)) f c = Parser.bind p _ c
  unfold Parser.bind
  cases p c <;> rfl

@[simp] theorem bind_assoc (p : Parser α) (f : α → Parser β) (g : β → Parser γ) :
    p >>= f >>= g = p >>= fun a => f a >>= g := by
  funext c
  change Parser.bind (Parser.bind p f) g c = Parser.bind p _ c
  unfold Parser.bind
  cases p c <;> rfl

@[simp] theorem ite_apply {P : Prop} [Decidable P] (p q : Parser α) :
    (if P then p else q) c = if P then p c else q c := by
  split <;> rfl

@[simp] theorem place_bind (f : Cursor → Parser β) : (place >>= f) c = f c c := rfl

@[simp] theorem peek_bind (f : Option Char → Parser β) : (peek >>= f) c = f c.peek c := rfl

@[simp] theorem spanFrom_bind (f : Span → Parser β) :
    (spanFrom m >>= f) c = f (m.spanTo c) c := rfl

@[simp] theorem moveTo_bind (f : Unit → Parser β) : (moveTo m >>= f) c = f () m := rfl

@[simp] theorem skip_bind (n : Nat) (f : Unit → Parser β) :
    (skip n >>= f) c = f () (c.advance n) := rfl

@[simp] theorem skipSpaces_bind (f : Unit → Parser β) :
    (skipSpaces >>= f) c = f () c.skipSpaces := rfl

@[simp] theorem skipBlank_bind (f : Unit → Parser β) :
    (skipBlank >>= f) c = f () c.skipBlank := rfl

@[simp] theorem skipBlankLines_bind (f : Nat → Parser β) :
    (skipBlankLines >>= f) c = f c.skipBlankLines.1 c.skipBlankLines.2 := rfl

@[simp] theorem takeWhile_bind (q : Char → Bool) (f : String → Parser β) :
    (takeWhile q >>= f) c = f (String.ofList (c.rest.takeWhile q)) (c.skipWhile q) := rfl

@[simp] theorem takeWhile_apply (q : Char → Bool) :
    takeWhile q c = .ok (String.ofList (c.rest.takeWhile q), c.skipWhile q) := rfl

@[simp] theorem fail_apply (cause : SyntaxCause) :
    (fail cause : Parser α) c = .error ⟨cause, c.here⟩ := rfl

@[simp] theorem failAt_apply (span : Span) (cause : SyntaxCause) :
    (failAt span cause : Parser α) c = .error ⟨cause, span⟩ := rfl

@[simp] theorem failAt_bind (span : Span) (cause : SyntaxCause) (f : α → Parser β) :
    failAt span cause >>= f = failAt span cause := rfl

theorem token_ok {t : Char} {u : Unit} : token t c = .ok (u, d) ↔ c.peek = some t ∧ d = c.next := by
  unfold token
  split <;> simp [*, @eq_comm _ d]

theorem token_bind_ok {t : Char} {f : Unit → Parser β} {r : β × Cursor} :
    (token t >>= f) c = .ok r ↔ c.peek = some t ∧ f () c.next = .ok r := by
  simp only [bind_eq_ok, token_ok]
  exact ⟨fun ⟨_, _, ⟨hpeek, hd⟩, h⟩ => ⟨hpeek, hd ▸ h⟩, fun ⟨hpeek, h⟩ => ⟨(), _, ⟨hpeek, rfl⟩, h⟩⟩

theorem lineEnd_ok {u : Unit} :
    lineEnd c = .ok (u, d) ↔ (c.rest = [] ∨ c.peek = some '\n') ∧ d = c.next := by
  have hend : (c.atEnd || decide (c.peek = some '\n')) = true ↔ c.rest = [] ∨ c.peek = some '\n' := by
    simp [Cursor.atEnd]
  unfold lineEnd
  split <;> simp_all [@eq_comm _ d]

theorem lineEnd_bind_ok {f : Unit → Parser β} {r : β × Cursor} :
    (lineEnd >>= f) c = .ok r ↔ (c.rest = [] ∨ c.peek = some '\n') ∧ f () c.next = .ok r := by
  simp only [bind_eq_ok, lineEnd_ok]
  exact ⟨fun ⟨_, _, ⟨hend, hd⟩, h⟩ => ⟨hend, hd ▸ h⟩, fun ⟨hend, h⟩ => ⟨(), _, ⟨hend, rfl⟩, h⟩⟩

theorem skipBlankBefore_ok {t : Char} {b : Bool} :
    skipBlankBefore t c = .ok (b, d) ↔
      b = true ∧ c.skipBlank.peek = some t ∧ d = c.skipBlank ∨
        b = false ∧ c.skipBlank.peek ≠ some t ∧ d = c := by
  unfold skipBlankBefore
  split <;> cases b <;> simp [*, @eq_comm _ d]

-- ---------------------------------------------------------------------------
-- Loops and nesting
-- ---------------------------------------------------------------------------

section Gather

variable {more : List α → Cursor → Bool} {step : List α → Parser α} {seen as : List α}

/-- What holds at the start of a loop and is kept by its rounds holds of its answer. -/
theorem gather_induction {motive : List α → Cursor → Prop}
    (round : ∀ seen c a d, motive seen c → more seen c → step seen c = .ok (a, d) →
      motive (a :: seen) d)
    (start : motive seen c) (h : gather more step seen c = .ok (as, d)) :
    motive as.reverse d := by
  fun_induction gather more step seen c with
  | case1 => simp at h
  | case2 seen c hmore a m hstep _ ih => exact ih (round _ _ _ _ start hmore hstep) h
  | case3 seen c hmore a m hstep _ =>
    obtain ⟨rfl, rfl⟩ : (a :: seen).reverse = as ∧ m = d := by simpa using h
    simpa using round _ _ _ _ start hmore hstep
  | case4 seen c =>
    obtain ⟨rfl, rfl⟩ : seen.reverse = as ∧ c = d := by simpa using h
    simpa using start

/-- A loop whose rounds all move forward, from places that keep `I`, ends only where no further round is
wanted. -/
theorem gather_stops {I : Cursor → Prop}
    (round : ∀ seen c a d, I c → more seen c → step seen c = .ok (a, d) →
      d.rest.length < c.rest.length ∧ I d)
    (hc : I c) (h : gather more step seen c = .ok (as, d)) : more as.reverse d = false := by
  fun_induction gather more step seen c with
  | case1 => simp at h
  | case2 seen c hmore a m hstep _ ih => exact ih (round _ _ _ _ hc hmore hstep).2 h
  | case3 seen c hmore a m hstep hlt => exact absurd (round _ _ _ _ hc hmore hstep).1 hlt
  | case4 seen c hmore =>
    obtain ⟨rfl, rfl⟩ : seen.reverse = as ∧ c = d := by simpa using h
    simpa using hmore

/-- What every round gives and what was gathered before have, the answer of a loop has. -/
theorem gather_forall {P : α → Prop}
    (round : ∀ seen c a d, more seen c → step seen c = .ok (a, d) → P a)
    (start : ∀ a ∈ seen, P a) (h : gather more step seen c = .ok (as, d)) : ∀ a ∈ as, P a := by
  have hall := gather_induction (motive := fun seen _ => ∀ a ∈ seen, P a)
    (fun seen c a d hseen hmore hrun => List.forall_mem_cons.2 ⟨round seen c a d hmore hrun, hseen⟩)
    start h
  simpa using hall

/-- A loop that wants a first round has its answer in front of all further ones. -/
theorem gather_first (hmore : more seen c) (h : gather more step seen c = .ok (as, d)) :
    ∃ a m rest, step seen c = .ok (a, m) ∧ as = seen.reverse ++ a :: rest := by
  rw [gather, if_pos hmore] at h
  cases hstep : step seen c with
  | error e => simp [hstep] at h
  | ok r =>
    obtain ⟨a, m⟩ := r
    rw [hstep] at h
    simp only at h
    split at h
    · have hfirst := gather_induction (motive := fun now _ => ∃ new, now = new ++ a :: seen)
        (fun _ _ b _ ⟨new, hnew⟩ _ _ => ⟨b :: new, by rw [hnew, List.cons_append]⟩) ⟨[], rfl⟩ h
      obtain ⟨new, hnew⟩ := hfirst
      refine ⟨a, m, new.reverse, rfl, ?_⟩
      rw [← List.reverse_reverse as, hnew]
      simp
    · obtain ⟨rfl, -⟩ : (a :: seen).reverse = as ∧ m = d := by simpa using h
      exact ⟨a, m, [], rfl, by simp⟩

/-- A loop whose rounds do not look at what was gathered, taken apart from its first round on: `I`
is kept by the rounds, and `P` says what the elements from a place on are. A round that stays where it
is is the last one. -/
theorem gather_suffixes {more : Cursor → Bool} {step : Parser α} {seen as : List α}
    {I : Cursor → Prop} {P : Cursor → List α → Prop}
    (stop : ∀ c, I c → more c = false → P c [])
    (stay : ∀ c a d, I c → more c → step c = .ok (a, d) → ¬d.rest.length < c.rest.length → P c [a])
    (round : ∀ c a d, I c → more c → step c = .ok (a, d) → d.rest.length < c.rest.length →
      I d ∧ ∀ as, P d as → P c (a :: as))
    (hc : I c) (h : gather (fun _ => more) (fun _ => step) seen c = .ok (as, d)) :
    ∃ new, as = seen.reverse ++ new ∧ P c new := by
  fun_induction gather (fun _ => more) (fun _ => step) seen c with
  | case1 => simp at h
  | case2 seen c hmore a m hstep hlt ih =>
    obtain ⟨hm, hround⟩ := round _ _ _ hc hmore hstep hlt
    obtain ⟨new, rfl, hnew⟩ := ih hm h
    exact ⟨a :: new, by simp, hround new hnew⟩
  | case3 seen c hmore a m hstep hlt =>
    obtain ⟨rfl, rfl⟩ : (a :: seen).reverse = as ∧ m = d := by simpa using h
    exact ⟨[a], by simp, stay _ _ _ hc hmore hstep hlt⟩
  | case4 seen c hmore =>
    obtain ⟨rfl, rfl⟩ : seen.reverse = as ∧ c = d := by simpa using h
    exact ⟨[], by simp, stop c hc (by simpa using hmore)⟩

/-- And so is a loop whose rounds all move forward. -/
theorem gather_rounds {more : Cursor → Bool} {step : Parser α} {seen as : List α}
    {I : Cursor → Prop} {P : Cursor → List α → Prop}
    (stop : ∀ c, I c → more c = false → P c [])
    (round : ∀ c a d, I c → more c → step c = .ok (a, d) →
      d.rest.length < c.rest.length ∧ I d ∧ ∀ as, P d as → P c (a :: as))
    (hc : I c) (h : gather (fun _ => more) (fun _ => step) seen c = .ok (as, d)) :
    ∃ new, as = seen.reverse ++ new ∧ P c new :=
  gather_suffixes stop
    (fun c a d hc hmore hrun hstay => absurd (round c a d hc hmore hrun).1 hstay)
    (fun c a d hc hmore hrun _ => (round c a d hc hmore hrun).2) hc h

/-- What was gathered before stays in front where the rounds do not look at it. -/
theorem gather_seen {more : Cursor → Bool} {step : Parser α} :
    gather (fun _ => more) (fun _ => step) seen c =
      (gather (fun _ => more) (fun _ => step) [] c).map fun r => (seen.reverse ++ r.1, r.2) := by
  have key : ∀ seen before : List α,
      gather (fun _ => more) (fun _ => step) (seen ++ before) c =
        (gather (fun _ => more) (fun _ => step) seen c).map
          fun r => (before.reverse ++ r.1, r.2) := by
    intro seen before
    fun_induction gather (fun _ => more) (fun _ => step) seen c with
    | case1 seen c hmore e hstep =>
      rw [gather, if_pos hmore, hstep]
      rfl
    | case2 seen c hmore a m hstep hlt ih =>
      rw [gather, if_pos hmore, hstep]
      simp only [if_pos hlt]
      exact ih
    | case3 seen c hmore a m hstep hlt =>
      rw [gather, if_pos hmore, hstep]
      simp [if_neg hlt, Except.map]
    | case4 seen c hmore =>
      rw [gather, if_neg hmore]
      simp [Except.map]
  simpa using key [] seen

end Gather

theorem below_ok {size : Nat}
    {p : (c : Cursor) → c.rest.length < size → Except SyntaxError (α × Cursor)} {r : α × Cursor} :
    below size p c = .ok r ↔ ∃ h : c.rest.length < size, p c h = .ok r := by
  unfold below
  split
  · simp_all
  · simp [*]

-- ---------------------------------------------------------------------------
-- Names and numbers
-- ---------------------------------------------------------------------------

theorem isDigit_of_isAlpha {ch : Char} (h : ch.isAlpha) : ch.isDigit = false := by
  refine Bool.eq_false_iff.2 fun hdigit => ?_
  simp only [Char.isDigit, Char.isAlpha, Char.isUpper, Char.isLower, Bool.and_eq_true,
    Bool.or_eq_true, decide_eq_true_eq, UInt32.le_iff_toNat_le, ge_iff_le] at hdigit h
  grind

theorem identifier_ok {id : Identifier} (h : identifier c = .ok (id, d)) :
    (∃ first, c.peek = some first ∧ first.isAlpha) ∧ d = c.skipWhile isNameChar ∧
      id = ⟨String.ofList (c.rest.takeWhile isNameChar), c.spanTo d⟩ := by
  cases hpeek : c.peek with
  | none => simp [identifier, hpeek] at h
  | some first =>
    simp only [identifier, place_bind, hpeek, ite_apply, takeWhile_bind] at h
    split at h
    · next halpha =>
      obtain ⟨rfl, rfl⟩ := by simpa using h
      exact ⟨⟨first, rfl, halpha⟩, rfl, rfl⟩
    · simp at h

theorem digits_ok {run : String} (h : digits c = .ok (run, d)) :
    run = String.ofList (c.rest.takeWhile Char.isDigit) ∧ run ≠ "" ∧
      d = c.skipWhile Char.isDigit := by
  rw [digits, takeWhile_bind] at h
  split at h
  · simp at h
  · next hne =>
    obtain ⟨rfl, rfl⟩ := by simpa only [pure_apply, Except.ok.injEq, Prod.mk.injEq] using h
    exact ⟨rfl, by simpa using hne, rfl⟩

/-- The sign of a number, if there is one, and where its digits start. -/
def SignAt (c : Cursor) (sign : String) (d : Cursor) : Prop :=
  sign = "-" ∧ c.peek = some '-' ∧ d = c.next ∨ sign = "" ∧ c.peek ≠ some '-' ∧ d = c

theorem number_ok {n : NumberLiteral} (h : number c = .ok (n, d)) :
    ∃ sign m₁ whole m₂, SignAt c sign m₁ ∧ digits m₁ = .ok (whole, m₂) ∧
      (m₂.peek ≠ some '.' ∧ d = m₂ ∧ n = ⟨sign ++ whole, c.spanTo d⟩ ∨
        ∃ fraction, m₂.peek = some '.' ∧ digits m₂.next = .ok (fraction, d) ∧
          n = ⟨sign ++ whole ++ "." ++ fraction, c.spanTo d⟩) := by
  rw [number, place_bind, ite_apply, skip_bind, pure_bind', pure_bind'] at h
  split at h
  all_goals
    obtain ⟨whole, m₂, hwhole, h⟩ := bind_eq_ok.1 h
    rw [peek_bind, ite_apply, skip_bind] at h
    split at h
  · next hsign _ hdot =>
    obtain ⟨fraction, m₃, hfraction, h⟩ := bind_eq_ok.1 h
    obtain ⟨rfl, rfl⟩ := by simpa using h
    exact ⟨"-", _, whole, m₂, .inl ⟨rfl, hsign, rfl⟩, hwhole, .inr ⟨fraction, hdot, hfraction, rfl⟩⟩
  · next hsign _ hdot =>
    obtain ⟨rfl, rfl⟩ := by simpa using h
    exact ⟨"-", _, whole, m₂, .inl ⟨rfl, hsign, rfl⟩, hwhole, .inl ⟨hdot, rfl, rfl⟩⟩
  · next hsign _ hdot =>
    obtain ⟨fraction, m₃, hfraction, h⟩ := bind_eq_ok.1 h
    obtain ⟨rfl, rfl⟩ := by simpa using h
    exact ⟨"", _, whole, m₂, .inr ⟨rfl, hsign, rfl⟩, hwhole, .inr ⟨fraction, hdot, hfraction, rfl⟩⟩
  · next hsign _ hdot =>
    obtain ⟨rfl, rfl⟩ := by simpa using h
    exact ⟨"", _, whole, m₂, .inr ⟨rfl, hsign, rfl⟩, hwhole, .inl ⟨hdot, rfl, rfl⟩⟩

-- ---------------------------------------------------------------------------
-- Quoted text
-- ---------------------------------------------------------------------------

theorem unicodeEscape_ok {letter ch : Char} {count : Nat}
    (h : unicodeEscape m letter count c = .ok (ch, d)) :
    ∃ digits : List Char, digits.length = count ∧
      digits = (c.next.rest.take count).takeWhile (fun ch => (hexDigit? ch).isSome) ∧
      ch = (scalar? (hexValue digits)).getD replacementCharacter ∧
      d = c.next.advance count := by
  rw [unicodeEscape, skip_bind, place_bind, skip_bind, ite_apply] at h
  split at h
  · next hlen =>
    obtain ⟨rfl, rfl⟩ := by simpa using h
    exact ⟨_, hlen, rfl, rfl, congrArg (fun n => c.next.advance n) hlen⟩
  · simp at h

theorem escape_ok {ch : Char} (h : escape c = .ok (ch, d)) :
    c.next.peek = some 'u' ∧ unicodeEscape c 'u' 4 c.next = .ok (ch, d) ∨
      c.next.peek = some 'U' ∧ unicodeEscape c 'U' 6 c.next = .ok (ch, d) ∨
        (ch = '\\' ∨ ch = '"') ∧ c.next.peek = some ch ∧ d = c.next.next := by
  rw [escape, place_bind, skip_bind, peek_bind, Cursor.advance_succ, Cursor.advance_zero] at h
  generalize hpeek : c.next.peek = letter at h ⊢
  split at h
  · simp at h
  · exact .inl ⟨rfl, h⟩
  · exact .inr (.inl ⟨rfl, h⟩)
  · rw [skip_bind, ite_apply] at h
    split at h
    · next hch =>
      obtain ⟨rfl, rfl⟩ := by simpa using h
      exact .inr (.inr ⟨hch, rfl, rfl⟩)
    · simp at h

theorem quotedChar_ok {ch : Char} (h : quotedChar m c = .ok (ch, d)) :
    c.peek = some '\\' ∧ escape c = .ok (ch, d) ∨
      ch ≠ '\n' ∧ ch ≠ '\\' ∧ c.peek = some ch ∧ d = c.next := by
  rw [quotedChar, peek_bind] at h
  generalize hpeek : c.peek = first at h ⊢
  split at h
  · simp at h
  · simp at h
  · exact .inl ⟨rfl, h⟩
  · next first _ hnewline hslash =>
    obtain ⟨rfl, rfl⟩ := by simpa using h
    exact .inr ⟨fun heq => hnewline (by rw [heq]), fun heq => hslash (by rw [heq]), rfl, rfl⟩

theorem stringLiteral_ok {s : StringLiteral} (h : stringLiteral c = .ok (s, d)) :
    ∃ value m, c.peek = some '"' ∧
      gather (fun _ c => c.peek ≠ some '"') (fun _ => quotedChar c) [] c.next = .ok (value, m) ∧
      m.peek = some '"' ∧ d = m.next ∧ s = ⟨String.ofList value, c.spanTo d⟩ := by
  rw [stringLiteral, place_bind, token_bind_ok] at h
  obtain ⟨hopen, h⟩ := h
  obtain ⟨value, m, hvalue, h⟩ := bind_eq_ok.1 h
  obtain ⟨hclose, h⟩ := token_bind_ok.1 h
  obtain ⟨rfl, rfl⟩ := by simpa using h
  exact ⟨value, m, hopen, hvalue, hclose, rfl, rfl⟩

-- ---------------------------------------------------------------------------
-- Patterns
-- ---------------------------------------------------------------------------

variable {placeable : Parser Placeable}

theorem countSpaces_bind (f : Nat → Parser β) :
    (countSpaces >>= f) c = f (c.rest.takeWhile Cursor.isSpace).length c.skipSpaces := by
  simp [countSpaces, Cursor.skipSpaces]

theorem piece_ok {p : Piece} (h : piece placeable c = .ok (p, d)) :
    (c.peek = some '\n' ∧ d = c.skipBlankLines.2.skipSpaces ∧
      p = .indent c.skipBlankLines.1
        (c.skipBlankLines.2.rest.takeWhile Cursor.isSpace).length (c.spanTo d)) ∨
    (∃ q, c.peek = some '\x7b' ∧ placeable c = .ok (q, d) ∧ p = .placeable q) ∨
    (c.peek ≠ some '\n' ∧ c.peek ≠ some '\x7b' ∧ c.peek ≠ some '\x7d' ∧
      d = c.skipWhile isPatternText ∧
      p = .text ⟨String.ofList (c.rest.takeWhile isPatternText), c.spanTo d⟩) := by
  rw [piece, place_bind] at h
  generalize hpeek : c.peek = first at h ⊢
  split at h
  · rw [skipBlankLines_bind, countSpaces_bind] at h
    obtain ⟨rfl, rfl⟩ := by simpa using h
    exact .inl ⟨rfl, rfl, rfl⟩
  · obtain ⟨q, d, hq, h⟩ := bind_eq_ok.1 h
    obtain ⟨rfl, rfl⟩ := by simpa using h
    exact .inr (.inl ⟨q, rfl, hq, rfl⟩)
  · simp at h
  · next hnewline hopen hclose =>
    obtain ⟨rfl, rfl⟩ := by simpa using h
    exact .inr (.inr ⟨hnewline, hopen, hclose, rfl, rfl⟩)

/-- A piece that the loop asks for has read something, unless it is a placeable. -/
theorem piece_moves {p : Piece} (hmore : c.continuesPiece) (h : piece placeable c = .ok (p, d)) :
    (∃ text, text ≠ [] ∧ c.Reads text d) ∨ ∃ q, placeable c = .ok (q, d) ∧ p = .placeable q := by
  obtain ⟨hline, rfl, -⟩ | ⟨q, -, hq, rfl⟩ | ⟨hline, hopen, hclose, rfl, -⟩ := piece_ok h
  · obtain ⟨lines, hlines⟩ := c.skipBlankLines_ends
    have hreads := hlines.reads.trans c.skipBlankLines.2.reads_skipSpaces
    exact .inl ⟨_, List.append_ne_nil_of_left_ne_nil (hlines.ne_nil hline) _, hreads⟩
  · exact .inr ⟨q, hq, rfl⟩
  · refine .inl ⟨_, ?_, c.reads_skipWhile isPatternText⟩
    cases hpeek : c.peek with
    | none => simp [Cursor.continuesPiece, hpeek] at hmore
    | some ch =>
      obtain ⟨r, hr⟩ := Cursor.peek_eq_some.1 hpeek
      have htext : isPatternText ch := by simp_all [isPatternText]
      simp [hr, htext]

/-- What a pattern has read before its loop starts. -/
def OpeningAt (c : Cursor) (block : Bool) (opening : List Piece) (d : Cursor) : Prop :=
  if block then
    d = c.skipSpaces ∧
      opening = [.indent 0 (c.rest.takeWhile Cursor.isSpace).length (c.spanTo d)]
  else
    d = c ∧ opening = []

theorem OpeningAt.reads {block : Bool} {opening : List Piece} (h : OpeningAt c block opening d) :
    ∃ text, c.Reads text d := by
  cases block with
  | true =>
    obtain ⟨rfl, -⟩ := h
    exact ⟨_, c.reads_skipSpaces⟩
  | false =>
    obtain ⟨rfl, -⟩ := h
    exact ⟨[], .refl _⟩

theorem pieces_ok {block : Bool} {ps : List Piece} (h : pieces placeable block c = .ok (ps, d)) :
    ∃ opening m, OpeningAt c block opening m ∧
      gather (fun _ c => c.continuesPiece) (fun _ => piece placeable) opening m = .ok (ps, d) := by
  rw [pieces] at h
  cases block with
  | true =>
    obtain ⟨indent, m, hindent, h⟩ := bind_eq_ok.1 h
    rw [blockIndent, place_bind, countSpaces_bind] at hindent
    obtain ⟨rfl, rfl⟩ := by simpa using hindent
    exact ⟨_, _, ⟨rfl, rfl⟩, h⟩
  | false => exact ⟨[], c, ⟨rfl, rfl⟩, h⟩

theorem pattern_ok {block : Bool} {p : Pattern} (h : pattern placeable block c = .ok (p, d)) :
    ∃ opening m pieces, OpeningAt c block opening m ∧
      gather (fun _ c => c.continuesPiece) (fun _ => piece placeable) opening m = .ok (pieces, d) ∧
      p = ⟨Piece.elements pieces, c.spanTo d⟩ := by
  rw [pattern, place_bind] at h
  obtain ⟨pieces, m, hpieces, h⟩ := bind_eq_ok.1 h
  obtain ⟨rfl, rfl⟩ := by simpa using h
  obtain ⟨opening, m, hopening, hpieces⟩ := pieces_ok hpieces
  exact ⟨opening, m, pieces, hopening, hpieces, rfl⟩

theorem pattern?_ok {p : Option Pattern} (h : pattern? placeable c = .ok (p, d)) :
    (p = none ∧ d = c ∧ (c.skipSpaces.rest = [] ∨ c.skipSpaces.peek = some '\n') ∧
      c.skipSpaces.skipBlankLines.2.continuesPattern = false) ∨
    (∃ q, (c.skipSpaces.rest = [] ∨ c.skipSpaces.peek = some '\n') ∧
      c.skipSpaces.skipBlankLines.2.continuesPattern ∧
      pattern placeable true c.skipSpaces.skipBlankLines.2 = .ok (q, d) ∧ p = some q) ∨
    (∃ q, c.skipSpaces.rest ≠ [] ∧ c.skipSpaces.peek ≠ some '\n' ∧
      pattern placeable false c.skipSpaces = .ok (q, d) ∧ p = some q) := by
  simp only [pattern?, place_bind, ite_apply, Cursor.atEnd, Bool.or_eq_true, List.isEmpty_iff,
    decide_eq_true_eq] at h
  split at h
  · next hend =>
    split at h
    · next hcontinues =>
      rw [moveTo_bind] at h
      obtain ⟨q, m, hq, h⟩ := bind_eq_ok.1 h
      obtain ⟨rfl, rfl⟩ := by simpa using h
      exact .inr (.inl ⟨q, hend, hcontinues, hq, rfl⟩)
    · next hcontinues =>
      obtain ⟨rfl, rfl⟩ := by simpa using h
      exact .inl ⟨rfl, rfl, hend, by simpa using hcontinues⟩
  · next hend =>
    rw [moveTo_bind] at h
    obtain ⟨q, m, hq, h⟩ := bind_eq_ok.1 h
    obtain ⟨rfl, rfl⟩ := by simpa using h
    exact .inr (.inr ⟨q, fun h => hend (.inl h), fun h => hend (.inr h), hq, rfl⟩)

theorem requiredPattern_ok {p : Pattern} (h : requiredPattern placeable c = .ok (p, d)) :
    pattern? placeable c = .ok (some p, d) := by
  obtain ⟨found, m, hfound, h⟩ := bind_eq_ok.1 h
  cases found with
  | none => simp at h
  | some q =>
    obtain ⟨rfl, rfl⟩ := by simpa using h
    exact hfound

-- ---------------------------------------------------------------------------
-- Arguments
-- ---------------------------------------------------------------------------

variable {nested : Nested}

theorem literal_ok {l : Literal} (h : literal c = .ok (l, d)) :
    (∃ n, c.startsNumber ∧ number c = .ok (n, d) ∧ l = .number n) ∨
      ∃ s, stringLiteral c = .ok (s, d) ∧ l = .string s := by
  simp only [literal, place_bind, ite_apply] at h
  split at h
  · next hnumber =>
    obtain ⟨n, m, hn, h⟩ := bind_eq_ok.1 h
    obtain ⟨rfl, rfl⟩ := by simpa using h
    exact .inl ⟨n, hnumber, hn, rfl⟩
  · split at h
    · obtain ⟨s, m, hs, h⟩ := bind_eq_ok.1 h
      obtain ⟨rfl, rfl⟩ := by simpa using h
      exact .inr ⟨s, hs, rfl⟩
    · simp at h

theorem namedArgument_ok {taken : List NamedArgument} {e : Inline} {a : NamedArgument}
    (h : namedArgument taken e c = .ok (a, d)) :
    ∃ id span value, e = .messageRef id none span ∧ (∀ b ∈ taken, b.name.name ≠ id.name) ∧
      literal c.next.skipBlank = .ok (value, d) ∧ a = ⟨id, value⟩ := by
  unfold namedArgument at h
  split at h
  · next id span =>
    rw [ite_apply] at h
    split at h
    · simp at h
    · next htaken =>
      rw [skip_bind, skipBlank_bind] at h
      obtain ⟨value, m, hvalue, h⟩ := bind_eq_ok.1 h
      obtain ⟨rfl, rfl⟩ := by simpa using h
      exact ⟨id, span, value, rfl, by simpa using htaken, hvalue, rfl⟩
  · simp at h

/-- The end of an argument: a comma and the blanks behind it, if there is one. -/
def CommaAt (c : Cursor) (comma : Bool) (d : Cursor) : Prop :=
  comma = true ∧ c.peek = some ',' ∧ d = c.next.skipBlank ∨
    comma = false ∧ c.peek ≠ some ',' ∧ d = c

private theorem comma_ok {argument : Argument} {a : ListedArgument}
    (h : (do
      skipBlank
      if (← peek) = some ',' then
        skip 1
        skipBlank
        return ⟨argument, true⟩
      else
        return ⟨argument, false⟩ : Parser ListedArgument) c = .ok (a, d)) :
    a.argument = argument ∧ CommaAt c.skipBlank a.comma d := by
  rw [skipBlank_bind, peek_bind, ite_apply, skip_bind, skipBlank_bind] at h
  split at h
  · next hcomma =>
    obtain ⟨rfl, rfl⟩ := by simpa using h
    exact ⟨rfl, .inl ⟨rfl, hcomma, rfl⟩⟩
  · next hcomma =>
    obtain ⟨rfl, rfl⟩ := by simpa using h
    exact ⟨rfl, .inr ⟨rfl, hcomma, rfl⟩⟩

theorem listedArgument_ok {seen : List ListedArgument} {a : ListedArgument}
    (h : listedArgument nested seen c = .ok (a, d)) :
    ∃ e m₁ m₂, nested.inline c = .ok (e, m₁) ∧ CommaAt m₂.skipBlank a.comma d ∧
      ((∃ b, m₁.skipBlank.peek = some ':' ∧ a.argument = .named b ∧
          namedArgument (ListedArgument.named seen) e m₁.skipBlank = .ok (b, m₂)) ∨
        m₁.skipBlank.peek ≠ some ':' ∧ ListedArgument.named seen = [] ∧
          a.argument = .positional e ∧ m₂ = m₁.skipBlank) := by
  obtain ⟨e, m₁, he, h⟩ := bind_eq_ok.1 h
  rw [skipBlank_bind, peek_bind, ite_apply] at h
  split at h
  · next hcolon =>
    rw [map_bind] at h
    obtain ⟨b, m₂, hb, h⟩ := bind_eq_ok.1 h
    obtain ⟨hargument, hcomma⟩ := comma_ok h
    exact ⟨e, m₁, m₂, he, hcomma, .inl ⟨b, hcolon, hargument, hb⟩⟩
  · next hcolon =>
    rw [ite_apply] at h
    split at h
    · next hnamed =>
      obtain ⟨hargument, hcomma⟩ := comma_ok h
      exact ⟨e, m₁, _, he, hcomma, .inr ⟨hcolon, by simpa using hnamed, hargument, rfl⟩⟩
    · simp at h

theorem arguments_ok {args : Arguments} (h : arguments nested c = .ok (args, d)) :
    ∃ listed m, c.peek = some '(' ∧
      gather moreArguments (listedArgument nested) [] c.next.skipBlank = .ok (listed, m) ∧
      m.peek = some ')' ∧ d = m.next ∧
      args = ⟨listed.filterMap (·.argument.positional?), ListedArgument.named listed⟩ := by
  rw [arguments, token_bind_ok] at h
  obtain ⟨hopen, h⟩ := h
  rw [skipBlank_bind] at h
  obtain ⟨listed, m, hlisted, h⟩ := bind_eq_ok.1 h
  obtain ⟨hclose, h⟩ := token_bind_ok.1 h
  obtain ⟨rfl, rfl⟩ := by simpa using h
  exact ⟨listed, m, hopen, hlisted, hclose, rfl, rfl⟩

-- ---------------------------------------------------------------------------
-- References
-- ---------------------------------------------------------------------------

theorem accessor_ok {attr : Option Identifier} (h : accessor c = .ok (attr, d)) :
    c.peek ≠ some '.' ∧ attr = none ∧ d = c ∨
      ∃ id, c.peek = some '.' ∧ identifier c.next = .ok (id, d) ∧ attr = some id := by
  rw [accessor, peek_bind, ite_apply] at h
  split at h
  · next hdot =>
    rw [skip_bind] at h
    obtain ⟨id, m, hid, h⟩ := bind_eq_ok.1 h
    obtain ⟨rfl, rfl⟩ := by simpa using h
    exact .inr ⟨id, hdot, hid, rfl⟩
  · next hdot =>
    obtain ⟨rfl, rfl⟩ := by simpa using h
    exact .inl ⟨hdot, rfl, rfl⟩

theorem variableRef_ok {e : Inline} (h : variableRef c = .ok (e, d)) :
    ∃ id, identifier c.next = .ok (id, d) ∧ e = .variableRef id (c.spanTo d) := by
  rw [variableRef, place_bind, skip_bind] at h
  obtain ⟨id, m, hid, h⟩ := bind_eq_ok.1 h
  obtain ⟨rfl, rfl⟩ := by simpa using h
  exact ⟨id, hid, rfl⟩

theorem termRef_ok {e : Inline} (h : termRef nested c = .ok (e, d)) :
    ∃ id attr args m₁ m₂, identifier c.next = .ok (id, m₁) ∧ accessor m₁ = .ok (attr, m₂) ∧
      e = .termRef id attr args (c.spanTo d) ∧
      (m₂.skipBlank.peek ≠ some '(' ∧ args = none ∧ d = m₂ ∨
        ∃ a, arguments nested m₂.skipBlank = .ok (a, d) ∧ args = some a) := by
  rw [termRef, place_bind, skip_bind] at h
  obtain ⟨id, m₁, hid, h⟩ := bind_eq_ok.1 h
  obtain ⟨attr, m₂, hattr, h⟩ := bind_eq_ok.1 h
  obtain ⟨called, m₃, hcalled, hargs⟩ := bind_eq_ok.1 h
  obtain ⟨rfl, hpeek, rfl⟩ | ⟨rfl, hpeek, rfl⟩ := skipBlankBefore_ok.1 hcalled
  · rw [if_pos rfl, map_bind] at hargs
    obtain ⟨a, m, ha, h⟩ := bind_eq_ok.1 hargs
    obtain ⟨rfl, rfl⟩ := by simpa using h
    exact ⟨id, attr, some a, m₁, m₂, hid, hattr, rfl, .inr ⟨a, ha, rfl⟩⟩
  · rw [if_neg (by decide), pure_bind'] at hargs
    obtain ⟨rfl, rfl⟩ := by simpa using hargs
    exact ⟨id, attr, none, m₁, _, hid, hattr, rfl, .inl ⟨hpeek, rfl, rfl⟩⟩

theorem callOrMessageRef_ok {e : Inline} (h : callOrMessageRef nested c = .ok (e, d)) :
    ∃ id m, identifier c = .ok (id, m) ∧
      ((∃ args, isCallee id.name.toList ∧ arguments nested m.skipBlank = .ok (args, d) ∧
          e = .functionCall id args (c.spanTo d)) ∨
        ∃ attr, m.skipBlank.peek ≠ some '(' ∧ accessor m = .ok (attr, d) ∧
          e = .messageRef id attr (c.spanTo d)) := by
  rw [callOrMessageRef, place_bind] at h
  obtain ⟨id, m, hid, h⟩ := bind_eq_ok.1 h
  rw [place_bind, ite_apply, ite_apply] at h
  refine ⟨id, m, hid, ?_⟩
  split at h
  · split at h
    · next hcallee =>
      rw [skipBlank_bind] at h
      obtain ⟨args, m', hargs, h⟩ := bind_eq_ok.1 h
      obtain ⟨rfl, rfl⟩ := by simpa using h
      exact .inl ⟨args, hcallee, hargs, rfl⟩
    · simp at h
  · next hpeek =>
    obtain ⟨attr, m', hattr, h⟩ := bind_eq_ok.1 h
    obtain ⟨rfl, rfl⟩ := by simpa using h
    exact .inr ⟨attr, hpeek, hattr, rfl⟩

-- ---------------------------------------------------------------------------
-- Selections
-- ---------------------------------------------------------------------------

theorem variantKey_ok {key : VariantKey} (h : variantKey c = .ok (key, d)) :
    (∃ n, c.startsNumber ∧ number c = .ok (n, d) ∧ key = .number n) ∨
      ∃ id, identifier c = .ok (id, d) ∧ key = .name id := by
  simp only [variantKey, place_bind, ite_apply] at h
  split at h
  · next hnumber =>
    obtain ⟨n, m, hn, h⟩ := bind_eq_ok.1 h
    obtain ⟨rfl, rfl⟩ := by simpa using h
    exact .inl ⟨n, hnumber, hn, rfl⟩
  · obtain ⟨id, m, hid, h⟩ := bind_eq_ok.1 h
    obtain ⟨rfl, rfl⟩ := by simpa using h
    exact .inr ⟨id, hid, rfl⟩

theorem defaultMark_ok {seen : List Variant} {isDefault : Bool}
    (h : defaultMark seen c = .ok (isDefault, d)) :
    isDefault = true ∧ c.peek = some '*' ∧ (∀ v ∈ seen, v.isDefault = false) ∧ d = c.next ∨
      isDefault = false ∧ c.peek ≠ some '*' ∧ d = c := by
  rw [defaultMark, peek_bind, ite_apply, ite_apply] at h
  split at h
  · next hstar =>
    split at h
    · simp at h
    · next hseen =>
      obtain ⟨rfl, rfl⟩ := by simpa using h
      exact .inl ⟨rfl, hstar, by simpa using hseen, rfl⟩
  · next hstar =>
    obtain ⟨rfl, rfl⟩ := by simpa using h
    exact .inr ⟨rfl, hstar, rfl⟩

theorem variant_ok {seen : List Variant} {v : Variant} (h : variant nested seen c = .ok (v, d)) :
    ∃ isDefault key value m₁ m₂, defaultMark seen c = .ok (isDefault, m₁) ∧ m₁.peek = some '[' ∧
      variantKey m₁.next.skipBlank = .ok (key, m₂) ∧ m₂.skipBlank.peek = some ']' ∧
      requiredPattern nested.placeable m₂.skipBlank.next = .ok (value, d) ∧
      v = ⟨key, value, isDefault, c.spanTo d⟩ := by
  rw [variant, place_bind] at h
  obtain ⟨isDefault, m₁, hdefault, h⟩ := bind_eq_ok.1 h
  obtain ⟨hopen, h⟩ := token_bind_ok.1 h
  rw [skipBlank_bind] at h
  obtain ⟨key, m₂, hkey, h⟩ := bind_eq_ok.1 h
  rw [skipBlank_bind] at h
  obtain ⟨hclose, h⟩ := token_bind_ok.1 h
  obtain ⟨value, m₃, hvalue, h⟩ := bind_eq_ok.1 h
  obtain ⟨rfl, rfl⟩ := by simpa using h
  exact ⟨isDefault, key, value, m₁, m₂, hdefault, hopen, hkey, hclose, hvalue, rfl⟩

theorem variantLine_ok {seen : List Variant} {v : Variant}
    (h : variantLine nested seen c = .ok (v, d)) :
    ∃ m, variant nested seen c = .ok (v, m) ∧ (m.rest = [] ∨ m.peek = some '\n') ∧
      d = m.next.skipBlank := by
  obtain ⟨v, m, hv, h⟩ := bind_eq_ok.1 h
  obtain ⟨hend, h⟩ := lineEnd_bind_ok.1 h
  obtain ⟨rfl, rfl⟩ := by simpa using h
  exact ⟨m, hv, hend, rfl⟩

theorem variants_ok {vs : List Variant} (h : variants nested c = .ok (vs, d)) :
    gather (fun _ c => c.startsVariant) (variantLine nested) [] c.skipBlank = .ok (vs, d) ∧
      ∃ v ∈ vs, v.isDefault := by
  rw [variants, skipBlank_bind] at h
  obtain ⟨vs, m, hvs, h⟩ := bind_eq_ok.1 h
  rw [ite_apply, ite_apply] at h
  split at h
  · simp at h
  · split at h
    · next hdefault =>
      obtain ⟨rfl, rfl⟩ := by simpa using h
      exact ⟨hvs, by simpa using hdefault⟩
    · simp at h

theorem selection_ok {start : Cursor} {selector : Inline} {s : Selection}
    (h : selection nested start selector c = .ok (s, d)) :
    ∃ vs, selector.selectorFault? = none ∧
      ((c.advance 2).skipSpaces.rest = [] ∨ (c.advance 2).skipSpaces.peek = some '\n') ∧
      variants nested (c.advance 2).skipSpaces.next = .ok (vs, d) ∧
      s = ⟨selector, vs, start.spanTo d⟩ := by
  unfold selection at h
  generalize hfault : selector.selectorFault? = fault at h ⊢
  split at h
  · simp at h
  · rw [skip_bind, skipSpaces_bind] at h
    obtain ⟨hend, h⟩ := lineEnd_bind_ok.1 h
    obtain ⟨vs, m, hvs, h⟩ := bind_eq_ok.1 h
    obtain ⟨rfl, rfl⟩ := by simpa using h
    exact ⟨vs, rfl, hend, hvs, rfl⟩

-- ---------------------------------------------------------------------------
-- Placeables
-- ---------------------------------------------------------------------------

theorem expression_ok {e : Expression} (h : expression nested c = .ok (e, d)) :
    ∃ i m, nested.inline c = .ok (i, m) ∧
      ((∃ s, ['-', '>'].isPrefixOf m.skipBlank.rest ∧
          selection nested c i m.skipBlank = .ok (s, d) ∧ e = .select s) ∨
        ¬ ['-', '>'].isPrefixOf m.skipBlank.rest ∧ d = m.skipBlank ∧ e = .inline i ∧
          ∀ id attr args span, i ≠ .termRef id (some attr) args span) := by
  rw [expression, place_bind] at h
  obtain ⟨i, m, hi, h⟩ := bind_eq_ok.1 h
  rw [skipBlank_bind, place_bind, ite_apply] at h
  refine ⟨i, m, hi, ?_⟩
  split at h
  · next harrow =>
    obtain ⟨s, m', hs, h⟩ := bind_eq_ok.1 h
    obtain ⟨rfl, rfl⟩ := by simpa using h
    exact .inl ⟨s, harrow, hs, rfl⟩
  · next harrow =>
    split at h
    · simp at h
    · next hterm =>
      obtain ⟨rfl, rfl⟩ := by simpa using h
      exact .inr ⟨harrow, rfl, rfl, hterm⟩

theorem placeableWith_ok {p : Placeable} (h : placeableWith nested c = .ok (p, d)) :
    ∃ e m, c.peek = some '\x7b' ∧ expression nested c.next.skipBlank = .ok (e, m) ∧
      m.peek = some '\x7d' ∧ d = m.next ∧ p = ⟨e, c.spanTo d⟩ := by
  rw [placeableWith, place_bind, token_bind_ok] at h
  obtain ⟨hopen, h⟩ := h
  rw [skipBlank_bind] at h
  obtain ⟨e, m, he, h⟩ := bind_eq_ok.1 h
  obtain ⟨hclose, h⟩ := token_bind_ok.1 h
  obtain ⟨rfl, rfl⟩ := by simpa using h
  exact ⟨e, m, hopen, he, hclose, rfl, rfl⟩

theorem inlineWith_ok {e : Inline} (h : inlineWith nested c = .ok (e, d)) :
    (∃ n, c.startsNumber ∧ number c = .ok (n, d) ∧ e = .literal (.number n)) ∨
    (∃ p, placeableWith nested c = .ok (p, d) ∧ e = .placeable p) ∨
    (∃ s, stringLiteral c = .ok (s, d) ∧ e = .literal (.string s)) ∨
    (c.peek = some '$' ∧ variableRef c = .ok (e, d)) ∨
    (c.peek = some '-' ∧ termRef nested c = .ok (e, d)) ∨
    callOrMessageRef nested c = .ok (e, d) := by
  rw [inlineWith, place_bind, ite_apply] at h
  split at h
  · next hnumber =>
    obtain ⟨n, m, hn, h⟩ := bind_eq_ok.1 h
    obtain ⟨rfl, rfl⟩ := by simpa using h
    exact .inl ⟨n, hnumber, hn, rfl⟩
  · generalize hpeek : c.peek = first at h ⊢
    split at h
    · obtain ⟨p, m, hp, h⟩ := bind_eq_ok.1 h
      obtain ⟨rfl, rfl⟩ := by simpa using h
      exact .inr (.inl ⟨p, hp, rfl⟩)
    · obtain ⟨s, m, hs, h⟩ := bind_eq_ok.1 h
      obtain ⟨rfl, rfl⟩ := by simpa using h
      exact .inr (.inr (.inl ⟨s, hs, rfl⟩))
    · exact .inr (.inr (.inr (.inl ⟨rfl, h⟩)))
    · exact .inr (.inr (.inr (.inr (.inl ⟨rfl, h⟩))))
    · rw [ite_apply] at h
      split at h
      · exact .inr (.inr (.inr (.inr (.inr h))))
      · simp at h
    · simp at h

/-- The parsers for what may stand inside a construct that has `size` characters in front of it. -/
def within (size : Nat) : Nested where
  inline := below size fun c _ => inline c
  placeable := below size fun c _ => Parser.placeable c

theorem within_inline_ok {size : Nat} {r : Inline × Cursor} :
    (within size).inline c = .ok r ↔ c.rest.length < size ∧ inline c = .ok r := by
  simp [within, below_ok]

theorem within_placeable_ok {size : Nat} {r : Placeable × Cursor} :
    (within size).placeable c = .ok r ↔ c.rest.length < size ∧ Parser.placeable c = .ok r := by
  simp [within, below_ok]

theorem inline_eq (c : Cursor) : inline c = inlineWith (within c.rest.length) c := by
  rw [inline]; rfl

theorem placeable_eq (c : Cursor) :
    Parser.placeable c = placeableWith (within c.rest.length) c := by
  rw [Parser.placeable]; rfl

/-- What every construct has if the shorter texts nested in it have it. -/
theorem nested_induction {P : Cursor → Except SyntaxError (Inline × Cursor) → Prop}
    {Q : Cursor → Except SyntaxError (Placeable × Cursor) → Prop}
    (hinline : ∀ c : Cursor, (∀ d : Cursor, d.rest.length < c.rest.length →
      P d (inline d) ∧ Q d (Parser.placeable d)) → P c (inlineWith (within c.rest.length) c))
    (hplaceable : ∀ c : Cursor, (∀ d : Cursor, d.rest.length < c.rest.length →
      P d (inline d) ∧ Q d (Parser.placeable d)) → Q c (placeableWith (within c.rest.length) c))
    (c : Cursor) : P c (inline c) ∧ Q c (Parser.placeable c) := by
  rw [inline_eq, placeable_eq]
  have hshorter : ∀ d : Cursor, d.rest.length < c.rest.length →
      P d (inline d) ∧ Q d (Parser.placeable d) :=
    fun d _ => nested_induction hinline hplaceable d
  exact ⟨hinline c hshorter, hplaceable c hshorter⟩
termination_by c.rest.length

-- ---------------------------------------------------------------------------
-- Entries
-- ---------------------------------------------------------------------------

theorem commentLine_ok {level : CommentLevel} {line : String}
    (h : commentLine level c = .ok (line, d)) :
    (line = "" ∧ d = c.advance level.markers ∧ (d.rest = [] ∨ d.peek = some '\n')) ∨
      ((c.advance level.markers).peek = some ' ' ∧
        line = String.ofList ((c.advance level.markers).next.rest.takeWhile (· ≠ '\n')) ∧
        d = (c.advance level.markers).next.skipWhile (· ≠ '\n')) := by
  rw [commentLine, skip_bind, peek_bind] at h
  generalize hpeek : (c.advance level.markers).peek = first at h ⊢
  split at h
  · obtain ⟨rfl, rfl⟩ := by simpa using h
    exact .inl ⟨rfl, rfl, .inl (by simpa [Cursor.peek] using hpeek)⟩
  · obtain ⟨rfl, rfl⟩ := by simpa using h
    exact .inl ⟨rfl, rfl, .inr hpeek⟩
  · rw [skip_bind, takeWhile_apply] at h
    obtain ⟨rfl, rfl⟩ := by simpa only [Except.ok.injEq, Prod.mk.injEq] using h
    exact .inr ⟨rfl, rfl, rfl⟩
  · simp at h

theorem comment_ok {e : Entry} (h : comment c = .ok (e, d)) :
    ∃ level first m lines, level = CommentLevel.ofLine c.rest ∧
      commentLine level c = .ok (first, m) ∧
      gather (fun _ c => c.continuesComment level) (fun _ => nextCommentLine level) [first] m =
        .ok (lines, d) ∧
      e = .comment level ⟨"\n".intercalate lines, c.spanTo d⟩ := by
  rw [comment, place_bind] at h
  obtain ⟨first, m, hfirst, h⟩ := bind_eq_ok.1 h
  obtain ⟨lines, m', hlines, h⟩ := bind_eq_ok.1 h
  obtain ⟨rfl, rfl⟩ := by simpa using h
  exact ⟨_, first, m, lines, rfl, hfirst, hlines, rfl⟩

theorem equalsSign_bind_ok {f : Unit → Parser β} {r : β × Cursor} :
    (equalsSign >>= f) c = .ok r ↔ c.skipSpaces.peek = some '=' ∧ f () c.skipSpaces.next = .ok r := by
  rw [equalsSign, bind_assoc, skipSpaces_bind, token_bind_ok]

theorem attributeLine_ok {a : Attribute} (h : attributeLine c = .ok (a, d)) :
    ∃ id m value, identifier c.skipBlank.next = .ok (id, m) ∧ m.skipSpaces.peek = some '=' ∧
      requiredPattern Parser.placeable m.skipSpaces.next = .ok (value, d) ∧
      a = ⟨id, value, c.skipBlank.spanTo d⟩ := by
  rw [attributeLine, skipBlank_bind, place_bind, skip_bind] at h
  obtain ⟨id, m, hid, h⟩ := bind_eq_ok.1 h
  obtain ⟨hequals, h⟩ := equalsSign_bind_ok.1 h
  obtain ⟨value, m', hvalue, h⟩ := bind_eq_ok.1 h
  obtain ⟨rfl, rfl⟩ := by simpa using h
  exact ⟨id, m, value, hid, hequals, hvalue, rfl⟩

theorem message_ok {e : Entry} (h : message c = .ok (e, d)) :
    ∃ id m value m' attrs, identifier c = .ok (id, m) ∧ m.skipSpaces.peek = some '=' ∧
      pattern? Parser.placeable m.skipSpaces.next = .ok (value, m') ∧
      attributes m' = .ok (attrs, d) ∧ ¬ (value = none ∧ attrs = []) ∧
      e = .message ⟨id, value, attrs, none, c.spanTo d⟩ := by
  rw [message, place_bind] at h
  obtain ⟨id, m, hid, h⟩ := bind_eq_ok.1 h
  obtain ⟨hequals, h⟩ := equalsSign_bind_ok.1 h
  obtain ⟨value, m', hvalue, h⟩ := bind_eq_ok.1 h
  obtain ⟨attrs, m'', hattrs, h⟩ := bind_eq_ok.1 h
  rw [spanFrom_bind, ite_apply] at h
  split at h
  · simp at h
  · next hfield =>
    obtain ⟨rfl, rfl⟩ := by simpa using h
    exact ⟨id, m, value, m', attrs, hid, hequals, hvalue, hattrs, by simpa using hfield, rfl⟩

theorem term_ok {e : Entry} (h : term c = .ok (e, d)) :
    ∃ id m value m' attrs, identifier c.next = .ok (id, m) ∧ m.skipSpaces.peek = some '=' ∧
      pattern? Parser.placeable m.skipSpaces.next = .ok (some value, m') ∧
      attributes m' = .ok (attrs, d) ∧ e = .term ⟨id, value, attrs, none, c.spanTo d⟩ := by
  rw [term, place_bind, skip_bind] at h
  obtain ⟨id, m, hid, h⟩ := bind_eq_ok.1 h
  obtain ⟨hequals, h⟩ := equalsSign_bind_ok.1 h
  obtain ⟨value, m', hvalue, h⟩ := bind_eq_ok.1 h
  cases value with
  | none => simp at h
  | some value =>
    obtain ⟨attrs, m'', hattrs, h⟩ := bind_eq_ok.1 h
    obtain ⟨rfl, rfl⟩ := by simpa using h
    exact ⟨id, m, value, m', attrs, hid, hequals, hvalue, hattrs, rfl⟩

theorem entry_ok {e : Entry} (h : entry c = .ok (e, d)) :
    c.peek = some '#' ∧ comment c = .ok (e, d) ∨ c.peek = some '-' ∧ term c = .ok (e, d) ∨
      message c = .ok (e, d) := by
  rw [entry, peek_bind] at h
  generalize hpeek : c.peek = first at h ⊢
  split at h
  · exact .inl ⟨rfl, h⟩
  · exact .inr (.inl ⟨rfl, h⟩)
  · rw [ite_apply] at h
    split at h
    · exact .inr (.inr h)
    · simp at h
  · simp at h

theorem block_ok {b : Block} (h : block c = .ok (b, d)) :
    ∃ m, entry c = .ok (b.entry, m) ∧ (m.rest = [] ∨ m.peek = some '\n') ∧
      d = m.next.skipBlankLines.2 ∧
      (b.touchesNext ↔ m.next.skipBlankLines.1 = 0 ∧ d.rest ≠ []) := by
  obtain ⟨e, m, he, h⟩ := bind_eq_ok.1 h
  obtain ⟨hend, h⟩ := lineEnd_bind_ok.1 h
  rw [skipBlankLines_bind, place_bind] at h
  obtain ⟨rfl, rfl⟩ := by simpa only [pure_apply, Except.ok.injEq, Prod.mk.injEq] using h
  exact ⟨m, he, hend, rfl, by simp [Cursor.atEnd]⟩

end Parser

theorem Resource.parse_blocks {source : String} {r : Resource} (h : Resource.parse source = .ok r) :
    ∃ blocks d, Parser.blocks (.ofString source) = .ok (blocks, d) ∧
      r = ⟨Block.attach blocks, ⟨0, d.offset⟩⟩ := by
  unfold Resource.parse at h
  split at h
  · next blocks d hblocks => exact ⟨blocks, d, hblocks, by simpa [eq_comm] using h⟩
  · simp at h

theorem Resource.parse_ok {source : String} {r : Resource} (h : Resource.parse source = .ok r) :
    ∃ blocks d, Parser.gather (fun _ c => !c.atEnd) (fun _ => Parser.block) []
        (Cursor.ofString source).skipBlankLines.2 = .ok (blocks, d) ∧
      r = ⟨Block.attach blocks, ⟨0, d.offset⟩⟩ := by
  obtain ⟨blocks, d, hblocks, hr⟩ := parse_blocks h
  rw [Parser.blocks, Parser.skipBlankLines_bind] at hblocks
  exact ⟨blocks, d, hblocks, hr⟩

end MessageLint
