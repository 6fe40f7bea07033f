-- SUMMARY: Names, numbers, quoted texts and keys are recovered from their texts.
import MessageLint.Proofs.Canonical.Text
import MessageLint.Proofs.Quoted

/-!
# Recovery of words

Names and numbers are runs of characters, so all that has to be known of what follows is that it does
not go on with the run. A quoted text ends by itself.
-/

namespace MessageLint

namespace Parser

variable {rest : List Char}

-- ---------------------------------------------------------------------------
-- Names and numbers
-- ---------------------------------------------------------------------------

theorem identifier_recovers {id : Identifier} (hid : id.Canonical) (hrest : Stops isNameChar rest) :
    identifier.Recovers (·.respan .forget) id id.render rest := by
  obtain ⟨name, span⟩ := id
  unfold Identifier.Canonical at hid
  unfold Identifier.render
  cases hname : name.toList with
  | nil => simp [IsName, hname] at hid
  | cons first tail =>
    simp only [IsName, hname] at hid
    have hall : ∀ ch ∈ first :: tail, isNameChar ch := by
      simp only [List.mem_cons, forall_eq_or_imp]
      exact ⟨by simp [isNameChar, Char.isAlphanum, hid.1], hid.2⟩
    refine .place_bind fun start hstart => ?_
    have hpeek : start.peek = some first := by simp [Cursor.peek, hstart]
    simp only [hpeek, hid.1, if_true]
    refine .bind_last (.takeWhile hall hrest) fun name' hname' => ?_
    refine .spanFrom_bind fun _ => .pure ?_
    obtain rfl : name' = name := by simpa [← hname] using hname'
    rfl

theorem digits_recovers {run : List Char} (hrun : IsDigits run) (hrest : Stops Char.isDigit rest) :
    digits.Recovers id (String.ofList run) run rest := by
  refine .bind_last (.takeWhile hrun.2 hrest) fun run' hrun' => ?_
  obtain rfl : run' = String.ofList run := hrun'
  rw [if_neg (by simpa using hrun.1)]
  exact .pure rfl

/-- What may stand behind a number: nothing that goes on with it. -/
def EndsNumber (rest : List Char) : Prop := Stops (fun ch => ch.isDigit || ch == '.') rest

/-- The digits of a number, behind its sign. -/
private theorem unsigned_recovers {start : Cursor} {sign whole fraction : List Char} {span : Span}
    (hwhole : IsDigits whole)
    (hfraction : fraction = [] ∨ ∃ run, fraction = '.' :: run ∧ IsDigits run)
    (hrest : EndsNumber rest) :
    (do
      let run ← digits
      if (← peek) = some '.' then
        skip 1
        let decimals ← digits
        return ⟨String.ofList sign ++ run ++ "." ++ decimals, ← spanFrom start⟩
      else
        return ⟨String.ofList sign ++ run, ← spanFrom start⟩ : Parser NumberLiteral).Recovers
      (·.respan .forget) ⟨String.ofList (sign ++ (whole ++ fraction)), span⟩ (whole ++ fraction)
      rest := by
  have hdigit : Stops Char.isDigit rest := fun ch hch => by
    have := hrest ch hch
    simp_all
  rcases hfraction with rfl | ⟨run, rfl, hrun⟩
  · refine .bind (digits_recovers hwhole hdigit) fun run' hrun' => .peek_bind ?_
    obtain rfl : run' = String.ofList whole := hrun'
    have hdot : ([] ++ rest).head? ≠ some '.' := fun hch => by simpa using hrest _ hch
    rw [if_neg hdot]
    refine .spanFrom_bind fun _ => .pure ?_
    simp [NumberLiteral.respan]
  · refine .bind (digits_recovers hwhole (by simp)) fun run' hrun' => .peek_bind ?_
    obtain rfl : run' = String.ofList whole := hrun'
    rw [List.cons_append, List.head?_cons, if_pos rfl]
    refine .skip_one_bind (.bind_last (digits_recovers hrun hdigit) fun decimals hdecimals => ?_)
    obtain rfl : decimals = String.ofList run := hdecimals
    refine .spanFrom_bind fun _ => .pure ?_
    have hdot : String.ofList ('.' :: run) = "." ++ String.ofList run := String.ofList_cons ..
    simp [NumberLiteral.respan, hdot, String.append_assoc]

theorem number_recovers {n : NumberLiteral} (hn : IsNumber n.value.toList) (hrest : EndsNumber rest) :
    number.Recovers (·.respan .forget) n n.value.toList rest := by
  obtain ⟨value, span⟩ := n
  obtain ⟨sign, whole, fraction, htext, hsign, hwhole, hfraction⟩ := hn
  simp only at htext ⊢
  obtain rfl : value = String.ofList (sign ++ (whole ++ fraction)) := by simp [← htext]
  rw [String.toList_ofList]
  refine .place_bind fun start hstart => ?_
  rcases hsign with rfl | rfl
  · have hpeek : start.peek ≠ some '-' := by
      obtain ⟨ch, whole, rfl⟩ := List.exists_cons_of_ne_nil hwhole.1
      have hch : ch.isDigit := hwhole.2 ch List.mem_cons_self
      intro heq
      obtain rfl : ch = '-' := by simpa [Cursor.peek, hstart] using heq
      exact absurd hch (by decide)
    rw [if_neg hpeek]
    exact unsigned_recovers hwhole hfraction hrest
  · rw [if_pos (by simp [Cursor.peek, hstart])]
    exact .skip_one_bind (unsigned_recovers hwhole hfraction hrest)

-- ---------------------------------------------------------------------------
-- Quoted texts
-- ---------------------------------------------------------------------------

theorem renderQuoted_spells (ch : Char) : SpellsChar (renderQuoted ch) ch := by
  unfold renderQuoted
  split
  · next hquote => exact hquote ▸ .quote
  split
  · next hslash => exact hslash ▸ .backslash
  split
  · next hline =>
    subst hline
    exact .short ⟨rfl, 10, writesHex_iff.2 ⟨by simp [hexDigit?], rfl⟩, numbers_iff.2 rfl⟩
  · next hquote hslash hline => exact .plain hquote hslash hline

theorem flatMap_renderQuoted_spells (value : List Char) :
    Spells (value.flatMap renderQuoted) value := by
  refine ⟨value.map renderQuoted, ?_, List.flatMap_def⟩
  rw [List.forall₂_map_left_iff]
  exact List.forall₂_same.2 fun ch _ => renderQuoted_spells ch

/-- A quoted text is recovered from the way its characters are written. -/
theorem quoted_recovers {s : StringLiteral} :
    stringLiteral.Recovers (·.respan .forget) s
      ('"' :: (s.value.toList.flatMap renderQuoted ++ ['"'])) rest :=
  stringLiteral_recovers (flatMap_renderQuoted_spells _)

-- ---------------------------------------------------------------------------
-- Literals and keys
-- ---------------------------------------------------------------------------

theorem startsNumber_of_isNumber {c : Cursor} {text : List Char} (h : IsNumber text)
    (hc : c.rest = text ++ rest) : c.startsNumber := by
  obtain ⟨sign, whole, fraction, rfl, hsign, ⟨hne, hdigit⟩, -⟩ := h
  obtain ⟨ch, run, rfl⟩ := List.exists_cons_of_ne_nil hne
  have hch : ch.isDigit := hdigit ch List.mem_cons_self
  unfold Cursor.startsNumber
  rw [hc]
  rcases hsign with rfl | rfl
  · simp only [List.nil_append, List.cons_append]
    split
    · next heq =>
      obtain ⟨rfl, -⟩ := List.cons.inj heq
      exact absurd hch (by decide)
    · next heq =>
      obtain ⟨rfl, -⟩ := List.cons.inj heq
      exact hch
    · next heq => simp at heq
  · exact hch

theorem startsNumber_eq_false {c : Cursor} {ch : Char} {tail : List Char}
    (hc : c.rest = ch :: tail) (hdash : ch ≠ '-') (hch : ch.isDigit = false) :
    c.startsNumber = false := by
  unfold Cursor.startsNumber
  rw [hc]
  split
  · next heq => exact absurd (List.cons.inj heq).1 hdash
  · next heq => exact (List.cons.inj heq).1 ▸ hch
  · rfl

theorem literal_recovers {l : Literal} (hl : l.Canonical) (hrest : EndsNumber rest) :
    literal.Recovers (·.respan .forget) l l.render rest := by
  refine .place_bind fun start hstart => ?_
  cases l with
  | number n =>
    rw [if_pos (startsNumber_of_isNumber hl hstart)]
    refine .bind_last (number_recovers hl hrest) fun n' hn' => .pure ?_
    exact congrArg Literal.number hn'
  | string s =>
    have hnumber : start.startsNumber = false := startsNumber_eq_false hstart (by decide) (by decide)
    have hpeek : start.peek = some '"' := by simp [Cursor.peek, hstart, Literal.render]
    rw [hnumber, if_neg (by decide), if_pos hpeek]
    refine .bind_last quoted_recovers fun s' hs' => .pure ?_
    exact congrArg Literal.string hs'

theorem startsNumber_of_isName {c : Cursor} {text : List Char} (h : IsName text)
    (hc : c.rest = text ++ rest) : c.startsNumber = false := by
  obtain ⟨first, tail, rfl, halpha⟩ := exists_head_of_isName h
  refine startsNumber_eq_false hc ?_ (isDigit_of_isAlpha halpha)
  rintro rfl
  exact absurd halpha (by decide)

/-- What may stand behind a name or a number: nothing that goes on with it. -/
def EndsWord (rest : List Char) : Prop := Stops (fun ch => isNameChar ch || ch == '.') rest

theorem EndsWord.stops (h : EndsWord rest) : Stops isNameChar rest := fun ch hch => by
  have := h ch hch
  simp_all

theorem EndsWord.endsNumber (h : EndsWord rest) : EndsNumber rest := fun ch hch => by
  have := h ch hch
  simp_all [isNameChar, Char.isAlphanum]

theorem EndsWord.head (h : EndsWord rest) : rest.head? ≠ some '.' := fun hch => by
  simpa using h _ hch

theorem variantKey_recovers {key : VariantKey} (hkey : key.Canonical) (hrest : EndsWord rest) :
    variantKey.Recovers (·.respan .forget) key key.render rest := by
  refine .place_bind fun start hstart => ?_
  cases key with
  | number n =>
    rw [if_pos (startsNumber_of_isNumber hkey hstart)]
    refine .bind_last (number_recovers hkey hrest.endsNumber) fun n' hn' => .pure ?_
    exact congrArg VariantKey.number hn'
  | name id =>
    rw [startsNumber_of_isName hkey hstart, if_neg (by decide)]
    refine .bind_last (identifier_recovers hkey hrest.stops) fun id' hid' => .pure ?_
    exact congrArg VariantKey.name hid'

end Parser

end MessageLint
