-- SUMMARY: The checks of typography, said line by line and without matching.
import MessageLint.Proofs.Canonical.Entry
import MessageLint.Proofs.Lint.Independence

/-!
# Typography, line by line

The checks look for quotations from left to right and blank them out; a quotation reaches as far as its
line allows. `Offends` says what the rules forbid without any of this: which characters stand on one
line, and what they stand between. No quotation goes over the end of a line, so every check can be taken
apart into its lines (`any_lines`). On one line all quotes but an adjacent pair are either one alone,
which is what an apostrophe is, or part of the one quotation from the first quote to the last.
-/

namespace MessageLint.Typography

variable {mark quote ch : Char} {a b line text rest : List Char}

-- ---------------------------------------------------------------------------
-- What the rules forbid
-- ---------------------------------------------------------------------------

/-- `mark` occurs between two word characters. -/
def BetweenWords (mark : Char) (text : List Char) : Prop :=
  ∃ before after, isWordChar before ∧ isWordChar after ∧ [before, mark, after] <:+: text

/-- Two of `quote` occur, with at least one character between them. -/
def Encloses (quote : Char) (text : List Char) : Prop :=
  ∃ inner, inner ≠ [] ∧ quote :: (inner ++ [quote]) <:+: text

/-- What the rules of typography forbid in a visible run. -/
def Offends (run : List Char) : Rule → Prop
  | .straightApostrophe => ∃ line ∈ run.splitOn '\n', line.count '\'' = 1 ∧ BetweenWords '\'' line
  | .wrongCurlyApostrophe => BetweenWords '\u2018' run
  | .straightSingleQuotes => ∃ line ∈ run.splitOn '\n', Encloses '\'' line
  | .straightDoubleQuotes => ∃ line ∈ run.splitOn '\n', Encloses '"' line
  | .threeDotEllipsis => ['.', '.', '.'] <:+: run
  | _ => False

-- ---------------------------------------------------------------------------
-- Marks between words
-- ---------------------------------------------------------------------------

theorem betweenWords_cons : BetweenWords mark (ch :: text) ↔
    (isWordChar ch ∧ ∃ after rest, text = mark :: after :: rest ∧ isWordChar after) ∨
      BetweenWords mark text := by
  constructor
  · rintro ⟨before, after, hbefore, hafter, hwithin⟩
    rcases List.infix_cons_iff.1 hwithin with ⟨rest, hprefix⟩ | hwithin
    · obtain ⟨rfl, rfl⟩ := List.cons.inj hprefix
      exact .inl ⟨hbefore, after, rest, rfl, hafter⟩
    · exact .inr ⟨before, after, hbefore, hafter, hwithin⟩
  · rintro (⟨hch, after, rest, rfl, hafter⟩ | ⟨before, after, hbefore, hafter, hwithin⟩)
    · exact ⟨ch, after, hch, hafter, [], rest, rfl⟩
    · exact ⟨before, after, hbefore, hafter, List.infix_cons hwithin⟩

theorem BetweenWords.mem (h : BetweenWords mark text) : mark ∈ text := by
  obtain ⟨before, after, -, -, hwithin⟩ := h
  exact hwithin.subset (by simp)

theorem hasBetweenWords_iff : hasBetweenWords mark text ↔ BetweenWords mark text := by
  fun_induction hasBetweenWords mark text with
  | case1 a m b r ih =>
    rw [betweenWords_cons, ← ih]
    simp only [Bool.or_eq_true, Bool.and_eq_true, beq_iff_eq, List.cons.injEq]
    constructor
    · rintro (⟨⟨ha, rfl⟩, hb⟩ | h)
      · exact .inl ⟨ha, b, r, ⟨rfl, rfl, rfl⟩, hb⟩
      · exact .inr h
    · rintro (⟨ha, after, rest, ⟨rfl, rfl, rfl⟩, hb⟩ | h)
      · exact .inl ⟨⟨ha, rfl⟩, hb⟩
      · exact .inr h
  | case2 text hshort =>
    refine iff_of_false (by simp) ?_
    rintro ⟨before, after, -, -, s, t, rfl⟩
    cases s with
    | nil => exact hshort _ _ _ _ rfl
    | cons c s =>
      cases s with
      | nil => exact hshort _ _ _ _ rfl
      | cons d s =>
        cases s with
        | nil => exact hshort _ _ _ _ rfl
        | cons e s => exact hshort _ _ _ _ rfl

/-- A line end is no word character, so nothing stands between words across it. -/
theorem hasBetweenWords_line (hmark : mark ≠ '\n') (a b : List Char) :
    hasBetweenWords mark (a ++ '\n' :: b) = (hasBetweenWords mark a || hasBetweenWords mark b) := by
  have hline : isWordChar '\n' = false := by decide
  rw [Bool.eq_iff_iff, Bool.or_eq_true]
  simp only [hasBetweenWords_iff]
  induction a with
  | nil =>
    rw [List.nil_append, betweenWords_cons, hline]
    simp [BetweenWords]
  | cons ch a ih =>
    rw [List.cons_append, betweenWords_cons, betweenWords_cons, ih, or_assoc]
    refine or_congr_left' fun _ => and_congr_right fun _ => ?_
    rcases a with _ | ⟨m, _ | ⟨d, a⟩⟩
    · simp [hmark.symm]
    · simp [hline]
    · simp

-- ---------------------------------------------------------------------------
-- Quotations
-- ---------------------------------------------------------------------------

/-- On one line nothing is found without a quote, and otherwise what stands behind the last one. -/
theorem behindLast?_line (quote : Char) (hline : '\n' ∉ line) :
    quote ∉ line ∧ behindLast? quote line = none ∨
      ∃ inner rest, line = inner ++ quote :: rest ∧ quote ∉ rest ∧
        behindLast? quote line = some rest := by
  induction line with
  | nil => exact .inl ⟨List.not_mem_nil, rfl⟩
  | cons ch line ih =>
    obtain ⟨hch, hline⟩ := List.ne_and_not_mem_of_not_mem_cons hline
    rcases ih hline with ⟨hnone, hlast⟩ | ⟨inner, rest, rfl, hrest, hlast⟩
    · by_cases hquote : ch = quote
      · subst hquote
        exact .inr ⟨[], line, rfl, hnone, by simp [behindLast?, hch.symm, hlast]⟩
      · exact .inl ⟨by simp [hnone, Ne.symm hquote], by simp [behindLast?, hch.symm, hlast, hquote]⟩
    · exact .inr ⟨ch :: inner, rest, rfl, hrest, by simp [behindLast?, hch.symm, hlast]⟩

/-- On one line a quotation runs from the quote that opens it to the last quote. -/
theorem behindQuotation?_line (hline : '\n' ∉ line) (h : behindQuotation? quote line = some rest) :
    ∃ inner, inner ≠ [] ∧ line = quote :: (inner ++ quote :: rest) ∧ quote ∉ rest := by
  rcases line with _ | ⟨opening, _ | ⟨ch, line⟩⟩
  · simp [behindQuotation?] at h
  · simp [behindQuotation?] at h
  · simp only [List.mem_cons, not_or] at hline
    rw [behindQuotation?, Option.ite_none_right_eq_some] at h
    obtain ⟨⟨rfl, -⟩, h⟩ := h
    rcases behindLast?_line opening hline.2.2 with ⟨-, hnone⟩ | ⟨inner, rest', rfl, hrest, hsome⟩
    · rw [hnone] at h
      cases h
    · obtain rfl : rest' = rest := Option.some.inj (hsome.symm.trans h)
      exact ⟨ch :: inner, List.cons_ne_nil _ _, rfl, hrest⟩

theorem isSome_behindQuotation? (hline : '\n' ∉ line) : (behindQuotation? quote line).isSome ↔
    ∃ inner, inner ≠ [] ∧ quote :: (inner ++ [quote]) <+: line := by
  constructor
  · intro h
    obtain ⟨rest, hrest⟩ := Option.isSome_iff_exists.1 h
    obtain ⟨inner, hinner, rfl, -⟩ := behindQuotation?_line hline hrest
    exact ⟨inner, hinner, rest, by simp⟩
  · rintro ⟨inner, hinner, rest, rfl⟩
    obtain ⟨ch, inner, rfl⟩ := List.exists_cons_of_ne_nil hinner
    simp only [List.cons_append, List.mem_cons, not_or] at hline
    rcases behindLast?_line quote hline.2.2 with ⟨hnone, -⟩ | ⟨_, _, -, -, hsome⟩
    · simp at hnone
    · simpa [behindQuotation?, Ne.symm hline.2.1] using congrArg Option.isSome hsome

theorem behindLast?_append (hline : '\n' ∉ line) (rest : List Char) :
    behindLast? quote (line ++ '\n' :: rest) = (behindLast? quote line).map (· ++ '\n' :: rest) := by
  induction line with
  | nil => simp [behindLast?]
  | cons ch line ih =>
    obtain ⟨hch, hline⟩ := List.ne_and_not_mem_of_not_mem_cons hline
    rw [List.cons_append, behindLast?, behindLast?, ih hline, if_neg hch.symm, if_neg hch.symm]
    cases behindLast? quote line with
    | none => by_cases hquote : ch = quote <;> simp [hquote]
    | some behind => rfl

/-- A quotation ends on the line where it opens. -/
theorem behindQuotation?_append (hquote : quote ≠ '\n') (hline : '\n' ∉ line) (rest : List Char) :
    behindQuotation? quote (line ++ '\n' :: rest) =
      (behindQuotation? quote line).map (· ++ '\n' :: rest) := by
  rcases line with _ | ⟨opening, _ | ⟨ch, line⟩⟩
  · cases rest <;> simp [behindQuotation?, hquote.symm]
  · simp [behindQuotation?]
  · obtain ⟨-, hline⟩ := List.ne_and_not_mem_of_not_mem_cons hline
    obtain ⟨hch, hline⟩ := List.ne_and_not_mem_of_not_mem_cons hline
    simp only [List.cons_append, behindQuotation?, behindLast?_append hline]
    split <;> rfl

theorem hasQuotation_append (hquote : quote ≠ '\n') (hline : '\n' ∉ line) (rest : List Char) :
    hasQuotation quote (line ++ '\n' :: rest) =
      (hasQuotation quote line || hasQuotation quote rest) := by
  induction line with
  | nil =>
    have hnone : behindQuotation? quote ('\n' :: rest) = none :=
      behindQuotation?_append hquote hline rest
    simp only [List.nil_append, hasQuotation, hnone, Option.isSome_none, Bool.false_or]
  | cons ch line ih =>
    have hsome := behindQuotation?_append hquote hline rest
    obtain ⟨-, hline⟩ := List.ne_and_not_mem_of_not_mem_cons hline
    rw [List.cons_append] at hsome ⊢
    rw [hasQuotation, hasQuotation, hsome, ih hline, Option.isSome_map, Bool.or_assoc]

-- Blanking out

theorem blankQuotations_nil : blankQuotations quote [] = [] := by
  unfold blankQuotations
  rfl

theorem blankQuotations_of_some (h : behindQuotation? quote text = some rest) :
    blankQuotations quote text = placeholder :: blankQuotations quote rest := by
  rw [blankQuotations]
  split <;> simp_all

theorem blankQuotations_of_none (h : behindQuotation? quote (ch :: text) = none) :
    blankQuotations quote (ch :: text) = ch :: blankQuotations quote text := by
  rw [blankQuotations]
  split <;> simp_all

theorem blankQuotations_append (hquote : quote ≠ '\n') (hline : '\n' ∉ line) (rest : List Char) :
    blankQuotations quote (line ++ '\n' :: rest) =
      blankQuotations quote line ++ '\n' :: blankQuotations quote rest := by
  have hopening {text : List Char} (htext : '\n' ∉ text) := behindQuotation?_append hquote htext rest
  fun_induction blankQuotations quote line with
  | case1 text behind hbehind _ ih =>
    obtain ⟨inner, -, rfl, -⟩ := behindQuotation?_line hline hbehind
    have hlast : '\n' ∉ behind := fun hmem => hline (by simp [hmem])
    rw [blankQuotations_of_some (by rw [hopening hline, hbehind]; rfl), ih hlast, List.cons_append]
  | case2 hnone =>
    exact blankQuotations_of_none (by simpa [hnone] using hopening hline)
  | case3 ch text hnone ih =>
    rw [List.cons_append, blankQuotations_of_none (by simpa [hnone] using hopening hline),
      ih (List.not_mem_of_not_mem_cons hline), List.cons_append]

-- On one line

theorem hasQuotation_line (hline : '\n' ∉ line) : hasQuotation quote line ↔ Encloses quote line := by
  induction line with
  | nil => simp [hasQuotation, Encloses]
  | cons ch line ih =>
    rw [hasQuotation, Bool.or_eq_true, isSome_behindQuotation? hline,
      ih (List.not_mem_of_not_mem_cons hline)]
    simp only [Encloses, List.infix_cons_iff, and_or_left, exists_or]

/-- Where a quotation is found later on the line, an earlier quote opens one. -/
theorem Encloses.opens (h : Encloses quote text) :
    ∃ inner, inner ≠ [] ∧ quote :: (inner ++ [quote]) <+: quote :: text := by
  obtain ⟨inner, -, before, after, rfl⟩ := h
  exact ⟨before ++ quote :: inner, by simp, after, by simp⟩

theorem Encloses.two_le_count (h : Encloses quote text) : 2 ≤ text.count quote := by
  obtain ⟨inner, -, hwithin⟩ := h
  have hcount := hwithin.sublist.count_le quote
  rw [List.count_cons_self, List.count_append, List.count_singleton_self] at hcount
  omega

/-- A line without a quotation is left as it is. -/
theorem blankQuotations_of_not_encloses (hline : '\n' ∉ line) (h : ¬Encloses quote line) :
    blankQuotations quote line = line := by
  rw [← hasQuotation_line hline, Bool.not_eq_true] at h
  induction line with
  | nil => exact blankQuotations_nil
  | cons ch line ih =>
    rw [hasQuotation, Bool.or_eq_false_iff, Option.isSome_eq_false_iff, Option.isNone_iff_eq_none] at h
    rw [blankQuotations_of_none h.1, ih (List.not_mem_of_not_mem_cons hline) h.2]

/-- All quotes of a line go with its one quotation. -/
theorem not_mem_blankQuotations (hquote : quote ≠ placeholder) (hline : '\n' ∉ line)
    (h : Encloses quote line) : quote ∉ blankQuotations quote line := by
  rw [← hasQuotation_line hline] at h
  induction line with
  | nil => cases h
  | cons ch line ih =>
    cases hopens : behindQuotation? quote (ch :: line) with
    | some rest =>
      obtain ⟨inner, -, hsplit, hrest⟩ := behindQuotation?_line hline hopens
      have hline' : '\n' ∉ rest := fun hmem => hline (by simp [hsplit, hmem])
      have hplain : ¬Encloses quote rest := fun ⟨_, _, hwithin⟩ => hrest (hwithin.subset (by simp))
      rw [blankQuotations_of_some hopens, blankQuotations_of_not_encloses hline' hplain]
      simp [hquote, hrest]
    | none =>
      rw [hasQuotation, hopens, Option.isSome_none, Bool.false_or] at h
      have hline' := List.not_mem_of_not_mem_cons hline
      rw [blankQuotations_of_none hopens, List.mem_cons, not_or]
      refine ⟨?_, ih hline' h⟩
      rintro rfl
      have hsome := (isSome_behindQuotation? hline).2 ((hasQuotation_line hline').1 h).opens
      rw [hopens] at hsome
      cases hsome

/-- On a line without a quotation, a quote between words is the only quote. -/
theorem BetweenWords.count_eq_one (hquote : isWordChar quote = false) (h : BetweenWords quote line)
    (hplain : ¬Encloses quote line) : line.count quote = 1 := by
  obtain ⟨x, y, hx, hy, before, after, rfl⟩ := h
  have hne : ∀ ch, isWordChar ch → ch ≠ quote := by
    rintro ch hch rfl
    rw [hquote] at hch
    cases hch
  have hbefore : quote ∉ before := fun hmem => by
    obtain ⟨first, last, rfl⟩ := List.append_of_mem hmem
    exact hplain ⟨last ++ [x], by simp, first, y :: after, by simp⟩
  have hafter : quote ∉ after := fun hmem => by
    obtain ⟨first, last, rfl⟩ := List.append_of_mem hmem
    exact hplain ⟨y :: first, by simp, before ++ [x], last, by simp⟩
  simp [List.count_eq_zero.2 hbefore, List.count_eq_zero.2 hafter, hne x hx, hne y hy]

/-- What is left between words once quotations are blanked out is a lone quote. -/
theorem betweenWords_blankQuotations (hquote : isWordChar quote = false)
    (hplaceholder : quote ≠ placeholder) (hline : '\n' ∉ line) :
    BetweenWords quote (blankQuotations quote line) ↔
      line.count quote = 1 ∧ BetweenWords quote line := by
  by_cases h : Encloses quote line
  · have hcount := h.two_le_count
    refine iff_of_false (fun hbetween => ?_) fun hlone => by omega
    exact not_mem_blankQuotations hplaceholder hline h hbetween.mem
  · rw [blankQuotations_of_not_encloses hline h]
    exact ⟨fun hbetween => ⟨hbetween.count_eq_one hquote h, hbetween⟩, fun hlone => hlone.2⟩

-- ---------------------------------------------------------------------------
-- All lines
-- ---------------------------------------------------------------------------

/-- A check that no match of which goes over the end of a line is a check of the single lines. -/
theorem any_lines {f : List Char → Bool}
    (happend : ∀ line rest, '\n' ∉ line → f (line ++ '\n' :: rest) = (f line || f rest))
    (run : List Char) : f run ↔ ∃ line ∈ run.splitOn '\n', f line := by
  have key : ∀ lines : List (List Char), lines ≠ [] → (∀ line ∈ lines, '\n' ∉ line) →
      (f (['\n'].intercalate lines) ↔ ∃ line ∈ lines, f line) := by
    intro lines hne hlines
    induction lines with
    | nil => exact absurd rfl hne
    | cons line lines ih =>
      obtain ⟨hline, hlines⟩ := List.forall_mem_cons.1 hlines
      cases lines with
      | nil => simp
      | cons next lines =>
        rw [List.intercalate_cons_cons, List.append_assoc, List.singleton_append, happend _ _ hline,
          Bool.or_eq_true, ih (List.cons_ne_nil _ _) hlines]
        simp
  have hrun := key (run.splitOn '\n') (List.splitOn_ne_nil '\n' run)
    (Parser.not_mem_of_mem_splitOn run)
  rwa [List.intercalate_splitOn] at hrun

theorem hasThreePeriods_iff : hasThreePeriods text ↔ ['.', '.', '.'] <:+: text := by
  induction text with
  | nil => simp [hasThreePeriods]
  | cons ch text ih =>
    rw [hasThreePeriods, Bool.or_eq_true, List.isPrefixOf_iff_prefix, ih, List.infix_cons_iff]

theorem hasQuotation_iff (hquote : quote ≠ '\n') (run : List Char) :
    hasQuotation quote run ↔ ∃ line ∈ run.splitOn '\n', Encloses quote line := by
  rw [any_lines (fun _ rest hline => hasQuotation_append hquote hline rest)]
  refine exists_congr fun line => and_congr_right fun hline => ?_
  exact hasQuotation_line (Parser.not_mem_of_mem_splitOn run line hline)

theorem hasApostrophe_iff (run : List Char) :
    hasBetweenWords '\'' (blankQuotations '\'' run) ↔
      ∃ line ∈ run.splitOn '\n', line.count '\'' = 1 ∧ BetweenWords '\'' line := by
  have happend : ∀ line rest : List Char, '\n' ∉ line →
      hasBetweenWords '\'' (blankQuotations '\'' (line ++ '\n' :: rest)) =
        (hasBetweenWords '\'' (blankQuotations '\'' line) ||
          hasBetweenWords '\'' (blankQuotations '\'' rest)) := fun line rest hline => by
    rw [blankQuotations_append (by decide) hline, hasBetweenWords_line (by decide)]
  rw [any_lines (f := fun run => hasBetweenWords '\'' (blankQuotations '\'' run)) happend]
  refine exists_congr fun line => and_congr_right fun hline => ?_
  rw [hasBetweenWords_iff]
  exact betweenWords_blankQuotations (by decide) (by decide)
    (Parser.not_mem_of_mem_splitOn run line hline)

/-- A run breaks the rules that it offends. -/
theorem breaks_iff_offends (run : List Char) (rule : Rule) : breaks run rule ↔ Offends run rule := by
  cases rule with
  | straightApostrophe => exact hasApostrophe_iff run
  | wrongCurlyApostrophe => exact hasBetweenWords_iff
  | straightSingleQuotes => exact hasQuotation_iff (by decide) run
  | straightDoubleQuotes => exact hasQuotation_iff (by decide) run
  | threeDotEllipsis => exact hasThreePeriods_iff
  | _ => exact iff_of_false Bool.false_ne_true id

instance (run : List Char) (rule : Rule) : Decidable (Offends run rule) :=
  decidable_of_iff _ (breaks_iff_offends run rule)

/-- The rules that visible text is checked against, in the order of their codes. -/
def checks : List Rule :=
  [.straightApostrophe, .wrongCurlyApostrophe, .straightSingleQuotes, .straightDoubleQuotes,
    .threeDotEllipsis]

/-- Of all rules, only those of typography can be offended. -/
theorem filter_breaks (run : List Char) :
    Rule.all.filter (breaks run) = checks.filter fun rule => decide (Offends run rule) := by
  have hoffends : ∀ rule, breaks run rule = decide (Offends run rule) := fun rule => by
    rw [Bool.eq_iff_iff, decide_eq_true_iff, breaks_iff_offends]
  rw [funext hoffends]
  rfl

end MessageLint.Typography

namespace MessageLint

/-- Two apostrophes on one line are a quotation and no apostrophes any more. -/
example : Typography.checks.filter (fun rule => Typography.Offends "don't and can't".toList rule) =
    [.straightSingleQuotes] := by decide +kernel

end MessageLint
