-- SUMMARY: The blank lines around a comment on the file, and the one place where they are not looked for.
import MessageLint.Proofs.Lint.Comments

/-!
# Spacing of comments on the file

A comment on the file that stands where it should, in front of all messages and terms, has one blank
line on either side. `Resource.SpacedAsWorded` says so in the words of the rules: the line behind it is
asked for where another entry follows, the line before it wherever the comment does not open the file.
The check looks for neither when the comment is the last entry, so the two agree except for a last
comment that has too few or too many line ends before it.
-/

namespace MessageLint

variable {source : String} {rules : RuleSet} {src : Source} {r : Resource} {c : Comment} {i : Nat}

theorem Comment.resourceFault?_eq_some {afterDefinition isLast : Bool} {rule : Rule} :
    c.resourceFault? src afterDefinition isLast = some rule ↔
      afterDefinition ∧ .resourceCommentPlacement = rule ∨
      ¬afterDefinition ∧ ¬isLast ∧ ¬c.blankAfter src ∧ .resourceCommentBlankAfter = rule ∨
      ¬afterDefinition ∧ ¬isLast ∧ c.blankAfter src ∧ ¬c.blankBefore src ∧
        .resourceCommentBlankBefore = rule := by
  unfold resourceFault?
  split_ifs <;> simp_all

namespace Resource

/-- The codes that a comment on the file, the entry with index `i`, is given as its rules are worded: one
blank line behind it if another entry follows, and one before it unless it opens the file. -/
structure SpacedAsWorded (source : String) (body : List Entry) (i : Nat) (c : Comment)
    (codes : List String) : Prop where
  behind : "RC02" ∈ codes ↔ i + 1 < body.length ∧ ¬LineEndsBehind source.toList c.span.stop 2
  ahead : "RC03" ∈ codes ↔
    "RC02" ∉ codes ∧ c.span.start ≠ 0 ∧ ¬LineEndsAhead source.toList c.span.start 2

/-- What a comment on the file in its place is told. -/
theorem mem_codesAt_resource (hsrc : src.text = source.toList)
    (hafter : rules.isEnabled .resourceCommentBlankAfter)
    (hbefore : rules.isEnabled .resourceCommentBlankBefore) (h : (Node.resource r).Sound source)
    (hc : r.body[i]? = some (.comment .resource c)) (hplace : ¬DefinedBefore r.body i) (code : String) :
    code ∈ r.codesAt rules src c.span ↔
      i + 1 < r.body.length ∧ ¬LineEndsBehind source.toList c.span.stop 2 ∧ code = "RC02" ∨
      i + 1 < r.body.length ∧ LineEndsBehind source.toList c.span.stop 2 ∧ c.span.start ≠ 0 ∧
        ¬LineEndsAhead source.toList c.span.start 2 ∧ code = "RC03" := by
  have hplaced := (h.child (List.mem_map_of_mem (List.mem_of_getElem? hc))).placed
  have hi := (List.getElem?_eq_some_iff.1 hc).1
  have hlast : (r.body.drop (i + 1)).isEmpty ↔ ¬i + 1 < r.body.length :=
    (isEmpty_drop_succ_iff hi).trans (by omega)
  rw [codesAt_comment_filter h hc, List.mem_map]
  simp only [Option.mem_toList, Option.filter_eq_some_iff, Comment.fault?,
    Comment.resourceFault?_eq_some, keys_isEmpty_upTo, hplace,
    Comment.blankAfter_iff hsrc hplaced.stop_isValid,
    Comment.blankBefore_iff hsrc hplaced.start_isValid, hlast, not_not, not_or, false_and, false_or,
    not_false_iff, true_and]
  constructor
  · rintro ⟨rule, ⟨⟨hnext, hbehind, rfl⟩ | ⟨hnext, hbehind, hahead, rfl⟩, -⟩, rfl⟩
    · exact .inl ⟨hnext, hbehind, rfl⟩
    · exact .inr ⟨hnext, hbehind, hahead.1, hahead.2, rfl⟩
  · rintro (⟨hnext, hbehind, rfl⟩ | ⟨hnext, hbehind, hstart, hahead, rfl⟩)
    · exact ⟨_, ⟨.inl ⟨hnext, hbehind, rfl⟩, hafter⟩, rfl⟩
    · exact ⟨_, ⟨.inr ⟨hnext, hbehind, ⟨hstart, hahead⟩, rfl⟩, hbefore⟩, rfl⟩

/-- The spacing of a comment on the file, when its rules are enabled and no message or term stands before
it. It is asked for only where another entry follows, so a comment that is alone in its file is told
nothing. The rules are followed as they are worded unless the comment is the last entry, does not open
the file, and has no single blank line before it. -/
theorem lint_spacing (hsrc : src.text = source.toList)
    (hafter : rules.isEnabled .resourceCommentBlankAfter)
    (hbefore : rules.isEnabled .resourceCommentBlankBefore) (h : Resource.parse source = .ok r)
    (hc : r.body[i]? = some (.comment .resource c)) (hplace : ¬DefinedBefore r.body i) :
    ("RC02" ∈ r.codesAt rules src c.span ↔
      i + 1 < r.body.length ∧ ¬LineEndsBehind source.toList c.span.stop 2) ∧
    ("RC03" ∈ r.codesAt rules src c.span ↔
      i + 1 < r.body.length ∧ "RC02" ∉ r.codesAt rules src c.span ∧ c.span.start ≠ 0 ∧
        ¬LineEndsAhead source.toList c.span.start 2) ∧
    (r.body.length = 1 → "RC02" ∉ r.codesAt rules src c.span ∧ "RC03" ∉ r.codesAt rules src c.span) ∧
    (SpacedAsWorded source r.body i c (r.codesAt rules src c.span) ↔
      i + 1 < r.body.length ∨ c.span.start = 0 ∨ LineEndsAhead source.toList c.span.start 2) := by
  have hmem := mem_codesAt_resource hsrc hafter hbefore (parse_sound h) hc hplace
  have hbehind : "RC02" ∈ r.codesAt rules src c.span ↔
      i + 1 < r.body.length ∧ ¬LineEndsBehind source.toList c.span.stop 2 := by
    rw [hmem]
    simp
  have hahead : "RC03" ∈ r.codesAt rules src c.span ↔
      i + 1 < r.body.length ∧ "RC02" ∉ r.codesAt rules src c.span ∧ c.span.start ≠ 0 ∧
        ¬LineEndsAhead source.toList c.span.start 2 := by
    rw [hbehind, hmem]
    simp only [String.reduceEq, and_false, false_or, and_true]
    tauto
  refine ⟨hbehind, hahead, fun halone => ?_, fun hworded => ?_, fun hspaced => ⟨hbehind, ?_⟩⟩
  · have hlast : ¬i + 1 < r.body.length := by omega
    exact ⟨fun hcode => hlast (hbehind.1 hcode).1, fun hcode => hlast (hahead.1 hcode).1⟩
  · -- a last comment is told nothing, so it must be in order as worded
    by_contra hnone
    push Not at hnone
    obtain ⟨hlast, hstart, hnot⟩ := hnone
    have hfirst : "RC02" ∉ r.codesAt rules src c.span := fun hcode =>
      Nat.not_lt.2 hlast (hbehind.1 hcode).1
    exact Nat.not_lt.2 hlast (hahead.1 (hworded.ahead.2 ⟨hfirst, hstart, hnot⟩)).1
  · rw [hahead]
    tauto

theorem not_definedBefore_one {e : Entry} {es : List Entry} (h : e.isComment) :
    ¬DefinedBefore (e :: es) 1 := by
  rintro ⟨j, hj, first, hfirst, hnot⟩
  obtain rfl : j = 0 := Nat.lt_one_iff.1 hj
  obtain rfl : e = first := Option.some.inj hfirst
  rw [h] at hnot
  cases hnot

/-- A comment on the file right behind a note, and a message behind it: it is told of the line that is
missing before it. -/
theorem lint_spacing_note :
    ∃ r : Resource, Resource.parse "# a\n### b\n\nc = d\n" = .ok r ∧
      ∃ src : Source, src.text = "# a\n### b\n\nc = d\n".toList ∧ ¬DefinedBefore r.body 1 ∧
        "RC02" ∉ r.codesAt .allEnabled src ⟨4, 9⟩ ∧ "RC03" ∈ r.codesAt .allEnabled src ⟨4, 9⟩ := by
  let source := "# a\n### b\n\nc = d\n"
  let value : Pattern := ⟨[.text ⟨"d", ⟨15, 16⟩⟩], ⟨15, 16⟩⟩
  let note : Entry := .comment .note ⟨"a", ⟨0, 3⟩⟩
  let body : List Entry :=
    [note, .comment .resource ⟨"b", ⟨4, 9⟩⟩,
      .message ⟨⟨"c", ⟨11, 12⟩⟩, some value, [], none, ⟨11, 16⟩⟩]
  have hparse : Resource.parse source = .ok ⟨body, ⟨0, 17⟩⟩ := by cbv
  have hsound := (parse_sound hparse).child (k := .entry (.comment .resource ⟨"b", ⟨4, 9⟩⟩))
    (by simp [Node.children, body])
  let src : Source := ⟨"a.ftl", "a.ftl", source.toList, ⟨[3, 9, 10, 16]⟩⟩
  have hsrc : src.text = source.toList := rfl
  have hplace : ¬DefinedBefore body 1 := not_definedBefore_one rfl
  have hbehind : LineEndsBehind source.toList 9 2 :=
    (Source.lineEndsAfter_eq_iff hsrc hsound.placed.stop_isValid).1 (by decide)
  have hahead : ¬LineEndsAhead source.toList 4 2 :=
    mt (Source.lineEndsBefore_eq_iff hsrc hsound.placed.start_isValid).2 (by decide)
  have henabled : ∀ rule, RuleSet.allEnabled.isEnabled rule := fun _ => rfl
  obtain ⟨hafter, hbefore, -, -⟩ :=
    lint_spacing hsrc (henabled _) (henabled _) hparse (i := 1) rfl hplace
  have hfirst : "RC02" ∉ Resource.codesAt .allEnabled src ⟨body, ⟨0, 17⟩⟩ ⟨4, 9⟩ := fun hcode =>
    (hafter.1 hcode).2 hbehind
  exact ⟨_, hparse, src, hsrc, hplace, hfirst, hbefore.2 ⟨by decide, hfirst, by decide, hahead⟩⟩

/-- The same comment at the end of the file is told nothing, though its rules as worded ask for a line
before it. -/
theorem spacing_unchecked_at_end :
    ∃ r : Resource, Resource.parse "# a\n### b\n" = .ok r ∧ r.body.length = 2 ∧
      ∃ (src : Source) (c : Comment), src.text = "# a\n### b\n".toList ∧
        r.body[1]? = some (.comment .resource c) ∧ ¬DefinedBefore r.body 1 ∧
          ¬SpacedAsWorded "# a\n### b\n" r.body 1 c (r.codesAt .allEnabled src c.span) := by
  let source := "# a\n### b\n"
  let note : Entry := .comment .note ⟨"a", ⟨0, 3⟩⟩
  let body : List Entry := [note, .comment .resource ⟨"b", ⟨4, 9⟩⟩]
  have hparse : Resource.parse source = .ok ⟨body, ⟨0, 10⟩⟩ := by cbv
  have hsound := (parse_sound hparse).child (k := .entry (.comment .resource ⟨"b", ⟨4, 9⟩⟩))
    (by simp [Node.children, body])
  let src : Source := ⟨"a.ftl", "a.ftl", source.toList, ⟨[3, 9]⟩⟩
  have hsrc : src.text = source.toList := rfl
  have hahead : ¬LineEndsAhead source.toList 4 2 :=
    mt (Source.lineEndsBefore_eq_iff hsrc hsound.placed.start_isValid).2 (by decide)
  have hcodes : Resource.codesAt .allEnabled src ⟨body, ⟨0, 10⟩⟩ ⟨4, 9⟩ = [] := by decide +kernel
  refine ⟨_, hparse, rfl, src, ⟨"b", ⟨4, 9⟩⟩, hsrc, rfl, not_definedBefore_one rfl, fun hworded => ?_⟩
  have htold := hworded.ahead.2 ⟨by simp [hcodes], by decide, hahead⟩
  simp [hcodes] at htold

end Resource

end MessageLint
