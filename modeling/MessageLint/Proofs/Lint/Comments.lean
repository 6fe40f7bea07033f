-- SUMMARY: Which comments break a rule, said of the whole sequence of entries.
import MessageLint.Proofs.Lint.Reach

/-!
# Comments on files and groups

The linter carries what has come before an entry along its walk (`Preceding`). Here the same is said
without that: `DefinedBefore` and `OpenBefore` look at the entries in front of a comment, `LineEndsAhead`
and `LineEndsBehind` at the text around it. What the walk carries is linked to them entry by entry, and
as no two entries overlap, the violations at the span of a comment are those that the comment itself
was given. The last theorem puts this together into the rules on comments.
-/

namespace MessageLint

-- ---------------------------------------------------------------------------
-- What stands around a comment
-- ---------------------------------------------------------------------------

/-- A message or term stands before the entry with index `i`. -/
def DefinedBefore (body : List Entry) (i : Nat) : Prop :=
  ∃ j < i, ∃ e, body[j]? = some e ∧ e.isComment = false

/-- A comment on a group stands before the entry with index `i`, and no message or term between. -/
def OpenBefore (body : List Entry) (i : Nat) : Prop :=
  ∃ j < i, (∃ c, body[j]? = some (.comment .group c)) ∧
    ∀ k e, j < k → k < i → body[k]? = some e → e.isComment

/-- The run of line ends that starts at `offset` is of length `n`. -/
def LineEndsBehind (text : List Char) (offset n : Nat) : Prop :=
  ∃ before after, text = before ++ (List.replicate n '\n' ++ after) ∧ byteLength before = offset ∧
    after.head? ≠ some '\n'

/-- The run of line ends that stops at `offset` is of length `n`. -/
def LineEndsAhead (text : List Char) (offset n : Nat) : Prop :=
  ∃ before after, text = (before ++ List.replicate n '\n') ++ after ∧
    byteLength (before ++ List.replicate n '\n') = offset ∧ before.getLast? ≠ some '\n'

/-- The codes of the violations that are reported at a span. -/
def Resource.codesAt (rules : RuleSet) (src : Source) (r : Resource) (span : Span) : List String :=
  ((r.lint rules src).filter (·.location == src.location span)).map (·.code)

variable {source : String} {rules : RuleSet} {src : Source} {body : List Entry} {e : Entry} {i : Nat}

-- ---------------------------------------------------------------------------
-- What the walk carries
-- ---------------------------------------------------------------------------

theorem definedBefore_succ : DefinedBefore body (i + 1) ↔
    (∃ e, body[i]? = some e ∧ e.isComment = false) ∨ DefinedBefore body i := by
  constructor
  · rintro ⟨j, hj, h⟩
    rcases Nat.lt_succ_iff_lt_or_eq.1 hj with hj | rfl
    · exact .inr ⟨j, hj, h⟩
    · exact .inl h
  · rintro (h | ⟨j, hj, h⟩)
    · exact ⟨i, Nat.lt_succ_self i, h⟩
    · exact ⟨j, Nat.lt_succ_of_lt hj, h⟩

theorem openBefore_succ : OpenBefore body (i + 1) ↔
    (∃ c, body[i]? = some (.comment .group c)) ∨
      (∀ e, body[i]? = some e → e.isComment) ∧ OpenBefore body i := by
  constructor
  · rintro ⟨j, hj, hgroup, hbetween⟩
    rcases Nat.lt_succ_iff_lt_or_eq.1 hj with hj | rfl
    · refine .inr ⟨fun e => hbetween i e hj (Nat.lt_succ_self i), j, hj, hgroup, ?_⟩
      intro k e hjk hki
      exact hbetween k e hjk (Nat.lt_succ_of_lt hki)
    · exact .inl hgroup
  · rintro (hgroup | ⟨hlast, j, hj, hgroup, hbetween⟩)
    · refine ⟨i, Nat.lt_succ_self i, hgroup, fun k e hik hki => ?_⟩
      omega
    · refine ⟨j, Nat.lt_succ_of_lt hj, hgroup, fun k e hjk hki => ?_⟩
      rcases Nat.lt_succ_iff_lt_or_eq.1 hki with hki | rfl
      · exact hbetween k e hjk hki
      · exact hlast e

/-- What has come before the entry with index `i`. -/
def Preceding.upTo (body : List Entry) (i : Nat) : Preceding :=
  (body.take i).foldl (fun before e => e.followedBy before) .nothing

namespace Preceding

theorem upTo_succ (body : List Entry) (i : Nat) :
    upTo body (i + 1) = body[i]?.elim (upTo body i) (·.followedBy (upTo body i)) := by
  rw [upTo, List.take_add_one, List.foldl_append]
  cases body[i]? <;> rfl

theorem keys_followedBy (before : Preceding) (e : Entry) :
    (e.followedBy before).keys ≠ [] ↔ e.isComment = false ∨ before.keys ≠ [] := by
  cases e with
  | message | term => simp [Entry.followedBy, define, Entry.isComment]
  | comment level => cases level <;> simp [Entry.followedBy, Entry.isComment]

theorem openGroup_followedBy (before : Preceding) (e : Entry) :
    (e.followedBy before).openGroup = true ↔
      (∃ c, e = .comment .group c) ∨ e.isComment ∧ before.openGroup = true := by
  cases e with
  | message | term => simp [Entry.followedBy, define, Entry.isComment]
  | comment level => cases level <;> simp [Entry.followedBy, Entry.isComment]

/-- Keys are there as soon as a message or term was. -/
theorem keys_upTo (body : List Entry) (i : Nat) : (upTo body i).keys ≠ [] ↔ DefinedBefore body i := by
  induction i with
  | zero => simp [upTo, nothing, DefinedBefore]
  | succ i ih =>
    rw [upTo_succ, definedBefore_succ, ← ih]
    cases body[i]? with
    | none => simp
    | some e => simp [keys_followedBy]

/-- A group is open from its comment to the next message or term. -/
theorem openGroup_upTo (body : List Entry) (i : Nat) :
    (upTo body i).openGroup = true ↔ OpenBefore body i := by
  induction i with
  | zero => simp [upTo, nothing, OpenBefore]
  | succ i ih =>
    rw [upTo_succ, openBefore_succ, ← ih]
    cases body[i]? with
    | none => simp
    | some e => simp [openGroup_followedBy]

end Preceding

-- ---------------------------------------------------------------------------
-- Line ends around a span
-- ---------------------------------------------------------------------------

theorem length_takeWhile_lineEnds {after : List Char} (n : Nat) (h : after.head? ≠ some '\n') :
    ((List.replicate n '\n' ++ after).takeWhile (· = '\n')).length = n := by
  have hafter : after.takeWhile (· = '\n') = [] := by
    cases after with
    | nil => rfl
    | cons ch after => exact List.takeWhile_cons_of_neg (by simpa using h)
  have hall : ∀ ch ∈ List.replicate n '\n', decide (ch = '\n') = true := by
    intro ch hch
    exact decide_eq_true (List.eq_of_mem_replicate hch)
  rw [List.takeWhile_append_of_pos hall, hafter, List.append_nil, List.length_replicate]

theorem exists_lineEnds (text : List Char) : ∃ after,
    text = List.replicate (text.takeWhile (· = '\n')).length '\n' ++ after ∧
      after.head? ≠ some '\n' := by
  have hrun : text.takeWhile (· = '\n') =
      List.replicate (text.takeWhile (· = '\n')).length '\n' := by
    refine List.eq_replicate_of_mem fun ch hch => ?_
    simpa using List.mem_takeWhile_imp hch
  refine ⟨text.dropWhile (· = '\n'), ?_, ?_⟩
  · rw [← hrun, List.takeWhile_append_dropWhile]
  · intro hhead
    have := List.head?_dropWhile_not (fun ch : Char => decide (ch = '\n')) text
    rw [hhead] at this
    simp at this

theorem Source.lineEndsAfter_eq_iff {offset n : Nat} (hsrc : src.text = source.toList)
    (h : String.Pos.Raw.IsValid source ⟨offset⟩) :
    src.lineEndsAfter offset = n ↔ LineEndsBehind source.toList offset n := by
  constructor
  · rintro rfl
    obtain ⟨c, ⟨before, hsource, hbefore⟩, rfl⟩ := exists_in_of_isValid h
    obtain ⟨after, hrest, hhead⟩ := exists_lineEnds c.rest
    have hlength : src.lineEndsAfter c.offset = (c.rest.takeWhile (· = '\n')).length := by
      rw [lineEndsAfter, hsrc, hsource, hbefore, splitBytes?_append]
    rw [hlength]
    exact ⟨before, after, by rw [← hrest]; exact hsource, hbefore.symm, hhead⟩
  · rintro ⟨before, after, hsource, rfl, hhead⟩
    rw [lineEndsAfter, hsrc, hsource, splitBytes?_append]
    exact length_takeWhile_lineEnds n hhead

theorem Source.lineEndsBefore_eq_iff {offset n : Nat} (hsrc : src.text = source.toList)
    (h : String.Pos.Raw.IsValid source ⟨offset⟩) :
    src.lineEndsBefore offset = n ↔ LineEndsAhead source.toList offset n := by
  constructor
  · rintro rfl
    obtain ⟨c, ⟨before, hsource, hbefore⟩, rfl⟩ := exists_in_of_isValid h
    obtain ⟨after, hreverse, hhead⟩ := exists_lineEnds before.reverse
    have hlength : src.lineEndsBefore c.offset = (before.reverse.takeWhile (· = '\n')).length := by
      rw [lineEndsBefore, hsrc, hsource, hbefore, splitBytes?_append]
    rw [hlength]
    have hsplit : before = after.reverse ++
        List.replicate (before.reverse.takeWhile (· = '\n')).length '\n' := by
      rw [← List.reverse_inj, List.reverse_append, List.reverse_replicate, List.reverse_reverse]
      exact hreverse
    refine ⟨after.reverse, c.rest, ?_, ?_, ?_⟩
    · rw [← hsplit]
      exact hsource
    · rw [← hsplit]
      exact hbefore.symm
    · rw [List.getLast?_reverse]
      exact hhead
  · rintro ⟨before, after, hsource, rfl, hlast⟩
    rw [lineEndsBefore, hsrc, hsource, splitBytes?_append]
    have hreverse : (before ++ List.replicate n '\n').reverse =
        List.replicate n '\n' ++ before.reverse := by
      rw [List.reverse_append, List.reverse_replicate]
    simp only [hreverse]
    refine length_takeWhile_lineEnds n ?_
    rw [List.head?_reverse]
    exact hlast

-- ---------------------------------------------------------------------------
-- Violations at a comment
-- ---------------------------------------------------------------------------

theorem Source.location_eq_iff {s t : Span} :
    src.location s = src.location t ↔ s.start = t.start ∧ s.length = t.length := by
  constructor
  · intro h
    exact ⟨congrArg Location.offset h, congrArg Location.length h⟩
  · rintro ⟨hstart, hlength⟩
    simp only [location, hstart, hlength]

namespace Entry

/-- Whether it is the span of the entry, or of a node at or below what the walk enters. -/
def Spans (e : Entry) (span : Span) : Prop :=
  span = e.span ∨ ∃ n ∈ e.inside, ∃ k, n.Holds k ∧ span = k.span

theorem spans_of_mem_findings (h : (Node.entry e).Sound source) {before : Preceding} {isLast : Bool}
    {f : Finding} (hf : f ∈ e.findings rules src before isLast) : e.Spans f.span := by
  rw [findings_eq] at hf
  rcases List.mem_append.1 hf with hf | hf
  · exact .inl (span_of_mem_faults hf)
  · obtain ⟨n, hn, hf⟩ := List.mem_flatMap.1 hf
    obtain ⟨m, hm, k, hk, hspan⟩ := (h.child (e.inside_sublist.subset hn)).found.held f hf
    obtain rfl := List.mem_singleton.1 hm
    exact .inr ⟨m, hn, k, hk, hspan⟩

theorem Spans.within {span : Span} (h : (Node.entry e).Sound source) (hspan : e.Spans span) :
    e.span.start ≤ span.start ∧ span.start ≤ span.stop ∧ span.stop ≤ e.span.stop := by
  rcases hspan with rfl | ⟨n, hn, k, hk, rfl⟩
  · exact ⟨Nat.le_refl _, h.placed.start_le_stop, Nat.le_refl _⟩
  · have hheld : (Node.entry e).Holds k := .child (e.inside_sublist.subset hn) hk
    obtain ⟨hstart, hstop⟩ := h.within hheld
    exact ⟨hstart, (h.placed_of_holds hheld).start_le_stop, hstop⟩

end Entry

/-- Spans that do not overlap are located apart, if one of them is not empty. -/
theorem Source.location_ne {s t : Span} (hs : s.start ≤ s.stop) (ht : t.start < t.stop)
    (h : s.stop ≤ t.start ∨ t.stop ≤ s.start) : src.location s ≠ src.location t := by
  rw [Ne, location_eq_iff, Span.length, Span.length]
  omega

/-- Whether a finding stands at a span. -/
def Finding.isAt (src : Source) (span : Span) (f : Finding) : Bool :=
  src.location f.span == src.location span

theorem Entry.findings_apart {before : Preceding} {isLast : Bool} {span : Span}
    (h : (Node.entry e).Sound source) (hspan : span.start < span.stop)
    (hapart : e.span.stop ≤ span.start ∨ span.stop ≤ e.span.start) :
    (e.findings rules src before isLast).filter (Finding.isAt src span) = [] := by
  refine List.filter_eq_nil_iff.2 fun f hf hat => ?_
  have hwithin := (spans_of_mem_findings h hf).within h
  exact Source.location_ne hwithin.2.1 hspan (by omega) (beq_iff_eq.1 hat)

theorem entriesFindings_apart {lo hi : Nat} {es : List Entry} {before : Preceding} {span : Span}
    (h : Row source lo hi (es.map .entry)) (hspan : span.start < span.stop) (hle : span.stop ≤ lo) :
    (entriesFindings rules src before es).filter (Finding.isAt src span) = [] := by
  induction es generalizing lo before with
  | nil => rfl
  | cons e es ih =>
    obtain ⟨hstart, hsound, hrow⟩ := h
    have hnext : span.stop ≤ e.span.stop :=
      Nat.le_trans (Nat.le_trans hle hstart) hsound.placed.start_le_stop
    rw [entriesFindings, List.filter_append, ih hrow hnext,
      Entry.findings_apart hsound hspan (.inr (Nat.le_trans hle hstart)), List.append_nil]

/-- Whatever is found at a span inside an entry is found in that entry. -/
theorem entriesFindings_at {lo hi : Nat} {es : List Entry} {before : Preceding} {span : Span}
    (h : Row source lo hi (es.map .entry)) (he : es[i]? = some e)
    (hstart : e.span.start ≤ span.start) (hspan : span.start < span.stop)
    (hstop : span.stop ≤ e.span.stop) :
    (entriesFindings rules src before es).filter (Finding.isAt src span) =
      (e.findings rules src ((es.take i).foldl (fun before e => e.followedBy before) before)
        (es.drop (i + 1)).isEmpty).filter (Finding.isAt src span) := by
  induction es generalizing lo before i with
  | nil => cases he
  | cons first es ih =>
    obtain ⟨-, hsound, hrow⟩ := h
    rw [entriesFindings, List.filter_append]
    cases i with
    | zero =>
      obtain rfl : first = e := Option.some.inj he
      rw [entriesFindings_apart hrow hspan hstop, List.append_nil]
      rfl
    | succ i =>
      have hfirst : first.span.stop ≤ span.start := by
        have hcovers := hrow.covers (List.mem_map_of_mem (List.mem_of_getElem? he))
        exact Nat.le_trans hcovers.1 hstart
      rw [Entry.findings_apart hsound hspan (.inl hfirst), List.nil_append]
      exact ih hrow he

/-- A definition with a comment has a name behind it. -/
theorem Entry.identifier_mem_inside {c : Comment} (e : Entry) (h : e.note? = some c) :
    ∃ id, .identifier id ∈ e.inside := by
  cases e with
  | message m => exact ⟨m.id, by simp [inside]⟩
  | term t => exact ⟨t.id, by simp [inside]⟩
  | comment => cases h

/-- The rule that a comment breaks, if it does. -/
def Comment.fault? (src : Source) (before : Preceding) (isLast : Bool) (c : Comment) :
    CommentLevel → Option Rule
  | .note => none
  | .group => c.groupFault? src before.openGroup isLast
  | .resource => c.resourceFault? src (!before.keys.isEmpty) isLast

theorem Entry.findings_comment (before : Preceding) (isLast : Bool) (level : CommentLevel)
    (c : Comment) : (Entry.comment level c).findings rules src before isLast =
      (c.fault? src before isLast level).toList.map fun rule => ⟨rule, c.span, ""⟩ := by
  cases level <;> rfl

theorem Comment.category_of_fault {c : Comment} {before : Preceding} {isLast : Bool}
    {level : CommentLevel} {rule : Rule} (h : c.fault? src before isLast level = some rule) :
    rule.category = .comments := by
  cases level with
  | note => cases h
  | group => exact category_of_groupFault h
  | resource => exact category_of_resourceFault h

namespace Resource

variable {r : Resource} {c : Comment} {level : CommentLevel} {span : Span}

theorem codesAt_eq (rules : RuleSet) (src : Source) (r : Resource) (span : Span) :
    r.codesAt rules src span =
      (((r.findings rules src).filter (Finding.isAt src span)).filter
        fun f => rules.isEnabled f.rule).map (·.rule.code) := by
  rw [codesAt, lint_eq, List.filter_map, List.map_map, List.filter_filter, List.filter_filter]
  congr 1
  refine List.filter_congr fun f _ => Bool.and_comm ..

theorem codesAt_entry (h : (Node.resource r).Sound source) (he : r.body[i]? = some e)
    (hstart : e.span.start ≤ span.start) (hspan : span.start < span.stop)
    (hstop : span.stop ≤ e.span.stop) :
    r.codesAt rules src span =
      (((e.findings rules src (.upTo r.body i) (r.body.drop (i + 1)).isEmpty).filter
        (Finding.isAt src span)).filter fun f => rules.isEnabled f.rule).map (·.rule.code) := by
  rw [codesAt_eq, Resource.findings, entriesFindings_at h.row he hstart hspan hstop]
  rfl

/-- A comment is told the rule that it breaks, if this rule is enabled. -/
theorem codesAt_comment_filter (h : (Node.resource r).Sound source)
    (hc : r.body[i]? = some (.comment level c)) :
    r.codesAt rules src c.span =
      ((c.fault? src (.upTo r.body i) (r.body.drop (i + 1)).isEmpty level).filter
        (rules.isEnabled ·)).toList.map Rule.code := by
  have hsound := h.child (List.mem_map_of_mem (List.mem_of_getElem? hc))
  have hspan : c.span.start < c.span.stop :=
    hsound.placed.start_lt_stop fun hshows => CommentLevel.WritesAll.ne_nil hshows rfl
  have hstart : (Entry.comment level c).span.start ≤ c.span.start := Nat.le_refl _
  rw [codesAt_entry h hc hstart hspan (Nat.le_refl _), Entry.findings_comment]
  cases c.fault? src (.upTo r.body i) (r.body.drop (i + 1)).isEmpty level with
  | none => rfl
  | some rule => cases henabled : rules.isEnabled rule <;> simp [Finding.isAt, Option.filter, henabled]

theorem codesAt_comment (hrules : ∀ rule : Rule, rule.category = .comments → rules.isEnabled rule)
    (h : (Node.resource r).Sound source) (hc : r.body[i]? = some (.comment level c)) :
    r.codesAt rules src c.span =
      (c.fault? src (.upTo r.body i) (r.body.drop (i + 1)).isEmpty level).toList.map Rule.code := by
  rw [codesAt_comment_filter h hc]
  cases hfault : c.fault? src (.upTo r.body i) (r.body.drop (i + 1)).isEmpty level with
  | none => rfl
  | some rule => rw [Option.filter_some_pos (hrules rule (Comment.category_of_fault hfault))]

/-- The comment of a definition ends before its name, and nothing is found between. -/
theorem codesAt_note (hwell : (Node.resource r).Every Node.WellFormed)
    (h : (Node.resource r).Sound source) (he : r.body[i]? = some e) (hc : e.note? = some c) :
    r.codesAt rules src c.span = [] := by
  have hsound := h.child (List.mem_map_of_mem (List.mem_of_getElem? he))
  have hchildren : (Node.entry e).children = .note c :: e.inside := by
    rw [Entry.children_eq, hc]
    rfl
  have hnote : Node.note c ∈ (Node.entry e).children := hchildren ▸ List.mem_cons_self
  have hspan : c.span.start < c.span.stop :=
    (hsound.child hnote).placed.start_lt_stop fun hshows => CommentLevel.WritesAll.ne_nil hshows rfl
  have hbehind : ∀ n ∈ e.inside, c.span.stop ≤ n.span.start :=
    (List.pairwise_cons.1 (hchildren ▸ hsound.placed.ordered)).1
  have hstart : e.span.start ≤ c.span.start := (hsound.placed.covers _ hnote).1
  have hstop : c.span.stop < e.span.stop := by
    obtain ⟨id, hid⟩ := e.identifier_mem_inside hc
    have hchild := e.inside_sublist.subset hid
    have hname : IsName id.name.toList :=
      hwell _ (.child (List.mem_map_of_mem (List.mem_of_getElem? he)) (.child hchild (.self _)))
    have hshown : (Node.identifier id).span.start < (Node.identifier id).span.stop := by
      refine (hsound.child hchild).placed.start_lt_stop fun hshows => ?_
      rw [← show [] = id.name.toList from hshows] at hname
      exact hname
    exact Nat.lt_of_le_of_lt (hbehind _ hid)
      (Nat.lt_of_lt_of_le hshown (hsound.placed.covers _ hchild).2)
  rw [codesAt_entry h he hstart hspan (Nat.le_of_lt hstop)]
  have hnone : (e.findings rules src (.upTo r.body i) (r.body.drop (i + 1)).isEmpty).filter
      (Finding.isAt src c.span) = [] := by
    refine List.filter_eq_nil_iff.2 fun f hf hat => ?_
    obtain ⟨hsame, hlength⟩ := Source.location_eq_iff.1 (beq_iff_eq.1 hat)
    rcases Entry.spans_of_mem_findings hsound hf with hown | ⟨n, hn, k, hk, hbelow⟩
    · -- the span of the entry starts with its comment, but stops later
      rw [hown, Span.length, Span.length] at hlength
      rw [hown] at hsame
      omega
    · have hle := ((hsound.child (e.inside_sublist.subset hn)).within hk).1
      have := hbehind n hn
      rw [hbelow] at hsame
      omega
  rw [hnone]
  rfl

-- ---------------------------------------------------------------------------
-- Comments that break a rule
-- ---------------------------------------------------------------------------

theorem mem_codes {fault : Option Rule} (rule : Rule) :
    rule.code ∈ fault.toList.map Rule.code ↔ fault = some rule := by
  rw [List.mem_map_of_injective Rule.code_injective, Option.mem_toList]

end Resource

namespace Comment

variable {c : Comment} {afterDefinition afterOpenGroup isLast : Bool}

theorem blankAfter_iff (hsrc : src.text = source.toList)
    (h : String.Pos.Raw.IsValid source ⟨c.span.stop⟩) :
    c.blankAfter src ↔ LineEndsBehind source.toList c.span.stop 2 :=
  beq_iff_eq.trans (Source.lineEndsAfter_eq_iff hsrc h)

theorem blankBefore_iff (hsrc : src.text = source.toList)
    (h : String.Pos.Raw.IsValid source ⟨c.span.start⟩) :
    c.blankBefore src ↔ c.span.start = 0 ∨ LineEndsAhead source.toList c.span.start 2 := by
  rw [blankBefore, Bool.or_eq_true, beq_iff_eq, beq_iff_eq]
  exact or_congr_right (Source.lineEndsBefore_eq_iff hsrc h)

theorem resourceFault?_eq_placement :
    c.resourceFault? src afterDefinition isLast = some .resourceCommentPlacement ↔ afterDefinition := by
  unfold resourceFault?
  split_ifs <;> simp_all

/-- The rule that a comment on a group breaks, from the first to the last that may apply. -/
theorem groupFault?_eq_some {rule : Rule} :
    c.groupFault? src afterOpenGroup isLast = some rule ↔
      afterOpenGroup ∧ .groupCommentWithoutMessage = rule ∨
      ¬afterOpenGroup ∧ isLast ∧ c.content ≠ "" ∧ .groupCommentAtEnd = rule ∨
      ¬afterOpenGroup ∧ ¬isLast ∧ ¬c.blankAfter src ∧ .groupCommentBlankAfter = rule ∨
      ¬afterOpenGroup ∧ ¬isLast ∧ c.blankAfter src ∧ ¬c.blankBefore src ∧
        .groupCommentBlankBefore = rule := by
  unfold groupFault?
  split_ifs <;> simp_all

end Comment

namespace Resource

variable {r : Resource} {c : Comment} {level : CommentLevel} {span : Span}

theorem isEmpty_drop_succ_iff (hi : i < body.length) :
    (body.drop (i + 1)).isEmpty ↔ i + 1 = body.length := by
  rw [List.isEmpty_iff, List.drop_eq_nil_iff]
  omega

/-- What a comment on a group is told, from what stands before it and around it. -/
theorem mem_codesAt_group (hsrc : src.text = source.toList)
    (hrules : ∀ rule : Rule, rule.category = .comments → rules.isEnabled rule)
    (h : (Node.resource r).Sound source) (hc : r.body[i]? = some (.comment .group c)) (code : String) :
    code ∈ r.codesAt rules src c.span ↔
      OpenBefore r.body i ∧ code = "GC04" ∨
      ¬OpenBefore r.body i ∧ i + 1 = r.body.length ∧ c.content ≠ "" ∧ code = "GC01" ∨
      ¬OpenBefore r.body i ∧ i + 1 ≠ r.body.length ∧
        ¬LineEndsBehind source.toList c.span.stop 2 ∧ code = "GC02" ∨
      ¬OpenBefore r.body i ∧ i + 1 ≠ r.body.length ∧
        LineEndsBehind source.toList c.span.stop 2 ∧ c.span.start ≠ 0 ∧
        ¬LineEndsAhead source.toList c.span.start 2 ∧ code = "GC03" := by
  have hplaced := (h.child (List.mem_map_of_mem (List.mem_of_getElem? hc))).placed
  have hlast := isEmpty_drop_succ_iff (List.getElem?_eq_some_iff.1 hc).1
  have hafter := Comment.blankAfter_iff hsrc hplaced.stop_isValid
  have hbefore := Comment.blankBefore_iff hsrc hplaced.start_isValid
  rw [codesAt_comment hrules h hc, List.mem_map]
  simp only [Option.mem_toList, Comment.fault?, Comment.groupFault?_eq_some, hafter, hbefore, hlast,
    Preceding.openGroup_upTo, not_or]
  constructor
  · rintro ⟨rule, ⟨hopen, rfl⟩ | ⟨hopen, hlast, hcontent, rfl⟩ | ⟨hopen, hlast, hbehind, rfl⟩ |
      ⟨hopen, hlast, hbehind, hahead, rfl⟩, rfl⟩
    · exact .inl ⟨hopen, rfl⟩
    · exact .inr (.inl ⟨hopen, hlast, hcontent, rfl⟩)
    · exact .inr (.inr (.inl ⟨hopen, hlast, hbehind, rfl⟩))
    · exact .inr (.inr (.inr ⟨hopen, hlast, hbehind, hahead.1, hahead.2, rfl⟩))
  · rintro (⟨hopen, rfl⟩ | ⟨hopen, hlast, hcontent, rfl⟩ | ⟨hopen, hlast, hbehind, rfl⟩ |
      ⟨hopen, hlast, hbehind, hstart, hahead, rfl⟩)
    · exact ⟨_, .inl ⟨hopen, rfl⟩, rfl⟩
    · exact ⟨_, .inr (.inl ⟨hopen, hlast, hcontent, rfl⟩), rfl⟩
    · exact ⟨_, .inr (.inr (.inl ⟨hopen, hlast, hbehind, rfl⟩)), rfl⟩
    · exact ⟨_, .inr (.inr (.inr ⟨hopen, hlast, hbehind, ⟨hstart, hahead⟩, rfl⟩)), rfl⟩

theorem keys_isEmpty_upTo (body : List Entry) (i : Nat) :
    (!(Preceding.upTo body i).keys.isEmpty) = true ↔ DefinedBefore body i := by
  rw [← Preceding.keys_upTo, Bool.not_eq_true', List.isEmpty_eq_false_iff]

/-- A comment on the file that comes after a definition is told so, and nothing else. -/
theorem codesAt_resource (hrules : ∀ rule : Rule, rule.category = .comments → rules.isEnabled rule)
    (h : (Node.resource r).Sound source) (hc : r.body[i]? = some (.comment .resource c)) :
    ("RC01" ∈ r.codesAt rules src c.span ↔ DefinedBefore r.body i) ∧
      (DefinedBefore r.body i → r.codesAt rules src c.span = ["RC01"]) := by
  have hdefined := keys_isEmpty_upTo r.body i
  have hmem : "RC01" ∈ r.codesAt rules src c.span ↔ DefinedBefore r.body i := by
    rw [codesAt_comment hrules h hc, ← hdefined]
    exact (mem_codes .resourceCommentPlacement).trans Comment.resourceFault?_eq_placement
  refine ⟨hmem, fun hbefore => ?_⟩
  rw [codesAt_comment hrules h hc, Comment.fault?, Comment.resourceFault?,
    if_pos (hdefined.2 hbefore)]
  rfl

/-- Which comments break a rule, when all rules on comments are enabled. A comment on the file is
misplaced when a definition stands before it, and then nothing else is wrong. A comment on a group is
wrong when a group is open; else, at the end of the file, unless it is empty; else, when no single blank
line follows; else, when none stands before it, save at the start of the file. No comment breaks two
rules, and a note breaks none. -/
theorem lint_comments (hsrc : src.text = source.toList)
    (hrules : ∀ rule : Rule, rule.category = .comments → rules.isEnabled rule)
    (h : Resource.parse source = .ok r) :
    (∀ i c, r.body[i]? = some (.comment .resource c) →
      ("RC01" ∈ r.codesAt rules src c.span ↔ DefinedBefore r.body i) ∧
        (DefinedBefore r.body i → r.codesAt rules src c.span = ["RC01"])) ∧
    (∀ i c, r.body[i]? = some (.comment .group c) → ∀ code,
      code ∈ r.codesAt rules src c.span ↔
        OpenBefore r.body i ∧ code = "GC04" ∨
        ¬OpenBefore r.body i ∧ i + 1 = r.body.length ∧ c.content ≠ "" ∧ code = "GC01" ∨
        ¬OpenBefore r.body i ∧ i + 1 ≠ r.body.length ∧
          ¬LineEndsBehind source.toList c.span.stop 2 ∧ code = "GC02" ∨
        ¬OpenBefore r.body i ∧ i + 1 ≠ r.body.length ∧
          LineEndsBehind source.toList c.span.stop 2 ∧ c.span.start ≠ 0 ∧
          ¬LineEndsAhead source.toList c.span.start 2 ∧ code = "GC03") ∧
    (∀ level c, .comment level c ∈ r.body → (r.codesAt rules src c.span).length ≤ 1) ∧
    ∀ c, .comment .note c ∈ r.body ∨ (∃ e ∈ r.body, e.note? = some c) →
      r.codesAt rules src c.span = [] := by
  have hsound := parse_sound h
  refine ⟨fun i c hc => codesAt_resource hrules hsound hc,
    fun i c hc => mem_codesAt_group hsrc hrules hsound hc, fun level c hc => ?_, ?_⟩
  · obtain ⟨i, hi⟩ := List.mem_iff_getElem?.1 hc
    rw [codesAt_comment hrules hsound hi, List.length_map]
    exact Option.length_toList_le
  · rintro c (hc | ⟨e, he, hc⟩)
    · obtain ⟨i, hi⟩ := List.mem_iff_getElem?.1 hc
      rw [codesAt_comment hrules hsound hi]
      rfl
    · obtain ⟨i, hi⟩ := List.mem_iff_getElem?.1 he
      exact codesAt_note (parse_every h) hsound hi hc

/-- Two groups behind a message, and then a comment on the file: the second group is told that the first
is open, the comment on the file that it is late. The first group of the file is told by its spacing,
and the note on the message nothing. -/
theorem lint_comments_open :
    ∃ r : Resource, Resource.parse "## a\n# n\nb = c\n\n## d\n\n## e\n\n### f\n" = .ok r ∧
      ∃ src : Source, src.text = "## a\n# n\nb = c\n\n## d\n\n## e\n\n### f\n".toList ∧
        ((r.lint .allEnabled src).map fun v => (v.code, v.location.offset)) =
          [("GC02", 0), ("GC04", 22), ("RC01", 28)] ∧
        "GC04" ∈ r.codesAt .allEnabled src ⟨22, 26⟩ ∧
        r.codesAt .allEnabled src ⟨28, 33⟩ = ["RC01"] ∧ r.codesAt .allEnabled src ⟨5, 8⟩ = [] := by
  let source := "## a\n# n\nb = c\n\n## d\n\n## e\n\n### f\n"
  let value : Pattern := ⟨[.text ⟨"c", ⟨13, 14⟩⟩], ⟨13, 14⟩⟩
  let body : List Entry :=
    [.comment .group ⟨"a", ⟨0, 4⟩⟩,
      .message ⟨⟨"b", ⟨9, 10⟩⟩, some value, [], some ⟨"n", ⟨5, 8⟩⟩, ⟨5, 14⟩⟩,
      .comment .group ⟨"d", ⟨16, 20⟩⟩, .comment .group ⟨"e", ⟨22, 26⟩⟩,
      .comment .resource ⟨"f", ⟨28, 33⟩⟩]
  have hparse : Resource.parse source = .ok ⟨body, ⟨0, 34⟩⟩ := by cbv
  let src : Source := ⟨"a.ftl", "a.ftl", source.toList, ⟨[4, 8, 14, 15, 20, 21, 26, 27, 33]⟩⟩
  have hrules : ∀ rule : Rule, rule.category = .comments → RuleSet.allEnabled.isEnabled rule :=
    fun _ _ => rfl
  have hsrc : src.text = source.toList := rfl
  obtain ⟨hresource, hgroup, -, hnote⟩ := lint_comments hsrc hrules hparse
  have hopen : OpenBefore body 3 := ⟨2, by decide, ⟨_, rfl⟩, fun k e hlow hhigh => by omega⟩
  have hdefined : DefinedBefore body 4 := ⟨1, by decide, _, rfl, rfl⟩
  refine ⟨_, hparse, src, hsrc, by decide +kernel, ?_, ?_, ?_⟩
  · exact (hgroup 3 ⟨"e", ⟨22, 26⟩⟩ rfl "GC04").2 (.inl ⟨hopen, rfl⟩)
  · exact (hresource 4 ⟨"f", ⟨28, 33⟩⟩ rfl).2 hdefined
  · exact hnote ⟨"n", ⟨5, 8⟩⟩ (.inr ⟨_, List.mem_cons_of_mem _ List.mem_cons_self, rfl⟩)

end Resource

end MessageLint
