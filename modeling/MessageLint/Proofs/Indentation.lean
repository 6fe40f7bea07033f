-- SUMMARY: The least indentation, kept while a pattern is read, is what every line can lose.
import MessageLint.Proofs.Visible.Pattern

/-!
# Removing indentation

The least indentation of a pattern is taken from its pieces once all of them are there. It can be kept
while they are read as well, next to the pieces (`Parser.measuredPieces`), and then so many characters cut
off the end of each indentation, whatever they are (`Piece.truncate`). This is the same reading
(`Parser.pattern_eq_measured`), because of what is known when the pieces are complete (`Piece.Dedentable`):
each indentation ends with so many spaces, so that no line end is lost, and something to see is right
behind it.
-/

namespace MessageLint

variable {c d m : Cursor} {block : Bool} {top common : Nat} {p : Piece} {ps : List Piece}

-- ---------------------------------------------------------------------------
-- Cutting off
-- ---------------------------------------------------------------------------

namespace Piece

/-- What an indentation says as it was read: its line ends, and the spaces behind them. -/
def indentation (newlines spaces : Nat) : List Char :=
  List.replicate newlines '\n' ++ List.replicate spaces ' '

/-- An indentation without its last `common` characters. -/
def cut (common newlines spaces : Nat) : List Char :=
  (indentation newlines spaces).take ((indentation newlines spaces).length - common)

/-- The piece with an indentation cut; what becomes empty is dropped. -/
def truncate (common : Nat) : Piece → Option Element
  | .indent newlines spaces span =>
    if (cut common newlines spaces).isEmpty then
      none
    else
      some (.text ⟨String.ofList (cut common newlines spaces), span⟩)
  | .text t => some (.text t)
  | .placeable q => some (.placeable q)

/-- The least indentation once a piece is read, when it was `least` before. -/
def narrow (least : Nat) : Piece → Nat
  | .indent _ spaces _ => min least spaces
  | _ => least

/-- The elements that pieces stand for when their indentations are cut. -/
def truncated (common : Nat) (ps : List Piece) : List Element :=
  Element.trimLast (Element.join (ps.filterMap (truncate common)))

/-- Where an indentation has that many spaces, nothing but spaces is cut off. -/
theorem cut_eq {newlines spaces : Nat} (h : common ≤ spaces) :
    cut common newlines spaces = indentation newlines (spaces - common) := by
  have hlength : (indentation newlines spaces).length - common = newlines + (spaces - common) := by
    rw [indentation, List.length_append, List.length_replicate, List.length_replicate,
      Nat.add_sub_assoc h]
  rw [cut, hlength, indentation, indentation, List.take_append, List.length_replicate,
    Nat.add_sub_cancel_left, List.take_of_length_le (by simp), List.take_replicate,
    Nat.min_eq_left (Nat.sub_le ..)]

theorem cut_append {newlines spaces : Nat} (h : common ≤ spaces) :
    cut common newlines spaces ++ List.replicate common ' ' = indentation newlines spaces := by
  rw [cut_eq h, indentation, indentation, List.append_assoc, List.replicate_append_replicate,
    Nat.sub_add_cancel h]

theorem truncate_eq_dedent (h : ∀ n, p.spaces? = some n → common ≤ n) :
    p.truncate common = p.dedent common := by
  cases p with
  | text | placeable => rfl
  | indent newlines spaces span =>
    have hempty : (indentation newlines (spaces - common)).isEmpty = true ↔
        newlines = 0 ∧ spaces - common = 0 := by
      simp [indentation]
    rw [truncate, dedent, cut_eq (h spaces rfl)]
    simp only [hempty]
    rfl

-- ---------------------------------------------------------------------------
-- The least indentation
-- ---------------------------------------------------------------------------

theorem foldl_narrow_eq (ps : List Piece) (least : Nat) :
    ps.foldl narrow least = (ps.filterMap spaces?).foldl min least := by
  induction ps generalizing least with
  | nil => rfl
  | cons p ps ih =>
    cases p with
    | text | placeable => exact ih least
    | indent newlines spaces span => exact ih (min least spaces)

/-- The least indentation that is kept in reading is the least of all, or `top` if there is none. -/
theorem foldl_narrow (htop : ∀ n ∈ ps.filterMap spaces?, n ≤ top) :
    ps.foldl narrow top = (ps.filterMap spaces?).min?.getD top := by
  rw [foldl_narrow_eq]
  cases hspaces : ps.filterMap spaces? with
  | nil => rfl
  | cons n ns =>
    rw [hspaces] at htop
    rw [List.foldl_cons, Nat.min_eq_right (htop n List.mem_cons_self)]
    rfl

/-- What is known of the pieces of a pattern when their indentation is removed. `common` is the least
indentation as it was kept while they were read, and `top` is what it was before there was any. -/
structure Dedentable (top common : Nat) (ps : List Piece) : Prop where
  /-- It is the least number of spaces of all indentations; without any it is still `top`. -/
  least : common = (ps.filterMap spaces?).min?.getD top
  /-- Each indentation is at least that long, and loses that many spaces and no line end. -/
  cuts : ∀ newlines spaces span, .indent newlines spaces span ∈ ps →
    common ≤ spaces ∧ common ≤ (indentation newlines spaces).length ∧
      cut common newlines spaces = indentation newlines (spaces - common) ∧
      cut common newlines spaces ++ List.replicate common ' ' = indentation newlines spaces
  /-- Right behind an indentation there is a placeable, or text that starts with something to see. -/
  followed : Followed ps
  /-- If there are indentations, one of them is left with its line ends only. -/
  bare : (∃ newlines spaces span, .indent newlines spaces span ∈ ps) →
    ∃ newlines spaces span, .indent newlines spaces span ∈ ps ∧
      cut common newlines spaces = List.replicate newlines '\n'

theorem mem_spaces? {n : Nat} :
    n ∈ ps.filterMap spaces? ↔ ∃ newlines span, .indent newlines n span ∈ ps := by
  rw [List.mem_filterMap]
  constructor
  · rintro ⟨p, hp, hn⟩
    cases p with
    | text | placeable => cases hn
    | indent newlines spaces span =>
      obtain rfl := Option.some.inj hn
      exact ⟨newlines, span, hp⟩
  · rintro ⟨newlines, span, hp⟩
    exact ⟨_, hp, rfl⟩

/-- Where there is an indentation, one of them is the least. -/
theorem exists_least {newlines spaces : Nat} {span : Span} (hp : .indent newlines spaces span ∈ ps) :
    ∃ n, (ps.filterMap spaces?).min? = some n ∧ n ≤ spaces ∧
      ∃ newlines span, .indent newlines n span ∈ ps := by
  have hmem := mem_spaces?.2 ⟨newlines, span, hp⟩
  obtain ⟨n, hn⟩ := Option.isSome_iff_exists.1 (List.isSome_min?_of_mem hmem)
  obtain ⟨hleast, hle⟩ := List.min?_eq_some_iff.1 hn
  exact ⟨n, hn, hle spaces hmem, mem_spaces?.1 hleast⟩

theorem Dedentable.of_followed (htop : ∀ n ∈ ps.filterMap spaces?, n ≤ top) (h : Followed ps) :
    Dedentable top (ps.foldl narrow top) ps := by
  have hleast := foldl_narrow htop
  refine ⟨hleast, fun newlines spaces span hp => ?_, h, ?_⟩
  · obtain ⟨n, hn, hspaces, -⟩ := exists_least hp
    rw [hleast, hn, Option.getD_some]
    refine ⟨hspaces, ?_, cut_eq hspaces, cut_append hspaces⟩
    rw [indentation, List.length_append, List.length_replicate, List.length_replicate]
    exact Nat.le_add_left_of_le hspaces
  · rintro ⟨_, _, _, hp⟩
    obtain ⟨n, hn, -, newlines, span, hp⟩ := exists_least hp
    refine ⟨newlines, n, span, hp, ?_⟩
    rw [hleast, hn, Option.getD_some, cut_eq (Nat.le_refl n), Nat.sub_self, indentation,
      List.replicate_zero, List.append_nil]

/-- Cutting makes the same elements. -/
theorem Dedentable.truncated_eq (h : Dedentable top common ps) : truncated common ps = elements ps := by
  rw [truncated, elements]
  congr 2
  refine List.filterMap_congr fun p hp => ?_
  cases p with
  | text | placeable => rfl
  | indent newlines spaces span =>
    obtain ⟨n, hn, hle, -⟩ := exists_least hp
    have hcommon : common = n := by rw [h.least, hn, Option.getD_some]
    have hleast : commonIndent ps = n := by rw [commonIndent, hn, Option.getD_some]
    rw [hcommon, hleast, truncate_eq_dedent]
    rintro _ ⟨⟩
    exact hle

end Piece

-- ---------------------------------------------------------------------------
-- Reading
-- ---------------------------------------------------------------------------

/-- The pattern behind `c` is read from `m`: from its first character on this line, or as a block from the
start of the first line below that holds something. -/
inductive Cursor.PatternFrom (c : Cursor) : Bool → Cursor → Prop
  | line : c.skipSpaces.rest ≠ [] → c.skipSpaces.peek ≠ some '\n' → PatternFrom c false c.skipSpaces
  | block : c.skipSpaces.rest = [] ∨ c.skipSpaces.peek = some '\n' →
      c.skipSpaces.skipBlankLines.2.continuesPattern →
        PatternFrom c true c.skipSpaces.skipBlankLines.2

theorem Cursor.PatternFrom.reads (h : c.PatternFrom block m) : ∃ text, c.Reads text m := by
  cases h with
  | line => exact ⟨_, c.reads_skipSpaces⟩
  | block =>
    obtain ⟨blank, hblank⟩ := c.skipSpaces.skipBlankLines_ends
    exact ⟨_, c.reads_skipSpaces.trans hblank.reads⟩

theorem Cursor.PatternFrom.opens (h : c.PatternFrom block m) : m.OpensPattern block := by
  cases h with
  | line hrest hline =>
    obtain ⟨ch, r, hr⟩ := List.exists_cons_of_ne_nil hrest
    have hpeek : c.skipSpaces.peek = some ch := Cursor.peek_eq_some.2 ⟨r, hr⟩
    exact ⟨ch, hpeek, Cursor.isBlank_of_peek_skipSpaces hpeek fun heq => hline (heq ▸ hpeek)⟩
  | block _ hcontinues => exact Cursor.opensPattern_of_continues hcontinues

namespace Parser

variable {placeable : Parser Placeable}

/-- The rounds of a pattern, with the least indentation so far. -/
def measure (placeable : Parser Placeable) (seen : List Piece) (least : Nat) :
    Parser (List Piece × Nat) := fun c =>
  if c.continuesPiece then
    match piece placeable c with
    | .error e => .error e
    | .ok (p, d) =>
      if d.rest.length < c.rest.length then
        measure placeable (p :: seen) (p.narrow least) d
      else
        .ok (((p :: seen).reverse, p.narrow least), d)
  else
    .ok ((seen.reverse, least), c)
termination_by c => c.rest.length

/-- The pieces of a pattern and the least indentation, which is `top` before there is any. -/
def measuredPieces (top : Nat) (placeable : Parser Placeable) (block : Bool) :
    Parser (List Piece × Nat) := do
  if block then
    let start ← place
    let spaces ← countSpaces
    measure placeable [.indent 0 spaces (← spanFrom start)] spaces
  else
    measure placeable [] top

def measuredPattern (top : Nat) (placeable : Parser Placeable) (block : Bool) : Parser Pattern := do
  let start ← place
  let (pieces, common) ← measuredPieces top placeable block
  return ⟨Piece.truncated common pieces, ← spanFrom start⟩

/-- The least indentation so far is that of the pieces that were read so far. -/
theorem measure_eq (top : Nat) (seen : List Piece) :
    measure placeable seen (seen.reverse.foldl Piece.narrow top) c =
      (gather (fun _ c => c.continuesPiece) (fun _ => piece placeable) seen c).map
        fun r => ((r.1, r.1.foldl Piece.narrow top), r.2) := by
  have hround : ∀ p : Piece, ∀ seen : List Piece, p.narrow (seen.reverse.foldl Piece.narrow top) =
      (p :: seen).reverse.foldl Piece.narrow top := fun p seen => by
    rw [List.reverse_cons, List.foldl_append, List.foldl_cons, List.foldl_nil]
  fun_induction gather (fun _ c => c.continuesPiece) (fun _ => piece placeable) seen c with
  | case1 seen c hmore e hrun =>
    rw [measure, if_pos hmore, hrun]
    rfl
  | case2 seen c hmore p m hrun hlt ih =>
    rw [measure, if_pos hmore, hrun]
    simp only [if_pos hlt, hround]
    exact ih
  | case3 seen c hmore p m hrun hlt =>
    rw [measure, if_pos hmore, hrun]
    simp only [if_neg hlt, hround]
    rfl
  | case4 seen c hmore =>
    rw [measure, if_neg hmore]
    rfl

/-- What opens a block is no longer than what is left to read. -/
theorem OpeningAt.spaces_le {opening : List Piece} (h : OpeningAt c block opening m)
    (htop : c.rest.length ≤ top) : ∀ n ∈ opening.filterMap Piece.spaces?, n ≤ top := by
  cases block with
  | false =>
    obtain ⟨-, rfl⟩ := h
    simp
  | true =>
    obtain ⟨-, rfl⟩ := h
    intro n hn
    obtain rfl : n = (c.rest.takeWhile Cursor.isSpace).length := by simpa [Piece.spaces?] using hn
    exact Nat.le_trans (List.takeWhile_prefix _).length_le htop

/-- Measuring changes nothing of what is read. -/
theorem measuredPieces_eq (htop : c.rest.length ≤ top) :
    measuredPieces top placeable block c =
      (pieces placeable block c).map fun r => ((r.1, r.1.foldl Piece.narrow top), r.2) := by
  cases block with
  | false => exact measure_eq top []
  | true =>
    let opening : Piece :=
      .indent 0 (c.rest.takeWhile Cursor.isSpace).length (c.spanTo c.skipSpaces)
    have hspaces : (c.rest.takeWhile Cursor.isSpace).length ≤ top :=
      Nat.le_trans (List.takeWhile_prefix _).length_le htop
    have hmeasured : measuredPieces top placeable true c =
        measure placeable [opening] (c.rest.takeWhile Cursor.isSpace).length c.skipSpaces := by
      simp [measuredPieces, countSpaces_bind, opening]
    have hpieces : pieces placeable true c =
        gather (fun _ c => c.continuesPiece) (fun _ => piece placeable) [opening] c.skipSpaces := by
      simp [pieces, blockIndent, countSpaces_bind, opening]
    have hleast : [opening].reverse.foldl Piece.narrow top =
        (c.rest.takeWhile Cursor.isSpace).length := Nat.min_eq_right hspaces
    rw [hmeasured, hpieces, ← hleast, measure_eq]

theorem piece_spaces_le (h : piece placeable c = .ok (p, d)) {n : Nat} (hn : p.spaces? = some n) :
    n ≤ c.rest.length := by
  obtain ⟨-, -, rfl⟩ | ⟨q, -, -, rfl⟩ | ⟨-, -, -, -, rfl⟩ := piece_ok h
  · obtain rfl := Option.some.inj hn
    obtain ⟨blank, hblank⟩ := c.skipBlankLines_ends
    exact Nat.le_trans (List.takeWhile_prefix _).length_le hblank.reads.length_le
  · cases hn
  · cases hn

/-- No indentation is longer than what is left to read. -/
theorem gather_spaces_le {opening : List Piece} (htop : c.rest.length ≤ top)
    (hopening : ∀ n ∈ opening.filterMap Piece.spaces?, n ≤ top)
    (h : gather (fun _ c => c.continuesPiece) (fun _ => piece placeable) opening c = .ok (ps, d)) :
    ∀ n ∈ ps.filterMap Piece.spaces?, n ≤ top := by
  have hcons : ∀ {c d : Cursor} {p : Piece} {ps : List Piece}, c.rest.length ≤ top →
      piece placeable c = .ok (p, d) → (∀ n ∈ ps.filterMap Piece.spaces?, n ≤ top) →
        ∀ n ∈ (p :: ps).filterMap Piece.spaces?, n ≤ top := fun hc hrun hps n hn => by
    obtain ⟨q, hq, hspaces⟩ := List.mem_filterMap.1 hn
    rcases List.mem_cons.1 hq with rfl | hq
    · exact Nat.le_trans (piece_spaces_le hrun hspaces) hc
    · exact hps n (List.mem_filterMap.2 ⟨q, hq, hspaces⟩)
  obtain ⟨new, rfl, hnew⟩ := gather_suffixes (I := fun c => c.rest.length ≤ top)
    (P := fun _ new => ∀ n ∈ new.filterMap Piece.spaces?, n ≤ top)
    (fun _ _ _ => by simp)
    (fun _ _ _ hc _ hrun _ => hcons hc hrun (by simp))
    (fun _ _ _ hc _ hrun hlt => ⟨by omega, fun _ hps => hcons hc hrun hps⟩) htop h
  intro n hn
  rw [List.filterMap_append, List.mem_append, List.filterMap_reverse, List.mem_reverse] at hn
  exact hn.elim (hopening n) (hnew n)

/-- The pieces of a pattern are ready to lose their indentation. -/
theorem pieces_dedentable (hopens : c.OpensPattern block) (htop : c.rest.length ≤ top)
    (h : pieces placeable block c = .ok (ps, d)) :
    Piece.Dedentable top (ps.foldl Piece.narrow top) ps := by
  obtain ⟨opening, m, hopening, hpieces⟩ := pieces_ok h
  obtain ⟨text, hreads⟩ := hopening.reads
  have hrest := Nat.le_trans hreads.length_le htop
  exact .of_followed (gather_spaces_le hrest (hopening.spaces_le htop) hpieces)
    (hopening.followed hopens hpieces)

/-- A pattern is the same when its indentation is kept measured, and cut. -/
theorem pattern_eq_measured (hopens : c.OpensPattern block) (htop : c.rest.length ≤ top) :
    pattern placeable block c = measuredPattern top placeable block c := by
  have hmeasured : measuredPieces top placeable block c =
      (pieces placeable block c).map fun r => ((r.1, r.1.foldl Piece.narrow top), r.2) :=
    measuredPieces_eq htop
  cases hpieces : pieces placeable block c with
  | error e =>
    rw [hpieces] at hmeasured
    have hpattern : pattern placeable block c = .error e := by
      rw [pattern, place_bind]
      exact bind_eq_error.2 (.inl hpieces)
    rw [hpattern, measuredPattern, place_bind]
    exact (bind_eq_error.2 (.inl hmeasured)).symm
  | ok r =>
    obtain ⟨ps, d⟩ := r
    rw [hpieces] at hmeasured
    have hpattern : pattern placeable block c = .ok (⟨Piece.elements ps, c.spanTo d⟩, d) := by
      rw [pattern, place_bind]
      exact bind_eq_ok.2 ⟨ps, d, hpieces, rfl⟩
    rw [hpattern, ← (pieces_dedentable hopens htop hpieces).truncated_eq, measuredPattern, place_bind]
    exact (bind_eq_ok.2 ⟨_, d, hmeasured, rfl⟩).symm

theorem pattern?_of_from (h : c.PatternFrom block m) :
    pattern? placeable c = (some <$> pattern placeable block) m := by
  simp only [pattern?, place_bind, ite_apply, Cursor.atEnd, Bool.or_eq_true, List.isEmpty_iff,
    decide_eq_true_eq]
  cases h with
  | line hrest hline =>
    rw [if_neg (not_or.2 ⟨hrest, hline⟩), moveTo_bind]
    rfl
  | block hend hcontinues =>
    rw [if_pos hend, if_pos hcontinues, moveTo_bind]
    rfl

theorem pattern?_of_not_from (h : ∀ block m, ¬c.PatternFrom block m) :
    pattern? placeable c = .ok (none, c) := by
  have hend : c.skipSpaces.rest = [] ∨ c.skipSpaces.peek = some '\n' := by
    by_contra hnot
    obtain ⟨hrest, hline⟩ := not_or.1 hnot
    exact h _ _ (.line hrest hline)
  have hcontinues : ¬c.skipSpaces.skipBlankLines.2.continuesPattern := fun hcontinues =>
    h _ _ (.block hend hcontinues)
  simp only [pattern?, place_bind, ite_apply, Cursor.atEnd, Bool.or_eq_true, List.isEmpty_iff,
    decide_eq_true_eq]
  rw [if_pos hend, if_neg hcontinues]
  rfl

/-- Wherever a pattern may stand, and whatever placeables are: either none is read, or it is read from one
place, and the answer is that of measuring its indentation and cutting it off. Whenever its pieces are
complete, they are ready for that. Nothing that is left to read is longer than `top`. -/
theorem pattern?_measured (placeable : Parser Placeable) (htop : c.rest.length ≤ top) :
    ((∀ block m, ¬c.PatternFrom block m) → pattern? placeable c = .ok (none, c)) ∧
    ∀ block m, c.PatternFrom block m →
      pattern? placeable c = (some <$> measuredPattern top placeable block) m ∧
      ∀ ps common d, measuredPieces top placeable block m = .ok ((ps, common), d) →
        Piece.Dedentable top common ps := by
  refine ⟨pattern?_of_not_from, fun block m h => ?_⟩
  obtain ⟨text, hreads⟩ := h.reads
  have hrest := Nat.le_trans hreads.length_le htop
  refine ⟨?_, fun ps common d hrun => ?_⟩
  · rw [pattern?_of_from h]
    exact bind_congr (pattern_eq_measured h.opens hrest) _
  · rw [measuredPieces_eq hrest] at hrun
    cases hpieces : pieces placeable block m with
    | error e =>
      rw [hpieces] at hrun
      cases hrun
    | ok r =>
      rw [hpieces] at hrun
      obtain ⟨hpair, rfl⟩ := Prod.mk.inj (Except.ok.inj hrun)
      obtain ⟨rfl, rfl⟩ := Prod.mk.inj hpair
      exact pieces_dedentable h.opens hrest hpieces

theorem pattern?_measured_block :
    let source := Cursor.ofString "\n    One\n\n  Two\n    \x7b$x\x7d\n"
    source.rest.length ≤ 2 ^ 64 - 1 ∧
      source.PatternFrom true source.next ∧
      pattern? Parser.placeable source =
        (some <$> measuredPattern (2 ^ 64 - 1) Parser.placeable true) source.next ∧
      ∃ q span, Piece.Dedentable (2 ^ 64 - 1) 2
        [.indent 0 4 ⟨1, 5⟩, .text ⟨"One", ⟨5, 8⟩⟩, .indent 2 2 ⟨8, 12⟩, .text ⟨"Two", ⟨12, 15⟩⟩,
          .indent 1 4 span, .placeable q] := by
  intro source
  have htop : source.rest.length ≤ 2 ^ 64 - 1 := by decide
  have hfrom : source.PatternFrom true source.next := .block (.inr rfl) (by decide)
  have hmeasured := (pattern?_measured Parser.placeable htop).2 true source.next hfrom
  have hrun : measuredPieces (2 ^ 64 - 1) Parser.placeable true source.next = .ok ((
      [.indent 0 4 ⟨1, 5⟩, .text ⟨"One", ⟨5, 8⟩⟩, .indent 2 2 ⟨8, 12⟩, .text ⟨"Two", ⟨12, 15⟩⟩,
        .indent 1 4 ⟨15, 20⟩, .placeable ⟨.inline (.variableRef ⟨"x", ⟨22, 23⟩⟩ ⟨21, 23⟩), ⟨20, 24⟩⟩], 2),
      ⟨['\n'], 24⟩) := by cbv
  exact ⟨htop, hfrom, hmeasured.1, _, _, hmeasured.2 _ _ _ hrun⟩

end Parser

end MessageLint
