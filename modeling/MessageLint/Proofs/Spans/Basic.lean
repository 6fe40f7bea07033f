-- SUMMARY: Rows of nodes between two cursors, and what a node owes to the source it was read from.
import MessageLint.Proofs.Cursor
import MessageLint.Proofs.Node

/-!
# Spans of nodes

`n.Placed source` says what the span of one node must be: a stretch of whole characters of the
source that shows what the node stands for and holds the children of the node, one behind the other.
`n.Sound source` says so of all nodes from `n` down.

A parser reads nodes one behind the other, so what it has read so far is a row: `Filled source c d ns`
says that sound nodes `ns` lie in order between the cursors `c` and `d`. Rows are put together with
`Filled.append`, and `Filled.node` closes a row into the node whose children it holds.
-/

namespace MessageLint

-- ---------------------------------------------------------------------------
-- Boundaries of characters
-- ---------------------------------------------------------------------------

section Boundary

variable {source : String} {c d : Cursor}

theorem Cursor.In.isValid (h : c.In source.toList) : String.Pos.Raw.IsValid source ⟨c.offset⟩ := by
  obtain ⟨before, hs, ho⟩ := h
  refine String.Pos.Raw.isValid_iff_exists_append.2
    ⟨String.ofList before, String.ofList c.rest, ?_, ?_⟩
  · rw [← String.ofList_append, ← hs, String.ofList_toList]
  · have hsize : (String.ofList before).utf8ByteSize = byteLength before := by
      rw [← byteLength_toList, String.toList_ofList]
    exact String.Pos.Raw.ext (ho.trans hsize.symm)

theorem exists_in_of_isValid {offset : Nat} (h : String.Pos.Raw.IsValid source ⟨offset⟩) :
    ∃ c : Cursor, c.In source.toList ∧ c.offset = offset := by
  obtain ⟨before, after, rfl, ho⟩ := String.Pos.Raw.isValid_iff_exists_append.1 h
  obtain rfl : offset = before.utf8ByteSize := by simpa [String.Pos.Raw.ext_iff] using ho
  exact ⟨⟨after.toList, _⟩, ⟨before.toList, by simp, (byteLength_toList before).symm⟩, rfl⟩

/-- Of two cursors in one source, the later one is reached from the earlier one by reading. -/
theorem Cursor.In.reads {source : List Char} (hc : c.In source) (hd : d.In source)
    (hle : c.offset ≤ d.offset) : ∃ text, c.Reads text d := by
  obtain ⟨before, hs, hbefore⟩ := hc
  obtain ⟨before', hs', hbefore'⟩ := hd
  obtain ⟨text, hd, hrest⟩ | ⟨text, hc, hrest⟩ := List.append_eq_append_iff.1 (hs.symm.trans hs')
  · exact ⟨text, hrest, by rw [hbefore, hbefore', hd, byteLength_append]⟩
  · have hempty : byteLength text = 0 := by rw [hbefore, hbefore', hc, byteLength_append] at hle; omega
    obtain rfl : text = [] := by
      by_contra hne
      have := byteLength_pos hne
      omega
    exact ⟨[], hrest.symm, by rw [hbefore, hbefore', hc, List.append_nil]; rfl⟩

/-- Between two places lies at least the character at the first one. -/
theorem Cursor.In.reads_cons {source : List Char} (hc : c.In source) (hd : d.In source)
    (hlt : c.offset < d.offset) {ch : Char} (hpeek : c.peek = some ch) :
    ∃ text, c.Reads (ch :: text) d := by
  obtain ⟨text, hreads⟩ := hc.reads hd (Nat.le_of_lt hlt)
  obtain ⟨r, hr⟩ := peek_eq_some.1 hpeek
  cases text with
  | nil =>
    have := hreads.offset
    simp at this
    omega
  | cons first text =>
    obtain ⟨rfl, -⟩ : ch = first ∧ r = text ++ d.rest := by simpa [hr] using hreads.rest
    exact ⟨text, hreads⟩

theorem Cursor.Reads.unique {text text' : List Char} (h : c.Reads text d) (h' : c.Reads text' d) :
    text = text' :=
  List.append_cancel_right (h.rest.symm.trans h'.rest)

/-- A character that starts between two places was read between them. -/
theorem Cursor.Reads.mem_of_between {source text : List Char} {k : Cursor} {ch : Char}
    (h : c.Reads text d) (hc : c.In source) (hk : k.In source) (hpeek : k.peek = some ch)
    (hle : c.offset ≤ k.offset) (hlt : k.offset < d.offset) : ch ∈ text := by
  obtain ⟨before, hbefore⟩ := hc.reads hk hle
  obtain ⟨more, hmore⟩ := hk.reads_cons (h.in hc) hlt hpeek
  rw [h.unique (hbefore.trans hmore)]
  simp

/-- And it was read whole. -/
theorem Cursor.In.char_le {source : List Char} {k : Cursor} {ch : Char} (hk : k.In source)
    (hd : d.In source) (hpeek : k.peek = some ch) (hlt : k.offset < d.offset) :
    k.offset + ch.utf8Size ≤ d.offset := by
  obtain ⟨more, hmore⟩ := hk.reads_cons hd hlt hpeek
  have hlength := hmore.offset
  rw [byteLength_cons] at hlength
  omega

end Boundary

-- ---------------------------------------------------------------------------
-- What a node owes to its source
-- ---------------------------------------------------------------------------

/-- A line of a comment as it is written: its markers, and behind a space what it says; the space may
be missing where it says nothing. -/
def CommentLevel.Writes (level : CommentLevel) (written line : List Char) : Prop :=
  written = List.replicate level.markers '#' ∧ line = [] ∨
    written = List.replicate level.markers '#' ++ ' ' :: line

/-- The text of a comment: each of its lines is a line of the content. -/
def CommentLevel.WritesAll (level : CommentLevel) (text : List Char) (content : String) : Prop :=
  List.Forall₂ level.Writes (text.splitOn '\n') (content.toList.splitOn '\n')

namespace Node

/-- What the text under the span of a node must look like. -/
def Shows (text : List Char) : Node → Prop
  | .identifier id => text = id.name.toList
  | .number n => text = n.value.toList
  | .string _ => ∃ inner, text = '"' :: inner ++ ['"']
  | .placeable _ => ∃ inner, text = '\x7b' :: inner ++ ['\x7d']
  | .note c => CommentLevel.note.WritesAll text c.content
  | .entry (.comment level c) => level.WritesAll text c.content
  | _ => True

/-- The span of a node is a stretch of the source that shows the node and holds its children in
order. -/
structure Placed (source : String) (n : Node) : Prop where
  start_le_stop : n.span.start ≤ n.span.stop
  stop_le_size : n.span.stop ≤ source.utf8ByteSize
  start_isValid : String.Pos.Raw.IsValid source ⟨n.span.start⟩
  stop_isValid : String.Pos.Raw.IsValid source ⟨n.span.stop⟩
  shows : ∃ text, n.span.slice? source.toList = some text ∧ n.Shows text
  covers : ∀ k ∈ n.children, n.span.start ≤ k.span.start ∧ k.span.stop ≤ n.span.stop
  ordered : n.children.Pairwise fun j k => j.span.stop ≤ k.span.start

/-- Every node from `n` down is placed. -/
inductive Sound (source : String) : Node → Prop
  | mk {n : Node} : n.Placed source → (∀ k ∈ n.children, Sound source k) → Sound source n

variable {source : String} {n k : Node}

/-- A node that shows some text is not empty. -/
theorem Placed.start_lt_stop (h : n.Placed source) (hshows : ¬n.Shows []) :
    n.span.start < n.span.stop := by
  obtain ⟨text, hslice, hshown⟩ := h.shows
  refine Nat.lt_of_le_of_ne h.start_le_stop fun heq => hshows ?_
  obtain ⟨⟨before, after⟩, -, hafter⟩ := Option.bind_eq_some_iff.1 hslice
  have hlength : n.span.length = 0 := by rw [Span.length, heq, Nat.sub_self]
  obtain rfl : [] = text := by simpa [hlength, splitBytes?, splitBytesOnto] using hafter
  exact hshown

theorem Sound.placed (h : n.Sound source) : n.Placed source := by
  obtain ⟨hn, _⟩ := h
  exact hn

theorem Sound.child (h : n.Sound source) (hk : k ∈ n.children) : k.Sound source := by
  obtain ⟨_, hchildren⟩ := h
  exact hchildren k hk

theorem Sound.of_holds (h : n.Sound source) (hk : n.Holds k) : k.Sound source := by
  induction hk with
  | self => exact h
  | child hmem _ ih => exact ih (h.child hmem)

theorem Sound.placed_of_holds (h : n.Sound source) (hk : n.Holds k) : k.Placed source :=
  (h.of_holds hk).placed

/-- A node covers all nodes below it. -/
theorem Sound.within (h : n.Sound source) (hk : n.Holds k) :
    n.span.start ≤ k.span.start ∧ k.span.stop ≤ n.span.stop := by
  induction hk with
  | self n => exact ⟨Nat.le_refl _, Nat.le_refl _⟩
  | child hmem _ ih =>
    have := h.placed.covers _ hmem
    have := ih (h.child hmem)
    omega

end Node

-- ---------------------------------------------------------------------------
-- Rows
-- ---------------------------------------------------------------------------

/-- Sound nodes that stand one behind the other between two offsets. -/
def Row (source : String) : Nat → Nat → List Node → Prop
  | lo, hi, [] => lo ≤ hi
  | lo, hi, n :: ns => lo ≤ n.span.start ∧ n.Sound source ∧ Row source n.span.stop hi ns

namespace Row

variable {source : String} {lo mid hi : Nat} {n : Node} {ns ms : List Node}

theorem le (h : Row source lo hi ns) : lo ≤ hi := by
  induction ns generalizing lo with
  | nil => exact h
  | cons n ns ih =>
    have := h.1
    have := h.2.1.placed.start_le_stop
    have := ih h.2.2
    omega

theorem mono_left {lo' : Nat} (hle : lo' ≤ lo) (h : Row source lo hi ns) : Row source lo' hi ns := by
  cases ns with
  | nil => exact Nat.le_trans hle h
  | cons n ns => exact ⟨Nat.le_trans hle h.1, h.2⟩

theorem append (h : Row source lo mid ns) (k : Row source mid hi ms) :
    Row source lo hi (ns ++ ms) := by
  induction ns generalizing lo with
  | nil => exact k.mono_left h
  | cons n ns ih => exact ⟨h.1, h.2.1, ih h.2.2⟩

theorem of_append_right (h : Row source lo hi (ns ++ ms)) : Row source lo hi ms := by
  induction ns generalizing lo with
  | nil => exact h
  | cons n ns ih =>
    exact (ih h.2.2).mono_left (Nat.le_trans h.1 h.2.1.placed.start_le_stop)

theorem covers (h : Row source lo hi ns) (hn : n ∈ ns) :
    lo ≤ n.span.start ∧ n.span.stop ≤ hi := by
  obtain ⟨before, after, rfl⟩ := List.append_of_mem hn
  exact ⟨h.of_append_right.1, h.of_append_right.2.2.le⟩

theorem sound (h : Row source lo hi ns) (hn : n ∈ ns) : n.Sound source := by
  obtain ⟨before, after, rfl⟩ := List.append_of_mem hn
  exact h.of_append_right.2.1

theorem pairwise (h : Row source lo hi ns) :
    ns.Pairwise fun j k => j.span.stop ≤ k.span.start := by
  induction ns generalizing lo with
  | nil => exact .nil
  | cons n ns ih => exact .cons (fun k hk => (h.2.2.covers hk).1) (ih h.2.2)

theorem of_ordered (hle : lo ≤ hi) (hsound : ∀ k ∈ ns, k.Sound source)
    (hcovers : ∀ k ∈ ns, lo ≤ k.span.start ∧ k.span.stop ≤ hi)
    (hordered : ns.Pairwise fun j k => j.span.stop ≤ k.span.start) : Row source lo hi ns := by
  induction ns generalizing lo with
  | nil => exact hle
  | cons n ns ih =>
    simp only [List.mem_cons, forall_eq_or_imp, List.pairwise_cons] at hsound hcovers hordered
    exact ⟨hcovers.1.1, hsound.1, ih hcovers.1.2 hsound.2
      (fun k hk => ⟨hordered.1 k hk, (hcovers.2 k hk).2⟩) hordered.2⟩

end Row

/-- The children of a sound node are a row under its span. -/
theorem Node.Sound.row {source : String} {n : Node} (h : n.Sound source) :
    Row source n.span.start n.span.stop n.children :=
  .of_ordered h.placed.start_le_stop (fun _ => h.child) h.placed.covers h.placed.ordered

-- ---------------------------------------------------------------------------
-- Rows between cursors
-- ---------------------------------------------------------------------------

/-- Between the cursors `c` and `d` of the source lie the sound nodes `ns`, in order. -/
structure Filled (source : String) (c d : Cursor) (ns : List Node) : Prop where
  start : c.In source.toList
  reads : ∃ text, c.Reads text d
  row : Row source c.offset d.offset ns

namespace Filled

variable {source : String} {c d m : Cursor} {text : List Char} {n : Node} {ns ms : List Node}

theorem stop (h : Filled source c d ns) : d.In source.toList := by
  obtain ⟨text, hreads⟩ := h.reads
  exact hreads.in h.start

/-- Nothing but text without nodes of its own. -/
theorem blank (hc : c.In source.toList) (h : c.Reads text d) : Filled source c d [] :=
  ⟨hc, ⟨text, h⟩, h.le⟩

theorem append (h : Filled source c m ns) (k : Filled source m d ms) :
    Filled source c d (ns ++ ms) := by
  obtain ⟨text, ht⟩ := h.reads
  obtain ⟨more, hm⟩ := k.reads
  exact ⟨h.start, ⟨text ++ more, ht.trans hm⟩, h.row.append k.row⟩

theorem after_blank (hc : c.In source.toList) (hm : c.Reads text m) (h : Filled source m d ns) :
    Filled source c d ns :=
  (blank hc hm).append h

theorem before_blank (h : Filled source c m ns) (hd : m.Reads text d) : Filled source c d ns := by
  simpa using h.append (blank h.stop hd)

/-- A row is closed into the node that it is the inside of. -/
theorem node (h : Filled source c d n.children) (hspan : n.span = c.spanTo d)
    (hshows : ∀ text, c.Reads text d → n.Shows text) : Filled source c d [n] := by
  have hstart : n.span.start = c.offset := by rw [hspan]; rfl
  have hstop : n.span.stop = d.offset := by rw [hspan]; rfl
  obtain ⟨text, hreads⟩ := h.reads
  have hplaced : n.Placed source :=
    { start_le_stop := by rw [hstart, hstop]; exact hreads.le
      stop_le_size := by rw [hstop, ← byteLength_toList]; exact h.stop.offset_le
      start_isValid := by rw [hstart]; exact h.start.isValid
      stop_isValid := by rw [hstop]; exact h.stop.isValid
      shows := ⟨text, by rw [hspan]; exact hreads.slice? h.start, hshows text hreads⟩
      covers := fun k hk => by rw [hstart, hstop]; exact h.row.covers hk
      ordered := h.row.pairwise }
  have hsound : n.Sound source := .mk hplaced fun k hk => h.row.sound hk
  exact ⟨h.start, h.reads, Nat.le_of_eq hstart.symm, hsound, Nat.le_of_eq hstop⟩

end Filled

/-- A node whose text says nothing about it needs only its ends and its children. -/
theorem Node.sound_of_row {source : String} {n : Node}
    (hstart : String.Pos.Raw.IsValid source ⟨n.span.start⟩)
    (hstop : String.Pos.Raw.IsValid source ⟨n.span.stop⟩)
    (hrow : Row source n.span.start n.span.stop n.children) (hshows : ∀ text, n.Shows text) :
    n.Sound source := by
  obtain ⟨c, hc, hcstart⟩ := exists_in_of_isValid hstart
  obtain ⟨d, hd, hdstop⟩ := exists_in_of_isValid hstop
  rw [← hcstart, ← hdstop] at hrow
  have hfilled : Filled source c d n.children := ⟨hc, hc.reads hd hrow.le, hrow⟩
  have hspan : n.span = c.spanTo d := by rw [Cursor.spanTo, hcstart, hdstop]
  exact (hfilled.node hspan fun text _ => hshows text).row.sound List.mem_cons_self

end MessageLint
