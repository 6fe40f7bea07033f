-- SUMMARY: Every node of a resource is placed in the source it was read from.
import MessageLint.Proofs.Spans.Entry
import MessageLint.Proofs.Respan

/-!
# Spans of resources

Attaching a comment moves the start of an entry back to its comment and puts the comment in front of
the other children, so a row of entries stays a row (`row_attach`). With that, `parse_placed` says of
every node of a resource, at any depth, that it is placed in the source.
-/

namespace MessageLint

variable {source : String} {lo hi : Nat}

-- ---------------------------------------------------------------------------
-- Attached comments
-- ---------------------------------------------------------------------------

section Attach

variable {c : Comment} {e e' : Entry}

/-- An entry that was given a comment: the comment stands before the children from the name on. -/
private theorem children_withComment (h : e.withComment c = some e') :
    ∃ notes own, (Node.entry e).children = notes ++ own ∧
      (Node.entry e').children = .note c :: own ∧ e'.span = ⟨c.span.start, e.span.stop⟩ ∧
      ∀ text, (Node.entry e').Shows text := by
  cases e with
  | message m =>
    obtain rfl := Option.some.inj h
    exact ⟨_, _, List.append_assoc .., rfl, rfl, fun _ => trivial⟩
  | term t =>
    obtain rfl := Option.some.inj h
    exact ⟨_, _, rfl, rfl, rfl, fun _ => trivial⟩
  | comment => simp [Entry.withComment] at h

private theorem sound_withComment (hc : (Node.entry (.comment .note c)).Sound source)
    (he : (Node.entry e).Sound source) (hle : c.span.stop ≤ e.span.start)
    (h : e.withComment c = some e') : (Node.entry e').Sound source := by
  obtain ⟨notes, own, hchildren, hchildren', hspan, hshows⟩ := children_withComment h
  have hnote : (Node.note c).Sound source := .mk { hc.placed with } (by simp [Node.children])
  have hrow : Row source e.span.start e.span.stop (notes ++ own) := hchildren ▸ he.row
  have hspan : (Node.entry e').span = ⟨c.span.start, e.span.stop⟩ := hspan
  refine Node.sound_of_row ?_ ?_ ?_ hshows
  · rw [hspan]; exact hc.placed.start_isValid
  · rw [hspan]; exact he.placed.stop_isValid
  · rw [hspan, hchildren']
    exact ⟨Nat.le_refl _, hnote, hrow.of_append_right.mono_left hle⟩

theorem row_attach {bs : List Block} (h : Row source lo hi (bs.map fun b => .entry b.entry)) :
    Row source lo hi ((Block.attach bs).map .entry) := by
  fun_induction Block.attach bs generalizing lo with
  | case1 => exact h
  | case2 c next rest e he ih =>
    obtain ⟨hlo, hc, hle, hnext, hrest⟩ := h
    obtain ⟨_, _, _, _, hspan, _⟩ := children_withComment he
    have hspan : (Node.entry e).span = ⟨c.span.start, next.entry.span.stop⟩ := hspan
    refine ⟨by rw [hspan]; exact hlo, sound_withComment hc hnext hle he, ?_⟩
    rw [hspan]
    exact ih hrest
  | case3 c next rest he ih => exact ⟨h.1, h.2.1, ih h.2.2⟩
  | case4 b rest _ ih => exact ⟨h.1, h.2.1, ih h.2.2⟩

end Attach

-- ---------------------------------------------------------------------------
-- Resources
-- ---------------------------------------------------------------------------

theorem blocks_filled {blocks : List Block} {c d : Cursor} (hc : c.In source.toList)
    (h : Parser.gather (fun _ c => !c.atEnd) (fun _ => Parser.block) [] c = .ok (blocks, d)) :
    Filled source c d (blocks.map fun b => .entry b.entry) := by
  have hrow := Parser.gather_fills (f := fun b : Block => [Node.entry b.entry])
    (fun _ _ _ _ hc _ h => Parser.block_fills hc h) (.blank hc (.refl _)) h
  rwa [← List.map_eq_flatMap] at hrow

theorem Resource.parse_sound {r : Resource} (h : Resource.parse source = .ok r) :
    (Node.resource r).Sound source := by
  obtain ⟨blocks, d, hblocks, rfl⟩ := parse_ok h
  have hstart := Cursor.in_ofString source
  obtain ⟨blank, hblank⟩ := (Cursor.ofString source).skipBlankLines_ends
  have hrow := (blocks_filled (hblank.reads.in hstart) hblocks).after_blank hstart hblank.reads
  have hnode := Filled.node (n := .resource ⟨Block.attach blocks, ⟨0, d.offset⟩⟩)
    ⟨hstart, hrow.reads, row_attach hrow.row⟩ rfl fun _ _ => trivial
  exact hnode.row.sound List.mem_cons_self

/-- Every node of a resource that was read is placed in its source. -/
theorem Resource.parse_placed {r : Resource} {n : Node} (h : Resource.parse source = .ok r)
    (hn : (Node.resource r).Holds n) : n.Placed source :=
  (Resource.parse_sound h).placed_of_holds hn

/-- The name of a variable, four levels below a message that has a comment. -/
theorem Resource.parse_placed_variable :
    ∃ r : Resource, Resource.parse "# ü\na = é{ $b }\n" = .ok r ∧
      (Node.resource r).Holds (.identifier ⟨"b", ⟨14, 15⟩⟩) ∧
      (Node.identifier ⟨"b", ⟨14, 15⟩⟩).Placed "# ü\na = é{ $b }\n" := by
  let name : Identifier := ⟨"b", ⟨14, 15⟩⟩
  let shown : Placeable := ⟨.inline (.variableRef name ⟨13, 15⟩), ⟨11, 17⟩⟩
  let value : Pattern := ⟨[.text ⟨"é", ⟨9, 11⟩⟩, .placeable shown], ⟨9, 17⟩⟩
  let entry : Entry := .message ⟨⟨"a", ⟨5, 6⟩⟩, some value, [], some ⟨"ü", ⟨0, 4⟩⟩, ⟨0, 17⟩⟩
  have hparse : Resource.parse "# ü\na = é{ $b }\n" = .ok ⟨[entry], ⟨0, 18⟩⟩ := by cbv
  have hholds : (Node.resource ⟨[entry], ⟨0, 18⟩⟩).Holds (.identifier name) :=
    .child (k := .entry entry) (by simp [Node.children]) <|
    .child (k := .pattern value) (by simp [Node.children, entry]) <|
    .child (k := .placeable shown) (by simp [Node.children, value, Node.ofElement]) <|
    .child (k := .inline (.variableRef name ⟨13, 15⟩)) List.mem_cons_self <|
    .child List.mem_cons_self (.self _)
  exact ⟨_, hparse, hholds, Resource.parse_placed hparse hholds⟩

end MessageLint
