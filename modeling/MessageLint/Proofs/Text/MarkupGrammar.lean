-- SUMMARY: A value that follows the grammar of markup is taken apart into the texts of that grammar.
import MessageLint.Proofs.Text.Markup

/-!
# The grammar of markup

`Item` is a complete item of markup, `Unended` one that is opened and never ends, and `Marked` a value
in which texts and items take turns. The grammar says of a quoted value or of a comment where it ends by
what may stand in it; the scanner searches for the end. One lemma for each of the searches says that it
stops at the end of the grammar, and one for each kind of item that the scanner goes over it as a whole.
-/

namespace MessageLint.Markup

variable {c quote : Char} {mark text body inner item rest value : List Char} {texts : List (List Char)}

-- ---------------------------------------------------------------------------
-- The grammar
-- ---------------------------------------------------------------------------

def IsQuote (c : Char) : Prop := c = '"' ∨ c = '\''

instance : DecidablePred IsQuote := fun c => inferInstanceAs (Decidable (c = '"' ∨ c = '\''))

/-- What stands between the first letter of a tag and its `>`: no `>` but in quoted values. -/
inductive TagBody : List Char → Prop
  | nil : TagBody []
  | plain {c : Char} {body : List Char} : c ≠ '>' → ¬IsQuote c → TagBody body → TagBody (c :: body)
  | quoted {quote : Char} {inner body : List Char} :
      IsQuote quote → quote ∉ inner → TagBody body → TagBody (quote :: (inner ++ quote :: body))

/-- The end of a comment. -/
def commentEnd : List Char := ['-', '-', '>']

/-- A complete item of markup. -/
inductive Item : List Char → Prop
  | startTag {c : Char} {body : List Char} :
      c.isAlpha → TagBody body → Item ('<' :: c :: (body ++ ['>']))
  | endTag {c : Char} {body : List Char} :
      c.isAlpha → TagBody body → Item ('<' :: '/' :: c :: (body ++ ['>']))
  | comment {body : List Char} :
      ¬commentEnd <:+: body → Item ('<' :: '!' :: '-' :: '-' :: (body ++ commentEnd))
  | declaration {body : List Char} :
      ¬['-', '-'] <+: body → '>' ∉ body → Item ('<' :: '!' :: (body ++ ['>']))
  | instruction {body : List Char} : '>' ∉ body → Item ('<' :: '?' :: (body ++ ['>']))

/-- What follows the first letter of a tag that never ends; a quoted value may be left open. -/
inductive OpenBody : List Char → Prop
  | closed {body : List Char} : TagBody body → OpenBody body
  | quoted {quote : Char} {body inner : List Char} :
      TagBody body → IsQuote quote → quote ∉ inner → OpenBody (body ++ quote :: inner)

/-- An item of markup that is opened, but whose end does not occur. -/
inductive Unended : List Char → Prop
  | startTag {c : Char} {body : List Char} : c.isAlpha → OpenBody body → Unended ('<' :: c :: body)
  | endTag {c : Char} {body : List Char} :
      c.isAlpha → OpenBody body → Unended ('<' :: '/' :: c :: body)
  | comment {body : List Char} :
      ¬commentEnd <:+: body → Unended ('<' :: '!' :: '-' :: '-' :: body)
  | declaration {body : List Char} : '>' ∉ body → Unended ('<' :: '!' :: body)
  | instruction {body : List Char} : '>' ∉ body → Unended ('<' :: '?' :: body)

/-- A value in which `texts` and items of markup take turns, a text first and a text last; an item that
never ends may follow. -/
inductive Marked : List (List Char) → List Char → Prop
  | last {text rest : List Char} : '<' ∉ text → rest = [] ∨ Unended rest → Marked [text] (text ++ rest)
  | item {text item value : List Char} {texts : List (List Char)} :
      '<' ∉ text → Item item → Marked texts value → Marked (text :: texts) (text ++ item ++ value)

-- ---------------------------------------------------------------------------
-- Searching for the end of an item
-- ---------------------------------------------------------------------------

theorem behind_eq_nil (h : ¬mark <:+: text) : behind mark text = [] := by
  induction text with
  | nil => rfl
  | cons c text ih =>
    have hprefix : ¬mark.isPrefixOf (c :: text) := fun hmark =>
      h (List.isPrefixOf_iff_prefix.1 hmark).isInfix
    rw [behind, if_neg hprefix]
    exact ih fun hmark => h (List.infix_cons hmark)

theorem behind_singleton_eq_nil (h : c ∉ text) : behind [c] text = [] :=
  behind_eq_nil fun hmark => h (hmark.subset (by simp))

/-- A mark whose last character stands in it once cannot begin before itself and reach into itself. -/
theorem not_prefix_append (hc : c ∉ mark) (hbody : body ≠ []) (h : ¬mark ++ [c] <+: body) :
    ¬mark ++ [c] <+: body ++ (mark ++ [c] ++ rest) := by
  rintro ⟨behind, heq⟩
  rcases List.append_eq_append_iff.1 heq with ⟨more, rfl, -⟩ | ⟨tail, htail, hover⟩
  · exact h (List.prefix_append ..)
  · rcases List.eq_nil_or_concat tail with rfl | ⟨start, last, rfl⟩
    · exact h ⟨[], by rw [htail, List.append_nil, List.append_nil]⟩
    · -- the part that reaches over is shorter than the mark, but ends like it
      rw [List.concat_eq_append, ← List.append_assoc] at htail
      obtain ⟨rfl, hlast⟩ := List.append_inj' htail rfl
      obtain rfl := List.singleton_inj.1 hlast
      have hstart : start ++ [c] <+: body ++ start := by
        refine List.prefix_of_prefix_length_le ⟨behind, ?_⟩ (List.prefix_append _ ([c] ++ rest)) ?_
        · simpa using hover.symm
        · have := List.length_pos_iff.2 hbody
          simp only [List.length_append, List.length_singleton]
          omega
      exact hc (hstart.subset (by simp))

/-- A search for a mark whose last character stands in it once ends behind the first such mark. -/
theorem behind_append (mark : List Char) (hc : c ∉ mark) (h : ¬mark ++ [c] <:+: body)
    (rest : List Char) :
    behind (mark ++ [c]) (body ++ (mark ++ [c] ++ rest)) = rest := by
  induction body with
  | nil =>
    have hne : mark ++ [c] ≠ [] := List.append_ne_nil_of_right_ne_nil _ (List.cons_ne_nil _ _)
    obtain ⟨first, tail, htail⟩ := List.exists_cons_of_ne_nil hne
    have hprefix : (first :: tail).isPrefixOf (first :: (tail ++ rest)) := by
      rw [List.isPrefixOf_iff_prefix]
      exact List.prefix_append (first :: tail) rest
    rw [List.nil_append, htail, List.cons_append, behind, if_pos hprefix]
    exact List.drop_left
  | cons d body ih =>
    have hprefix : ¬(mark ++ [c]).isPrefixOf (d :: body ++ (mark ++ [c] ++ rest)) := by
      rw [List.isPrefixOf_iff_prefix]
      exact not_prefix_append hc (List.cons_ne_nil _ _) fun hmark => h hmark.isInfix
    rw [List.cons_append] at hprefix ⊢
    rw [behind, if_neg hprefix]
    exact ih fun hmark => h (List.infix_cons hmark)

theorem behind_singleton (h : c ∉ body) (rest : List Char) : behind [c] (body ++ c :: rest) = rest :=
  behind_append [] List.not_mem_nil (fun hmark => h (hmark.subset (by simp))) rest

theorem behind_commentEnd (h : ¬commentEnd <:+: body) (rest : List Char) :
    behind commentEnd (body ++ (commentEnd ++ rest)) = rest :=
  behind_append ['-', '-'] (by decide) h rest

theorem behindTag_quoted (h : quote ∉ inner) (rest : List Char) :
    behindTag (some quote) (inner ++ quote :: rest) = behindTag none rest := by
  induction inner with
  | nil => simp [behindTag]
  | cons c inner ih =>
    obtain ⟨hc, hinner⟩ := List.ne_and_not_mem_of_not_mem_cons h
    rw [List.cons_append, behindTag, if_neg hc.symm]
    exact ih hinner

/-- A quoted value that never ends hides all that follows. -/
theorem behindTag_open (h : quote ∉ inner) : behindTag (some quote) inner = [] := by
  induction inner with
  | nil => rfl
  | cons c inner ih =>
    obtain ⟨hc, hinner⟩ := List.ne_and_not_mem_of_not_mem_cons h
    rw [behindTag, if_neg hc.symm]
    exact ih hinner

theorem behindTag_quote (h : IsQuote quote) (text : List Char) :
    behindTag none (quote :: text) = behindTag (some quote) text := by
  rw [behindTag]
  exact if_pos h

/-- Within a tag nothing ends it. -/
theorem TagBody.behindTag_append (h : TagBody body) (rest : List Char) :
    behindTag none (body ++ rest) = behindTag none rest := by
  induction h with
  | nil => rfl
  | @plain c body hc hquote _ ih =>
    rw [List.cons_append, behindTag]
    simpa [show ¬(c = '"' ∨ c = '\'') from hquote, hc] using ih
  | @quoted quote inner body hquote hinner _ ih =>
    rw [List.cons_append, behindTag_quote hquote, List.append_assoc, List.cons_append,
      behindTag_quoted hinner, ih]

theorem OpenBody.behindTag_eq (h : OpenBody body) : behindTag none body = [] := by
  cases h with
  | closed h => simpa [behindTag] using h.behindTag_append []
  | quoted h hquote hinner =>
    rw [h.behindTag_append, behindTag_quote hquote, behindTag_open hinner]

-- ---------------------------------------------------------------------------
-- Items
-- ---------------------------------------------------------------------------

theorem not_isQuote_of_isAlpha (h : c.isAlpha) : c ≠ '>' ∧ ¬IsQuote c := by
  refine ⟨?_, ?_⟩
  · rintro rfl
    cases h
  · rintro (rfl | rfl) <;> cases h

/-- The letter behind a `<`, or behind `</`, belongs to a tag. -/
theorem behindMarkup?_letter (h : c.isAlpha) (text : List Char) :
    behindMarkup? (c :: text) = some (behindTag none text) ∧
      behindMarkup? ('/' :: c :: text) = some (behindTag none text) := by
  have hplain := not_isQuote_of_isAlpha h
  have htag : behindTag none (c :: text) = behindTag none text :=
    (TagBody.plain hplain.1 hplain.2 .nil).behindTag_append text
  have hslash : behindTag none ('/' :: c :: text) = behindTag none (c :: text) :=
    (TagBody.plain (by decide) (by decide) .nil).behindTag_append (c :: text)
  constructor
  · unfold behindMarkup?
    split <;> simp_all
  · simp [behindMarkup?, h, hslash, htag]

theorem behindMarkup?_comment (text : List Char) :
    behindMarkup? ('!' :: '-' :: '-' :: text) = some (behind commentEnd text) := rfl

theorem behindMarkup?_declaration (h : ¬['-', '-'] <+: text) :
    behindMarkup? ('!' :: text) = some (behind ['>'] text) := by
  rw [behindMarkup?]
  · rfl
  · rintro body rfl
    exact h ⟨body, rfl⟩

theorem behindMarkup?_instruction (text : List Char) :
    behindMarkup? ('?' :: text) = some (behind ['>'] text) := rfl

/-- A complete item opens markup that ends where the item does. -/
theorem Item.exists_behind (h : Item item) :
    ∃ tail, item = '<' :: tail ∧ ∀ rest, behindMarkup? (tail ++ rest) = some rest := by
  cases h with
  | @startTag c body hc hbody =>
    refine ⟨_, rfl, fun rest => ?_⟩
    rw [List.cons_append, (behindMarkup?_letter hc _).1, List.append_assoc, hbody.behindTag_append]
    rfl
  | @endTag c body hc hbody =>
    refine ⟨_, rfl, fun rest => ?_⟩
    rw [List.cons_append, List.cons_append, (behindMarkup?_letter hc _).2, List.append_assoc,
      hbody.behindTag_append]
    rfl
  | @comment body hbody =>
    refine ⟨_, rfl, fun rest => ?_⟩
    simp only [List.cons_append, List.append_assoc]
    rw [behindMarkup?_comment, behind_commentEnd hbody]
  | @declaration body hdashes hbody =>
    refine ⟨_, rfl, fun rest => ?_⟩
    simp only [List.cons_append, List.append_assoc, List.nil_append]
    have hdashes' : ¬['-', '-'] <+: body ++ '>' :: rest := by
      rcases body with _ | ⟨c, _ | ⟨d, body⟩⟩
      · simp
      · simp
      · simpa using hdashes
    rw [behindMarkup?_declaration hdashes', behind_singleton hbody]
  | @instruction body hbody =>
    refine ⟨_, rfl, fun rest => ?_⟩
    simp only [List.cons_append, List.append_assoc, List.nil_append]
    rw [behindMarkup?_instruction, behind_singleton hbody]

/-- An item that never ends opens markup that hides all that follows. -/
theorem Unended.exists_behind (h : Unended item) :
    ∃ tail, item = '<' :: tail ∧ behindMarkup? tail = some [] := by
  cases h with
  | startTag hc hbody => exact ⟨_, rfl, by rw [(behindMarkup?_letter hc _).1, hbody.behindTag_eq]⟩
  | endTag hc hbody => exact ⟨_, rfl, by rw [(behindMarkup?_letter hc _).2, hbody.behindTag_eq]⟩
  | comment hbody =>
    exact ⟨_, rfl, by rw [behindMarkup?_comment, behind_eq_nil hbody]⟩
  | @declaration body hbody =>
    refine ⟨_, rfl, ?_⟩
    by_cases hdashes : ['-', '-'] <+: body
    · -- this is a comment after all, and without a `>` it does not end either
      obtain ⟨tail, rfl⟩ := hdashes
      have hend : ¬commentEnd <:+: tail := fun hmark =>
        hbody (List.mem_append_right _ (hmark.subset (by decide)))
      exact (behindMarkup?_comment tail).trans (congrArg some (behind_eq_nil hend))
    · rw [behindMarkup?_declaration hdashes, behind_singleton_eq_nil hbody]
  | instruction hbody =>
    exact ⟨_, rfl, by rw [behindMarkup?_instruction, behind_singleton_eq_nil hbody]⟩

-- ---------------------------------------------------------------------------
-- Values
-- ---------------------------------------------------------------------------

theorem textRuns_text (h : '<' ∉ text) (tail : List Char) :
    textRuns (text ++ tail) = runsFrom text.reverse tail := by
  rw [textRuns, runsFrom_plain (plain_of_notMem h tail), List.append_nil]

/-- The runs of a value that follows the grammar are its texts, the empty ones left out. -/
theorem textRuns_of_marked (h : Marked texts value) :
    textRuns value = texts.filter fun text => !text.isEmpty := by
  induction h with
  | @last text rest htext hrest =>
    rw [textRuns_text htext, ← finished_reverse]
    rcases hrest with rfl | hrest
    · rw [runsFrom]
    · obtain ⟨tail, rfl, htail⟩ := hrest.exists_behind
      rw [runsFrom_markup htail, runsFrom]
      exact List.append_nil _
  | @item text item value texts htext hitem _ ih =>
    obtain ⟨tail, rfl, htail⟩ := hitem.exists_behind
    rw [List.append_assoc, textRuns_text htext, List.cons_append, runsFrom_markup (htail value),
      finished_reverse]
    exact (congrArg _ ih).trans (List.filter_append _ _).symm

/-- A tag whose quoted value holds brackets, an item right behind it, a comment that seems to end at once,
and a tag that is never left again. -/
theorem textRuns_of_marked_tag :
    Marked [['a', ' '], [], ['b'], ['c']] "a <d e='x > <'></d>b<!--->-->c<f g=\">".toList ∧
      textRuns "a <d e='x > <'></d>b<!--->-->c<f g=\">".toList = [['a', ' '], ['b'], ['c']] := by
  have hopening : Item "<d e='x > <'>".toList :=
    @Item.startTag 'd' " e='x > <'".toList (by decide) <|
      .plain (by decide) (by decide) <| .plain (by decide) (by decide) <|
      .plain (by decide) (by decide) <|
      @TagBody.quoted '\'' "x > <".toList [] (by decide) (by decide) .nil
  have hclosing : Item "</d>".toList := @Item.endTag 'd' [] (by decide) .nil
  have hcomment : Item "<!--->-->".toList := @Item.comment ['-', '>'] (by decide)
  have hopen : Unended "<f g=\">".toList :=
    @Unended.startTag 'f' " g=\">".toList (by decide) <|
      @OpenBody.quoted '"' " g=".toList ['>']
        (.plain (by decide) (by decide) <| .plain (by decide) (by decide) <|
          .plain (by decide) (by decide) .nil) (by decide) (by decide)
  have hmarked : Marked [['a', ' '], [], ['b'], ['c']]
      "a <d e='x > <'></d>b<!--->-->c<f g=\">".toList :=
    .item (by decide) hopening <| .item (by decide) hclosing <| .item (by decide) hcomment <|
      .last (by decide) (.inr hopen)
  exact ⟨hmarked, textRuns_of_marked hmarked⟩

end MessageLint.Markup
