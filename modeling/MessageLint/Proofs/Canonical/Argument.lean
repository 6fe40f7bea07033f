-- SUMMARY: Arguments of calls are recovered from their texts.
import MessageLint.Proofs.Canonical.Literal
import MessageLint.Proofs.Canonical.Pattern

/-!
# Recovery of arguments

A call is written with its positional arguments first. It is read as one list in which each argument
says whether a comma follows (`Argument.listed`), and an argument has to fit to the names that were
taken before it (`Argument.Fit`).
-/

namespace MessageLint

-- ---------------------------------------------------------------------------
-- Lists of arguments
-- ---------------------------------------------------------------------------

namespace Argument

def render : Argument → List Char
  | .positional e => e.render
  | .named a => a.render

def Canonical : Argument → Prop
  | .positional e => e.Canonical
  | .named a => a.Canonical

/-- The arguments can follow named ones with the names `taken`. -/
def Fit (taken : List String) : List Argument → Prop
  | [] => True
  | .positional _ :: as => taken = [] ∧ Fit taken as
  | .named a :: as => a.name.name ∉ taken ∧ Fit (a.name.name :: taken) as

/-- The arguments of a call as they are listed, each but the last with a comma. -/
def listed : List Argument → List ListedArgument
  | [] => []
  | a :: as => ⟨a, !as.isEmpty⟩ :: listed as

theorem exists_head {a : Argument} (h : a.Canonical) :
    ∃ ch tail, a.render = ch :: tail ∧ Cursor.isBlank ch = false ∧ ch ≠ ')' := by
  cases a with
  | positional e => exact Inline.exists_head h
  | named a =>
    obtain ⟨ch, tail, hhead, hopens⟩ := Identifier.exists_head h.1
    refine ⟨ch, tail ++ ':' :: ' ' :: a.value.render, ?_, hopens⟩
    change a.name.render ++ _ = _
    rw [hhead, List.cons_append]

end Argument

/-- An argument with its comma. -/
def ListedArgument.render (a : ListedArgument) : List Char :=
  a.argument.render ++ if a.comma then [',', ' '] else []

namespace Argument

theorem render_listed (as : List Argument) :
    (listed as).flatMap (·.render) = [',', ' '].intercalate (as.map (·.render)) := by
  induction as with
  | nil => rfl
  | cons a as ih =>
    cases as with
    | nil => simp [listed, ListedArgument.render]
    | cons a' as =>
      rw [listed, List.flatMap_cons, ih]
      simp [ListedArgument.render, List.intercalate_cons_cons]

theorem fit_named {taken : List String} {named : List NamedArgument}
    (h : (taken ++ named.map (·.name.name)).Nodup) : Fit taken (named.map .named) := by
  induction named generalizing taken with
  | nil => trivial
  | cons a named ih =>
    have hmoved := List.perm_middle.nodup_iff.1 h
    refine ⟨fun hmem => ?_, ih hmoved⟩
    exact (List.nodup_cons.1 hmoved).1 (List.mem_append_left _ hmem)

/-- Positional arguments in front of named ones with different names are a list of arguments. -/
theorem fit_of_nodup (positional : List Inline) {named : List NamedArgument}
    (h : (named.map (·.name.name)).Nodup) :
    Fit [] (positional.map .positional ++ named.map .named) := by
  induction positional with
  | nil => exact fit_named h
  | cons e positional ih => exact ⟨rfl, ih⟩

theorem map_argument_listed (as : List Argument) : (listed as).map (·.argument) = as := by
  induction as with
  | nil => rfl
  | cons a as ih => rw [listed, List.map_cons, ih]

theorem positional_listed (positional : List Inline) (named : List NamedArgument) :
    (listed (positional.map .positional ++ named.map .named)).filterMap (·.argument.positional?) =
      positional := by
  have hlisted := map_argument_listed (positional.map .positional ++ named.map .named)
  have hfilter := congrArg (List.filterMap positional?) hlisted
  rw [List.filterMap_map] at hfilter
  have hnone : named.filterMap (fun _ => (none : Option Inline)) = [] := by simp
  simpa [Function.comp_def, List.filterMap_map, positional?, hnone] using hfilter

theorem named_listed (positional : List Inline) (named : List NamedArgument) :
    ListedArgument.named (listed (positional.map .positional ++ named.map .named)) = named := by
  have hlisted := map_argument_listed (positional.map .positional ++ named.map .named)
  have hfilter := congrArg (List.filterMap named?) hlisted
  rw [List.filterMap_map] at hfilter
  have hnone : positional.filterMap (fun _ => (none : Option NamedArgument)) = [] := by simp
  simpa [Function.comp_def, List.filterMap_map, named?, ListedArgument.named, hnone] using hfilter

theorem Fit.head {taken : List String} {a : Argument} {as : List Argument}
    (h : Fit taken (a :: as)) : Fit taken [a] := by
  cases a with
  | positional e => exact ⟨h.1, trivial⟩
  | named a => exact ⟨h.1, trivial⟩

/-- Once the next argument is read, its name is taken. -/
theorem Fit.next {seen : List ListedArgument} {a : ListedArgument} {argument : Argument}
    {as : List Argument} (h : Fit ((ListedArgument.named seen).map (·.name.name)) (argument :: as))
    (ha : a.argument.respan .forget = argument.respan .forget) :
    Fit ((ListedArgument.named (a :: seen)).map (·.name.name)) as := by
  obtain ⟨found, comma⟩ := a
  cases argument with
  | positional e =>
    cases found with
    | positional => exact h.2
    | named => simp [Argument.respan] at ha
  | named b =>
    cases found with
    | positional => simp [Argument.respan] at ha
    | named b' =>
      have hname : b'.name.name = b.name.name := by
        simp only [Argument.respan, NamedArgument.respan, Identifier.respan, Argument.named.injEq,
          NamedArgument.mk.injEq, Identifier.mk.injEq] at ha
        exact ha.1.1
      change Fit (b'.name.name :: _) as
      rw [hname]
      exact h.2

end Argument

theorem Arguments.render_eq (positional : List Inline) (named : List NamedArgument) :
    (Arguments.mk positional named).render =
      '(' :: ((Argument.listed (positional.map .positional ++ named.map .named)).flatMap
        (·.render) ++ [')']) := by
  rw [Arguments.render, Argument.render_listed, Inline.renderEach_eq_map, List.map_append,
    List.map_map, List.map_map]
  rfl

theorem Arguments.exists_open (args : Arguments) (rest : List Char) :
    ∃ tail, args.render ++ rest = '(' :: tail := by
  obtain ⟨positional, named⟩ := args
  exact ⟨_, by rw [Arguments.render, List.cons_append]⟩

namespace Parser

variable {nested : Nested} {size : Nat} {rest : List Char}

-- ---------------------------------------------------------------------------
-- Inline expressions
-- ---------------------------------------------------------------------------

/-- What may stand behind an inline expression: nothing that goes on with a name or number, and no
parenthesis, not even behind blanks. -/
structure Closed (rest : List Char) : Prop where
  word : EndsWord rest
  call : (rest.dropWhile Cursor.isBlank).head? ≠ some '('

theorem closed_cons {ch : Char} (hword : (isNameChar ch || ch == '.') = false)
    (hblank : Cursor.isBlank ch = false) (hcall : ch ≠ '(') : Closed (ch :: rest) :=
  ⟨stops_cons.2 hword, by simpa [List.dropWhile_cons, hblank] using hcall⟩

/-- The parser recovers every inline expression in a text with fewer than `size` characters. -/
def RecoversInlines (inline : Parser Inline) (size : Nat) : Prop :=
  ∀ e rest, e.Canonical → Closed rest → (e.render ++ rest).length < size →
    inline.Recovers (·.respan .forget) e e.render rest

/-- The parsers for what is nested in a construct recover shorter texts. -/
structure RecoversNested (nested : Nested) (size : Nat) : Prop where
  inline : RecoversInlines nested.inline size
  placeable : RecoversPlaceables nested.placeable size

-- ---------------------------------------------------------------------------
-- Arguments
-- ---------------------------------------------------------------------------

theorem namedArgument_recovers {taken : List NamedArgument} {id : Identifier} {span : Span}
    {a : NamedArgument} (hid : id.respan .forget = a.name.respan .forget)
    (htaken : a.name.name ∉ taken.map (·.name.name)) (ha : a.value.Canonical)
    (hrest : EndsNumber rest) :
    (namedArgument taken (.messageRef id none span)).Recovers (·.respan .forget) a
      (':' :: ' ' :: a.value.render) rest := by
  have hname : id.name = a.name.name := by simpa [Identifier.respan] using hid
  have hfree : ¬taken.any (·.name.name == id.name) := by
    rw [hname]
    simpa using htaken
  simp only [namedArgument, if_neg hfree]
  have hstop : Stops Cursor.isBlank (a.value.render ++ rest) := by
    obtain ⟨ch, tail, hhead, hblank, -⟩ := Literal.exists_head ha
    rw [hhead]
    exact stops_cons.2 hblank
  refine .skip_one_bind (.skipBlank_bind [' '] (by simp [Cursor.isBlank]) hstop ?_)
  refine .bind_last (literal_recovers ha hrest) fun value hvalue => .pure ?_
  simp [NamedArgument.respan, hid, hvalue]

/-- A name is read as a reference before the colon behind it is seen. -/
theorem eq_messageRef_of_respan {e : Inline} {id : Identifier} {span : Span}
    (h : e.respan .forget = (Inline.messageRef id none span).respan .forget) :
    ∃ id' span', e = .messageRef id' none span' ∧ id'.respan .forget = id.respan .forget := by
  cases e with
  | messageRef id' attr span' =>
    cases attr with
    | some => simp [Inline.respan] at h
    | none => exact ⟨id', span', rfl, by simpa [Inline.respan] using h⟩
  | termRef id' attr args span' => cases args <;> simp [Inline.respan] at h
  | literal | functionCall | variableRef | placeable => simp [Inline.respan] at h

/-- The comma behind an argument, or what stands there instead. -/
private theorem comma_recovers {argument : Argument} {a : ListedArgument}
    (hargument : argument.respan .forget = a.argument.respan .forget)
    (hrest : if a.comma then Stops Cursor.isBlank rest else ∃ tail, rest = ')' :: tail) :
    (do
      skipBlank
      if (← peek) = some ',' then
        skip 1
        skipBlank
        return ⟨argument, true⟩
      else
        return ⟨argument, false⟩ : Parser ListedArgument).Recovers (·.respan .forget) a
      (if a.comma then [',', ' '] else []) rest := by
  obtain ⟨argument', comma⟩ := a
  cases comma with
  | true =>
    refine .skipBlank_bind_nil (by simp [Cursor.isBlank]) (.peek_bind ?_)
    rw [if_pos rfl]
    refine .skip_one_bind (.skipBlank_bind_last (by simp [Cursor.isBlank]) hrest (.pure ?_))
    exact congrArg (ListedArgument.mk · true) hargument
  | false =>
    obtain ⟨tail, rfl⟩ := hrest
    refine .skipBlank_bind_nil (by simp [Cursor.isBlank]) (.peek_bind ?_)
    rw [if_neg (by simp)]
    exact .pure (congrArg (ListedArgument.mk · false) hargument)

theorem listedArgument_recovers {seen : List ListedArgument} {a : ListedArgument}
    (hnested : RecoversNested nested size) (ha : a.argument.Canonical)
    (hfit : Argument.Fit ((ListedArgument.named seen).map (·.name.name)) [a.argument])
    (hsize : (a.render ++ rest).length < size)
    (hrest : if a.comma then Stops Cursor.isBlank rest else ∃ tail, rest = ')' :: tail) :
    (listedArgument nested seen).Recovers (·.respan .forget) a a.render rest := by
  obtain ⟨argument, comma⟩ := a
  have hbehind : ∃ ch tail, (if comma then [',', ' '] else []) ++ rest = ch :: tail ∧
      (ch = ',' ∨ ch = ')') := by
    cases comma with
    | true => exact ⟨_, _, rfl, .inl rfl⟩
    | false =>
      obtain ⟨tail, rfl⟩ := hrest
      exact ⟨_, _, rfl, .inr rfl⟩
  obtain ⟨ch, tail, hbehind, hch⟩ := hbehind
  have hclosed : Closed ((if comma then [',', ' '] else []) ++ rest) := by
    rw [hbehind]
    rcases hch with rfl | rfl <;> exact closed_cons rfl rfl (by decide)
  rw [ListedArgument.render, List.append_assoc] at hsize
  cases argument with
  | positional e =>
    refine .bind (hnested.inline e _ ha hclosed hsize) fun e' he' => ?_
    refine .skipBlank_bind_nil ?_ (.peek_bind ?_)
    · rw [hbehind]
      rcases hch with rfl | rfl <;> exact stops_cons.2 rfl
    · have hcolon : ((if comma then [',', ' '] else []) ++ rest).head? ≠ some ':' := by
        rw [hbehind]
        rcases hch with rfl | rfl <;> simp
      rw [if_neg hcolon, if_pos (by simpa using hfit.1)]
      exact comma_recovers (congrArg Argument.positional he') hrest
  | named a =>
    have hname : nested.inline.Recovers (·.respan .forget) (.messageRef a.name none a.name.span)
        a.name.render
        ((':' :: ' ' :: a.value.render ++ if comma then [',', ' '] else []) ++ rest) := by
      rw [List.append_assoc]
      have hinline := hnested.inline (.messageRef a.name none a.name.span)
        (':' :: ' ' :: a.value.render ++ ((if comma then [',', ' '] else []) ++ rest))
        ⟨ha.1, by simp⟩ (closed_cons rfl rfl (by decide))
      simp only [Inline.render, renderAccessor, List.append_nil] at hinline
      refine hinline ?_
      rwa [Argument.render, NamedArgument.render, List.append_assoc] at hsize
    rw [ListedArgument.render, Argument.render, NamedArgument.render, List.append_assoc]
    refine .bind hname fun e' he' => .skipBlank_bind_nil (stops_cons.2 rfl) (.peek_bind ?_)
    obtain ⟨id, span, rfl, hid⟩ := eq_messageRef_of_respan he'
    rw [List.cons_append, List.cons_append, List.head?_cons, if_pos rfl, map_bind]
    refine .bind (namedArgument_recovers hid hfit.1 ha.2 hclosed.word.endsNumber) fun b hb => ?_
    exact comma_recovers (congrArg Argument.named hb) hrest

theorem gather_arguments_recovers {as : List Argument} (hnested : RecoversNested nested size)
    (has : ∀ a ∈ as, a.Canonical) (hfit : Argument.Fit [] as)
    (hsize : ((Argument.listed as).flatMap (·.render) ++ ')' :: rest).length < size) :
    (gather moreArguments (listedArgument nested) []).Recovers (List.map (·.respan .forget))
      (Argument.listed as) ((Argument.listed as).flatMap (·.render)) (')' :: rest) := by
  apply Recovers.gather (M := fun seen todo text => ∃ as, todo = Argument.listed as ∧
    text = todo.flatMap (·.render) ∧ (∀ a ∈ as, a.Canonical) ∧
    Argument.Fit ((ListedArgument.named seen).map (·.name.name)) as ∧
    (as ≠ [] → seen.head?.all (·.comma)) ∧ (text ++ ')' :: rest).length < size)
  · rintro seen text ⟨as, hnil, rfl, -⟩
    exact ⟨rfl, fun _ => by simp [moreArguments, Cursor.peek]⟩
  · rintro seen a todo text ⟨as, hcons, rfl, has, hfit, hcomma, hsize⟩
    cases as with
    | nil => simp [Argument.listed] at hcons
    | cons argument as =>
      obtain ⟨rfl, rfl⟩ := List.cons.inj hcons
      obtain ⟨ch, tail, hhead, -, hclose⟩ := Argument.exists_head (has argument List.mem_cons_self)
      rw [List.flatMap_cons, List.append_assoc] at hsize
      refine ⟨_, (Argument.listed as).flatMap (·.render), List.flatMap_cons, ?_, ?_, ?_, ?_⟩
      · simp [ListedArgument.render, hhead]
      · intro offset
        have hseen : seen.head?.all (·.comma) = true := hcomma (by simp)
        simp [moreArguments, hseen, ListedArgument.render, hhead, Cursor.peek, hclose]
      · refine listedArgument_recovers hnested (has argument List.mem_cons_self) hfit.head hsize ?_
        cases as with
        | nil => exact ⟨rest, rfl⟩
        | cons next as =>
          obtain ⟨ch, tail, hhead, hblank, -⟩ := Argument.exists_head (has next (by simp))
          simpa [Argument.listed, ListedArgument.render, hhead] using hblank
      · intro a' ha'
        have hcomma' : a'.comma = !as.isEmpty := congrArg ListedArgument.comma ha'
        refine ⟨as, rfl, rfl, fun a ha => has a (List.mem_cons_of_mem _ ha),
          hfit.next (congrArg ListedArgument.argument ha'), ?_, ?_⟩
        · intro hne
          simpa [hcomma'] using hne
        · rw [List.length_append] at hsize
          omega
  · exact ⟨as, rfl, rfl, has, hfit, by simp, hsize⟩

theorem arguments_recovers {args : Arguments} (hnested : RecoversNested nested size)
    (hargs : args.Canonical) (hsize : (args.render ++ rest).length ≤ size) :
    (arguments nested).Recovers (·.respan .forget) args args.render rest := by
  obtain ⟨positional, named⟩ := args
  obtain ⟨hpositional, hnamed, hnodup⟩ := hargs
  have hall : ∀ a ∈ positional.map Argument.positional ++ named.map Argument.named,
      a.Canonical := by
    intro a ha
    rcases List.mem_append.1 ha with ha | ha
    · obtain ⟨e, he, rfl⟩ := List.mem_map.1 ha
      exact Inline.allCanonical_iff.1 hpositional e he
    · obtain ⟨b, hb, rfl⟩ := List.mem_map.1 ha
      exact hnamed b hb
  have hfit := Argument.fit_of_nodup positional hnodup
  have hresult := Argument.positional_listed positional named
  have hresult' := Argument.named_listed positional named
  rw [Arguments.render_eq] at hsize ⊢
  generalize positional.map Argument.positional ++ named.map Argument.named = as at *
  refine .token_bind (.skipBlank_bind_nil ?_ ?_)
  · cases as with
    | nil => exact stops_cons.2 rfl
    | cons a as =>
      obtain ⟨ch, tail, hhead, hblank, -⟩ := Argument.exists_head (hall a List.mem_cons_self)
      simpa [Argument.listed, ListedArgument.render, hhead] using hblank
  · rw [List.cons_append, List.append_assoc, List.length_cons] at hsize
    refine .bind (gather_arguments_recovers hnested hall hfit hsize) fun listed hlisted => ?_
    refine .token_bind (.pure ?_)
    have hp := congrArg (List.filterMap (·.argument.positional?)) hlisted
    have hn := congrArg ListedArgument.named hlisted
    rw [ListedArgument.positional_respan, ListedArgument.positional_respan, hresult] at hp
    rw [ListedArgument.named_respan, ListedArgument.named_respan, hresult'] at hn
    simp [Arguments.respan, hp, hn]

end Parser

end MessageLint
