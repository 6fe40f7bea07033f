-- SUMMARY: Character references: names and numbers between an ampersand and a semicolon.
import MessageLint.Text.CharRef.Names
import MessageLint.Text.Digits

/-!
# Character references

`&name;`, `&#decimal;` and `&#xhexadecimal;` stand for characters. What is not recognised stays as
it is, and so does a reference without its semicolon. The text that a reference stands for is not
read again.
-/

namespace MessageLint.CharRef

/-- A character that may be given by its number: control characters below the space may not, except
for tab, line feed, form feed and carriage return. -/
def numbered? (n : Nat) : Option Char :=
  if n < 0x20 && !([0x09, 0x0a, 0x0c, 0x0d].contains n) then none else scalar? n

/-- What stands between `&` and `;`, decoded. Of a name for two characters the first is given. -/
def meaning? : List Char → Option (List Char)
  | '#' :: 'x' :: digits | '#' :: 'X' :: digits =>
    ((numberIn? 16 digits).bind numbered?).map ([·])
  | '#' :: digits => ((numberIn? 10 digits).bind numbered?).map ([·])
  | name => (named? (String.ofList name)).map (·.toList.take 1)

/-- What follows an `&`: the meaning of the reference and the text behind it. -/
def reference? (text : List Char) : Option (List Char × List Char) :=
  match text.dropWhile (fun c => c ≠ ';' && c ≠ '&') with
  | ';' :: rest =>
    (meaning? (text.takeWhile fun c => c ≠ ';' && c ≠ '&')).map fun cs => (cs, rest)
  | _ => none

theorem reference?_length {text cs rest : List Char} (h : reference? text = some (cs, rest)) :
    rest.length < text.length := by
  have hle := (List.dropWhile_sublist (fun c => c ≠ ';' && c ≠ '&') (l := text)).length_le
  unfold reference? at h
  split at h
  · next heq =>
    simp only [Option.map_eq_some_iff, Prod.mk.injEq] at h
    obtain ⟨_, _, _, rfl⟩ := h
    rw [heq, List.length_cons] at hle
    omega
  · simp at h

/-- A text with its references decoded, from left to right. -/
def decode : List Char → List Char
  | [] => []
  | '&' :: text =>
    match h : reference? text with
    | some (cs, rest) =>
      have := reference?_length h
      cs ++ decode rest
    | none => '&' :: decode text
  | c :: text => c :: decode text
termination_by text => text.length

end MessageLint.CharRef
