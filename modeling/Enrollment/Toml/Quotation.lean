import Enrollment.Number.Decimal
import Enrollment.Toml.Trivia

/-!
# Quotations

The four ways to quote a text: with or without escapes, on one line or on
several.
-/

namespace Enrollment.Toml

open Enrollment.Parser

/-! ## Escapes -/

/-- The character that a letter after a backslash stands for. -/
def escapeLetter? : Char → Option Char
  | 'b' => some '\x08'
  | 't' => some '\t'
  | 'n' => some '\n'
  | 'f' => some '\x0c'
  | 'r' => some '\r'
  | 'e' => some '\x1b'
  | '"' => some '"'
  | '\\' => some '\\'
  | _ => none

/-- The number of digits after a letter that begins a numeric escape. -/
def escapeDigits? : Char → Option Nat
  | 'x' => some 2
  | 'u' => some 4
  | 'U' => some 8
  | _ => none

/-- A character given by its code point in so many digits. -/
def codePoint? (digits : Nat) (s : List Char) : Option (Char × List Char) :=
  let ds := s.take digits
  let n := Radix.value 16 ds
  if ds.length = digits ∧ ds.all (Radix.isDigit 16) ∧ n.isValidChar then
    some (Char.ofNat n, s.drop digits)
  else none

def escape : Parser Char where
  run
    | '\\' :: c :: r =>
      match escapeLetter? c with
      | some d => some (d, r)
      | none => (escapeDigits? c).bind fun n => codePoint? n r
    | _ => none
  shorter {s a r} h := by
    split at h
    · next c t =>
      split at h
      · simp only [Option.some.injEq, Prod.mk.injEq] at h
        rw [← h.2, List.length_cons, List.length_cons]
        omega
      · obtain ⟨n, -, h⟩ := Option.bind_eq_some_iff.1 h
        unfold codePoint? at h
        simp only at h
        split at h
        · simp only [Option.some.injEq, Prod.mk.injEq] at h
          rw [← h.2, List.length_drop, List.length_cons, List.length_cons]
          omega
        · simp at h
    · simp at h

/-! ## On one line -/

/-- Values between two quotation marks. -/
def surrounded {α : Type} (q : Char) (p : Parser α) : Parser (List α) where
  run
    | [] => none
    | c :: s => if c = q then closeWith q (p.many s) else none
  shorter {s a r} h := by
    split at h
    · simp at h
    · next c s =>
      split at h
      · have h1 := p.many_length_le s
        have h2 := closeWith_shorter h
        rw [List.length_cons]
        omega
      · simp at h

/-- A character of a basic string, escaped or not. -/
def basicChar : Parser Char :=
  escape.orElse (satisfy fun c => isTextual c && c ≠ '"' && c ≠ '\\')

/-- A text on one line in which escapes count. -/
def basic : Parser (List Char) :=
  surrounded '"' basicChar

/-- A text on one line in which every character stands for itself. -/
def literal : Parser (List Char) :=
  surrounded '\'' (satisfy fun c => isTextual c && c ≠ '\'')

/-! ## On several lines -/

/-- A quotation mark that does not belong to the three that end the text.  Up to two may
stand right before those. -/
def loneMark (q : Char) : Parser Char where
  run s :=
    let n := (s.takeWhile (· = q)).length
    if n ∈ [1, 2, 4, 5] then some (q, s.drop 1) else none
  shorter {s a r} h := by
    simp only at h
    split at h
    · next hn =>
      simp only [Option.some.injEq, Prod.mk.injEq] at h
      rw [← h.2]
      cases s with
      | nil => simp at hn
      | cons c s => simp
    · simp at h

/-- A backslash at the end of a line, which takes all blanks and line ends after it along. -/
def lineJoin : Parser (List Char) where
  run
    | '\\' :: s =>
      (newline.run (skipBlanks s)).map fun (_, r) =>
        ([], (space.many r).2)
    | _ => none
  shorter {s a r} h := by
    split at h
    · next s =>
      obtain ⟨⟨b, t⟩, ht, h⟩ := Option.map_eq_some_iff.1 h
      simp only [Prod.mk.injEq] at h
      have h1 := newline.shorter ht
      have h2 := skipBlanks_length_le s
      have h3 := space.many_length_le t
      rw [← h.2, List.length_cons]
      omega
    · simp at h

/-- What is left after the end of a line, if it comes next. -/
def skipNewline (s : List Char) : List Char :=
  match newline.run s with
  | some (_, r) => r
  | none => s

theorem skipNewline_length_le (s : List Char) : (skipNewline s).length ≤ s.length := by
  unfold skipNewline
  split
  · exact Nat.le_of_lt (newline.shorter ‹_›)
  · exact Nat.le_refl _

/-- Pieces of text between three quotation marks on each side.  A line end right after the
first three does not count. -/
def surroundedThrice (q : Char) (p : Parser (List Char)) : Parser (List Char) where
  run s :=
    if s.take 3 = [q, q, q] then
      let (pieces, r) := p.many (skipNewline (s.drop 3))
      if r.take 3 = [q, q, q] then some (pieces.flatten, r.drop 3) else none
    else none
  shorter {s a r} h := by
    simp only at h
    split at h
    · next hs =>
      split at h
      · simp only [Option.some.injEq, Prod.mk.injEq] at h
        have h1 : 3 ≤ s.length := by
          have := congrArg List.length hs
          simp only [List.length_take, List.length_cons, List.length_nil] at this
          omega
        have h2 := skipNewline_length_le (s.drop 3)
        have h3 := p.many_length_le (skipNewline (s.drop 3))
        rw [List.length_drop] at h2
        rw [← h.2, List.length_drop]
        omega
      · simp at h
    · simp at h

/-- A text on several lines in which escapes count. -/
def multilineBasic : Parser (List Char) :=
  surroundedThrice '"'
    (lineJoin.orElse ((escape.map fun c => [c]).orElse (newline.orElse
      (((loneMark '"').orElse (satisfy fun c => isTextual c && c ≠ '"' && c ≠ '\\')).map
        fun c => [c]))))

/-- A text on several lines in which every character stands for itself. -/
def multilineLiteral : Parser (List Char) :=
  surroundedThrice '\''
    (newline.orElse (((loneMark '\'').orElse
      (satisfy fun c => isTextual c && c ≠ '\'')).map fun c => [c]))

/-- A text in quotation marks of any kind. -/
def quotation : Parser (List Char) :=
  (multilineBasic.orElse multilineLiteral).orElse (basic.orElse literal)

end Enrollment.Toml
