import Enrollment.Text.Parser

/-!
# What a document passes over

Blanks, comments and the ends of lines.
-/

namespace Enrollment.Toml

def isBlank (c : Char) : Bool :=
  c = ' ' || c = '\t'

/-- What may stand in a comment or a literal string: no control character but the tab. -/
def isTextual (c : Char) : Bool :=
  c = '\t' || decide (0x20 ≤ c.toNat ∧ c.toNat ≠ 0x7F)

/-- What is left after the blanks in front. -/
def skipBlanks (s : List Char) : List Char :=
  s.dropWhile isBlank

theorem skipBlanks_length_le (s : List Char) : (skipBlanks s).length ≤ s.length :=
  (List.dropWhile_sublist _).length_le

/-- The end of a line, as it is written. -/
def newline : Parser (List Char) where
  run
    | '\n' :: r => some (['\n'], r)
    | '\r' :: '\n' :: r => some (['\r', '\n'], r)
    | _ => none
  shorter {s a r} h := by
    split at h
    · simp only [Option.some.injEq, Prod.mk.injEq] at h
      rw [← h.2, List.length_cons]
      exact Nat.lt_succ_self _
    · simp only [Option.some.injEq, Prod.mk.injEq] at h
      rw [← h.2, List.length_cons, List.length_cons]
      omega
    · simp at h

/-- A comment, up to the end of its line. -/
def comment : Parser (List Char) where
  run
    | '#' :: r => some (r.takeWhile isTextual, r.dropWhile isTextual)
    | _ => none
  shorter {s a r} h := by
    split at h
    · next t =>
      simp only [Option.some.injEq, Prod.mk.injEq] at h
      rw [← h.2, List.length_cons]
      exact Nat.lt_succ_of_le (List.dropWhile_sublist _).length_le
    · simp at h

def space : Parser Unit :=
  ((Parser.satisfy isBlank).map fun _ => ()).orElse (newline.map fun _ => ())

/-- One piece of what may stand between the parts of a list or an inline table. -/
def filler : Parser Unit :=
  space.orElse (comment.map fun _ => ())

/-- What is left after blanks, comments and ends of lines in front. -/
def skipFiller (s : List Char) : List Char :=
  (filler.many s).2

theorem skipFiller_length_le (s : List Char) : (skipFiller s).length ≤ s.length :=
  filler.many_length_le s

/-- A way to pass over what does not matter between two parts. -/
structure Gap where
  /-- What is left after it. -/
  skip : List Char → List Char
  /-- Nothing is put in place of what is passed over. -/
  length_le (s : List Char) : (skip s).length ≤ s.length

namespace Gap

/-- Blanks, which keep to one line. -/
def blanks : Gap := ⟨skipBlanks, skipBlanks_length_le⟩

/-- Blanks, comments and ends of lines. -/
def filler : Gap := ⟨skipFiller, skipFiller_length_le⟩

end Gap

/-- What is left after a comment, if there is one in front. -/
def skipComment (s : List Char) : List Char :=
  match comment.run s with
  | some (_, r) => r
  | none => s

theorem skipComment_length_le (s : List Char) : (skipComment s).length ≤ s.length := by
  unfold skipComment
  split
  · exact Nat.le_of_lt (comment.shorter ‹_›)
  · exact Nat.le_refl _

end Enrollment.Toml
