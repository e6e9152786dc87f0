import Enrollment.Number.Decimal
import Enrollment.Text.Parser

/-!
# Keys as paths

A key at the top of a layer is read as a path into the tree: a name, then
names after dots and indices in brackets.  A key that is no such path is a
plain name, however it looks.
-/

namespace Enrollment.Settings

/-- A step into a tree. -/
inductive Step where
  | key (name : String)
  | index (i : Int)
  deriving DecidableEq

namespace Step

open Enrollment.Parser

/-- What a name in a path is made of. -/
def isNameChar (c : Char) : Bool :=
  c.isAlphanum || c = '_' || c = '-'

/-- A name at the front of a path, and what is left. -/
def name? (s : List Char) : Option (Step × List Char) :=
  if s.takeWhile isNameChar = [] then none
  else some (.key (String.ofList (s.takeWhile isNameChar)), s.dropWhile isNameChar)

theorem name?_length_le {s r : List Char} {a : Step} (h : name? s = some (a, r)) :
    r.length ≤ s.length := by
  unfold name? at h
  split at h
  · simp at h
  · simp only [Option.some.injEq, Prod.mk.injEq] at h
    rw [← h.2]
    exact (List.dropWhile_sublist _).length_le

/-- Whether a character may stand around an index. -/
def isSpace (c : Char) : Bool :=
  c = ' ' || c = '\t'

/-- The digits of an index at the front of a path, and what is left. -/
def digits? (negative : Bool) (s : List Char) : Option (Int × List Char) :=
  let n := Decimal.signed negative (Decimal.value (s.takeWhile Char.isDigit))
  if Decimal.areDigits (s.takeWhile Char.isDigit) && Decimal.fitsWord n then
    some (n, s.dropWhile Char.isDigit)
  else none

theorem digits?_length_le {negative : Bool} {s r : List Char} {n : Int}
    (h : digits? negative s = some (n, r)) : r.length ≤ s.length := by
  unfold digits? at h
  dsimp only at h
  split at h
  · simp only [Option.some.injEq, Prod.mk.injEq] at h
    rw [← h.2]
    exact (List.dropWhile_sublist _).length_le
  · simp at h

/-- An index at the front of a path, with a minus or not, and what is left. -/
def number? : List Char → Option (Int × List Char)
  | '-' :: s => digits? true s
  | s => digits? false s

theorem number?_length_le {s r : List Char} {n : Int} (h : number? s = some (n, r)) :
    r.length ≤ s.length := by
  unfold number? at h
  split at h
  · exact Nat.le_succ_of_le (digits?_length_le h)
  · exact digits?_length_le h

/-- A further step: a name after a dot, or an index in brackets. -/
def further : Parser Step where
  run
    | '.' :: s => name? s
    | '[' :: s => (number? (s.dropWhile isSpace)).bind fun (i, r) =>
      match r.dropWhile isSpace with
      | ']' :: r => some (.index i, r)
      | _ => none
    | _ => none
  shorter {s a r} h := by
    split at h
    · exact Nat.lt_succ_of_le (name?_length_le h)
    · next s =>
      obtain ⟨⟨i, t⟩, ht, h⟩ := Option.bind_eq_some_iff.1 h
      simp only at h
      split at h
      · next u hu =>
        simp only [Option.some.injEq, Prod.mk.injEq] at h
        have h1 := number?_length_le ht
        have h2 := (List.dropWhile_sublist isSpace (l := s)).length_le
        have h3 := (List.dropWhile_sublist isSpace (l := t)).length_le
        rw [hu, List.length_cons] at h3
        rw [← h.2, List.length_cons]
        omega
      · simp at h
    · simp at h

/-- Reads a text as a path. -/
def parse? (s : List Char) : Option (List Step) :=
  (name? s).bind fun (first, r) =>
    if (further.many r).2 = [] then some (first :: (further.many r).1) else none

/-- The path that a key stands for. -/
def path (k : String) : List Step :=
  (parse? k.toList).getD [.key k]

end Step

end Enrollment.Settings
