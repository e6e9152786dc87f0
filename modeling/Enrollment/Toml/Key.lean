import Enrollment.Toml.Quotation

/-!
# Keys

A key is one or more names with dots between them.  A name is bare or quoted on
one line, and how it is written makes no difference to which name it is.
-/

namespace Enrollment.Toml

open Enrollment.Parser

def isBare (c : Char) : Bool :=
  c.isAlphanum || c = '_' || c = '-'

def bareName : Parser (List Char) where
  run s :=
    if s.takeWhile isBare = [] then none else some (s.takeWhile isBare, s.dropWhile isBare)
  shorter {s a r} h := by
    split at h
    · simp at h
    · next hs =>
      simp only [Option.some.injEq, Prod.mk.injEq] at h
      have := congrArg List.length (List.takeWhile_append_dropWhile (p := isBare) (l := s))
      rw [List.length_append] at this
      have := List.length_pos_iff.2 hs
      rw [← h.2]
      omega

def name : Parser String :=
  (bareName.orElse (basic.orElse literal)).map String.ofList

/-- A dot and the name after it, with blanks around the dot. -/
def dottedName : Parser String where
  run s :=
    match skipBlanks s with
    | '.' :: r => name.run (skipBlanks r)
    | _ => none
  shorter {s a r} h := by
    split at h
    · next t ht =>
      have h1 := name.shorter h
      have h2 := skipBlanks_length_le t
      have h3 := skipBlanks_length_le s
      rw [ht, List.length_cons] at h3
      omega
    · simp at h

/-- A key: the names that lead to a table and the name in it. -/
structure Key where
  parents : List String
  last : String
  deriving DecidableEq

/-- The most names a key may have. -/
def maxNames : Nat := 80

/-- The key that consists of a name and some more. -/
def Key.ofNames (first : String) : List String → Key
  | [] => ⟨[], first⟩
  | n :: ns => ⟨first :: (ofNames n ns).parents, (ofNames n ns).last⟩

def key : Parser Key where
  run s := (name.run s).bind fun (first, r) =>
    let (others, r) := dottedName.many r
    if others.length < maxNames then some (.ofNames first others, r) else none
  shorter {s a r} h := by
    obtain ⟨⟨first, t⟩, ht, h⟩ := Option.bind_eq_some_iff.1 h
    simp only at h
    split at h
    · simp only [Option.some.injEq, Prod.mk.injEq] at h
      have h1 := name.shorter ht
      have h2 := dottedName.many_length_le t
      rw [← h.2]
      omega
    · simp at h

end Enrollment.Toml
