/-!
# Parsers

A parser takes a value off the front of a text or declines.  It takes at least
one character when it succeeds, so it can be repeated without end in sight and
the repetition still comes to one.
-/

namespace Enrollment

/-- Takes a value off the front of a text, by way of at least one character. -/
structure Parser (α : Type) where
  /-- The value and what is left, or nothing if the text begins otherwise. -/
  run : List Char → Option (α × List Char)
  /-- Something has been taken. -/
  shorter : ∀ {s a r}, run s = some (a, r) → r.length < s.length

namespace Parser

variable {α β : Type}

/-- Takes one character that passes a test. -/
def satisfy (p : Char → Bool) : Parser Char where
  run
    | [] => none
    | c :: r => if p c then some (c, r) else none
  shorter {s a r} h := by
    cases s with
    | nil => simp at h
    | cons c s =>
      simp only at h
      split at h <;> simp_all

def orElse (p q : Parser α) : Parser α where
  run s := (p.run s).or (q.run s)
  shorter {s a r} h := by
    rcases Option.or_eq_some_iff.1 h with h | ⟨-, h⟩
    · exact p.shorter h
    · exact q.shorter h

/-- Makes another value of what was taken, or declines it after all. -/
def mapOption (f : α → Option β) (p : Parser α) : Parser β where
  run s := (p.run s).bind fun (a, r) => (f a).map fun b => (b, r)
  shorter {s b r} h := by
    obtain ⟨⟨a, t⟩, ht, h⟩ := Option.bind_eq_some_iff.1 h
    obtain ⟨b', -, h⟩ := Option.map_eq_some_iff.1 h
    cases h
    exact p.shorter ht

/-- Makes another value of what was taken. -/
def map (f : α → β) (p : Parser α) : Parser β where
  run s := (p.run s).map fun (a, r) => (f a, r)
  shorter {s b r} h := by
    obtain ⟨⟨a, t⟩, ht, h⟩ := Option.map_eq_some_iff.1 h
    cases h
    exact p.shorter ht

/-- Takes values as long as there are any; what is left begins with none. -/
def many (p : Parser α) (s : List Char) : List α × List Char :=
  match h : p.run s with
  | none => ([], s)
  | some (a, r) =>
    have := p.shorter h
    let rest := p.many r
    (a :: rest.1, rest.2)
termination_by s.length

theorem many_of_none {p : Parser α} {s : List Char} (h : p.run s = none) :
    p.many s = ([], s) := by
  rw [many]
  split <;> simp_all

theorem many_of_some {p : Parser α} {s r : List Char} {a : α} (h : p.run s = some (a, r)) :
    p.many s = (a :: (p.many r).1, (p.many r).2) := by
  rw [many]
  split <;> simp_all

/-- Nothing is left over that was not there. -/
theorem many_length_le (p : Parser α) (s : List Char) : (p.many s).2.length ≤ s.length := by
  fun_induction many p s with
  | case1 => exact Nat.le_refl _
  | case2 s a r h hlt rest ih => exact Nat.le_of_lt (Nat.lt_of_le_of_lt ih hlt)

/-- Takes the mark that has to come after some values. -/
def closeWith (mark : Char) : List α × List Char → Option (List α × List Char)
  | (as, c :: r) => if c = mark then some (as, r) else none
  | (_, []) => none

theorem closeWith_shorter {mark : Char} {x : List α × List Char} {as : List α} {r : List Char}
    (h : closeWith mark x = some (as, r)) : r.length < x.2.length := by
  unfold closeWith at h
  split at h
  · split at h
    · cases h
      exact Nat.lt_succ_self _
    · simp at h
  · simp at h

end Parser

end Enrollment
