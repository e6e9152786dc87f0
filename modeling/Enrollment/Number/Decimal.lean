/-!
# Whole numbers

Whole numbers written in decimal and in other bases up to sixteen, and the range
that a signed 64-bit word holds.
-/

namespace Enrollment.Radix

/-- The value of a digit; letters count from ten on in either case. -/
def digitValue (c : Char) : Nat :=
  if 'a' ≤ c then c.toNat - 'a'.toNat + 10
  else if 'A' ≤ c then c.toNat - 'A'.toNat + 10
  else c.toNat - '0'.toNat

/-- Whether a character is a digit of a base. -/
def isDigit (base : Nat) (c : Char) : Bool :=
  (c.isDigit || (decide ('a' ≤ c ∧ c ≤ 'f')) || (decide ('A' ≤ c ∧ c ≤ 'F'))) &&
    decide (digitValue c < base)

/-- The value of digits of a base, the most significant first. -/
def value (base : Nat) (ds : List Char) : Nat :=
  ds.foldl (fun n c => n * base + digitValue c) 0

/-- Digits with single underscores between them, without the underscores. -/
def ungroup? (base : Nat) : List Char → Option (List Char)
  | [] => none
  | [c] => if isDigit base c then some [c] else none
  | c :: d :: r =>
    if isDigit base c then
      (if d = '_' then ungroup? base r else ungroup? base (d :: r)).map (c :: ·)
    else none

end Enrollment.Radix

namespace Enrollment.Decimal

/-- The sign in front of a number, `true` for a minus, and what follows it. -/
def sign : List Char → Bool × List Char
  | '+' :: r => (false, r)
  | '-' :: r => (true, r)
  | r => (false, r)

/-- Whether a text is one or more digits. -/
def areDigits (ds : List Char) : Bool :=
  !ds.isEmpty && ds.all Char.isDigit

def value (ds : List Char) : Nat :=
  Nat.ofDigitChars 10 ds 0

/-- A whole number with its sign. -/
def signed (negative : Bool) (n : Nat) : Int :=
  if negative then -(n : Int) else n

/-- Whether a number fits a signed 64-bit word. -/
def fitsWord (n : Int) : Bool :=
  decide (-9223372036854775808 ≤ n ∧ n ≤ 9223372036854775807)

/-- Reads an optional sign and digits whose value fits a signed 64-bit word. -/
def word? (cs : List Char) : Option Int :=
  let (negative, ds) := sign cs
  let n := signed negative (value ds)
  if areDigits ds && fitsWord n then some n else none

theorem areDigits_toDigits (n : Nat) : areDigits (Nat.toDigits 10 n) = true := by
  rw [areDigits, Bool.and_eq_true, Bool.not_eq_true', List.isEmpty_eq_false_iff, List.all_eq_true]
  refine ⟨Nat.toDigits_ne_nil, ?_⟩
  intro c hc
  exact Nat.isDigit_of_mem_toDigits (by decide) (by decide) hc

theorem sign_of_areDigits {ds : List Char} (h : areDigits ds = true) : sign ds = (false, ds) := by
  unfold sign
  split
  · simp [areDigits] at h
  · simp [areDigits] at h
  · rfl

theorem toList_toString (n : Int) :
    (toString n).toList = (if n < 0 then ['-'] else []) ++ Nat.toDigits 10 n.natAbs := by
  rw [Int.toString_eq_repr, Int.repr_eq_if]
  by_cases h : 0 ≤ n
  · have habs : n.toNat = n.natAbs := by omega
    rw [if_pos h, if_neg (Int.not_lt.2 h), Nat.toList_repr, habs, List.nil_append]
  · have habs : (-n).toNat = n.natAbs := by omega
    rw [if_neg h, if_pos (Int.not_le.1 h), String.toList_append, Nat.toList_repr, habs]
    rfl

theorem sign_toString (n : Int) :
    sign (toString n).toList = (decide (n < 0), Nat.toDigits 10 n.natAbs) := by
  rw [toList_toString]
  by_cases h : n < 0
  · rw [if_pos h, decide_eq_true h]
    rfl
  · rw [if_neg h, decide_eq_false h, List.nil_append]
    exact sign_of_areDigits (areDigits_toDigits _)

/-- The decimal text of a number that fits a word is read as this number. -/
theorem word?_toString {n : Int} (h : fitsWord n = true) : word? (toString n).toList = some n := by
  have hvalue : value (Nat.toDigits 10 n.natAbs) = n.natAbs := Nat.ofDigitChars_ten_toDigits
  have hsigned : signed (decide (n < 0)) n.natAbs = n := by
    simp only [signed, decide_eq_true_eq]
    split <;> omega
  rw [word?, sign_toString]
  dsimp only
  rw [hvalue, hsigned, areDigits_toDigits, h]
  rfl

end Enrollment.Decimal
