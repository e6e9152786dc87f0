import Enrollment.Number.Decimal

/-!
# Binary floating-point numbers

The numbers of the 64-bit binary format, by sign, mantissa and exponent, so
that every number is exact.  A decimal is rounded to the nearest of them, and a
number is written with the fewest digits that read back as it.
-/

namespace Enrollment

/-- A number of the 64-bit binary format. -/
inductive Binary64 where
  | nan
  | infinite (negative : Bool)
  /-- Stands for `mantissa * 2 ^ exponent`, negated if `negative`. -/
  | finite (negative : Bool) (mantissa : Nat) (exponent : Int)
  deriving DecidableEq

namespace Binary64

def minExponent : Int := -1074

def maxExponent : Int := 971

/-- The 53rd power of two.  Mantissas stay below it, and from half of it on unless the exponent
is the least. -/
def mantissaEnd : Nat := 9007199254740992

def zero (negative : Bool) : Binary64 :=
  .finite negative 0 minExponent

/-- Whether a number equals zero, whatever its sign. -/
def isZero : Binary64 → Bool
  | .finite _ 0 _ => true
  | _ => false

def isInfinite : Binary64 → Bool
  | .infinite _ => true
  | _ => false

/-! ## Rounding -/

/-- The quotient rounded to the nearest whole number, a half to the even one. -/
def roundToEven (num den : Nat) : Nat :=
  let q := num / den
  let r := num % den
  if 2 * r < den ∨ (2 * r = den ∧ q % 2 = 0) then q else q + 1

/-- A fraction over `2 ^ e`, as a fraction again. -/
def overPowerOfTwo (num den : Nat) (e : Int) : Nat × Nat :=
  if 0 ≤ e then (num, den * Nat.pow 2 e.toNat) else (num * Nat.pow 2 (-e).toNat, den)

/-- The exponent at which the mantissa of a positive fraction has 53 bits, or the least one. -/
def exponentOf (num den : Nat) : Int :=
  let e : Int := (num.log2 : Int) - den.log2 - 53
  let (n, d) := overPowerOfTwo num den e
  max minExponent (if d * mantissaEnd ≤ n then e + 1 else e)

/-- The number nearest to a positive fraction. -/
def ofFraction (negative : Bool) (num den : Nat) : Binary64 :=
  let e := exponentOf num den
  let (n, d) := overPowerOfTwo num den e
  let m := roundToEven n d
  let (m, e) := if m = mantissaEnd then (m / 2, e + 1) else (m, e)
  if maxExponent < e then .infinite negative else .finite negative m e

/-- The number nearest to the value of some digits times a power of ten.  Powers that lie
beyond the format whatever the digits are never worked out. -/
def ofDecimal (negative : Bool) (digits : List Char) (power : Int) : Binary64 :=
  let n := Decimal.value digits
  if n = 0 then zero negative
  else if 310 < power then .infinite negative
  else if power + digits.length < -330 then zero negative
  else if 0 ≤ power then ofFraction negative (n * Nat.pow 10 power.toNat) 1
  else ofFraction negative n (Nat.pow 10 (-power).toNat)

/-! ## Shortest digits -/

/-- Twice the distance from a mantissa to the ends of the interval that rounds to it, in
quarters of a unit: the lower half is narrower below the first mantissa of an exponent. -/
def lowerGap (m : Nat) (e : Int) : Nat :=
  if 2 * m = mantissaEnd ∧ minExponent < e then 1 else 2

/-- The multiple of `10 ^ p` that stands for `m * 2 ^ e`, if one lies in the interval that
rounds to it: the nearer of the two neighbours, the upper one if both are as near. -/
def gridPoint (m : Nat) (e p : Int) : Option Nat :=
  let twos := e - 2
  let num := Nat.pow 2 twos.toNat * Nat.pow 10 (-p).toNat
  let den := Nat.pow 2 (-twos).toNat * Nat.pow 10 p.toNat
  let low := (4 * m - lowerGap m e) * num
  let mid := 4 * m * num
  let high := (4 * m + 2) * num
  let t := mid / den
  let closed := m % 2 = 0
  let down := low < t * den ∨ (closed ∧ low = t * den)
  let up := (t + 1) * den < high ∨ (closed ∧ (t + 1) * den = high)
  if down ∧ (¬up ∨ 2 * mid < (2 * t + 1) * den) then some t
  else if up then some (t + 1)
  else none

/-- The fewest digits, and the power of ten they are multiplied by, that read back as a
positive number. -/
def shortest (m : Nat) (e : Int) : Nat × Int :=
  ((List.range 1400).findSome? fun (i : Nat) =>
    let p : Int := 310 - (i : Int)
    (gridPoint m e p).map fun t => (t, p)).getD (0, 0)

/-! ## Text -/

/-- A whole number times a power of ten, without an exponent. -/
def positional (n : Nat) (p : Int) : List Char :=
  let ds := Nat.toDigits 10 n
  if 0 ≤ p then ds ++ List.replicate p.toNat '0'
  else
    let places := (-p).toNat
    let ds := List.replicate (places + 1 - ds.length) '0' ++ ds
    ds.take (ds.length - places) ++ '.' :: ds.drop (ds.length - places)

/-- A number with the fewest digits that read back as it, never with an exponent. -/
def text : Binary64 → List Char
  | .nan => "NaN".toList
  | .infinite negative => (if negative then ['-'] else []) ++ "inf".toList
  | .finite negative m e =>
    (if negative then ['-'] else []) ++
      if m = 0 then ['0'] else positional (shortest m e).1 (shortest m e).2

/-- Whether a text says `inf`, `infinity` or `nan` in any case of letters, and what it says. -/
def special? (negative : Bool) (cs : List Char) : Option Binary64 :=
  let w := cs.map Char.toLower
  if w = "inf".toList ∨ w = "infinity".toList then some (.infinite negative)
  else if w = "nan".toList then some .nan
  else none

/-- The power that an exponent part stands for, `0` if there is none. -/
def power? : List Char → Option Int
  | [] => some 0
  | c :: r =>
    let (negative, ds) := Decimal.sign r
    if c.toLower = 'e' ∧ Decimal.areDigits ds then
      some (Decimal.signed negative (Decimal.value ds))
    else none

/-- Reads a number: a sign, digits with a point anywhere among them, an exponent; or one of
the special words. -/
def parse? (cs : List Char) : Option Binary64 :=
  let (negative, cs) := Decimal.sign cs
  special? negative cs <|>
    let whole := cs.takeWhile Char.isDigit
    let cs := cs.dropWhile Char.isDigit
    let (places, cs) := match cs with
      | '.' :: r => (r.takeWhile Char.isDigit, r.dropWhile Char.isDigit)
      | r => ([], r)
    if whole.isEmpty && places.isEmpty then none
    else (power? cs).map fun p => ofDecimal negative (whole ++ places) (p - places.length)

end Binary64

end Enrollment
