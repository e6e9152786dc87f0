import Enrollment.Number.Binary64
import Enrollment.Toml.DateTime
import Enrollment.Toml.Trivia
import Enrollment.Tree.Basic

/-!
# Words

A value that is neither quoted nor put together from others is a word: a
boolean, a number, a date or a time.  A word is found first, as far as letters,
digits and the marks of numbers and times go, and understood as a whole
afterwards.
-/

namespace Enrollment.Toml

/-! ## Whole numbers -/

/-- The base that a letter after a zero calls for. -/
def baseOf? : Char → Option Nat
  | 'x' => some 16
  | 'o' => some 8
  | 'b' => some 2
  | _ => none

/-- The digits of a decimal number, which begins with a zero only if it is one. -/
def decimalDigits? (cs : List Char) : Option (List Char) :=
  match Radix.ungroup? 10 cs with
  | some ds => if ds.head? = some '0' ∧ ds.length ≠ 1 then none else some ds
  | none => none

/-- A whole number in decimal with an optional sign. -/
def decimal? (cs : List Char) : Option Int :=
  let (negative, cs) := Decimal.sign cs
  (decimalDigits? cs).map fun ds => Decimal.signed negative (Radix.value 10 ds)

def wholeNumber? : List Char → Option Int
  | '0' :: c :: r =>
    match baseOf? c with
    | some base => (Radix.ungroup? base r).map fun ds => (Radix.value base ds : Int)
    | none => decimal? ('0' :: c :: r)
  | cs => decimal? cs

/-- A whole number that fits a signed 64-bit word. -/
def integer? (cs : List Char) : Option Int :=
  (wholeNumber? cs).bind fun n => if Decimal.fitsWord n then some n else none

/-! ## Numbers with a point or an exponent -/

/-- The digits after the point, which has to be there. -/
def places? : List Char → Option (List Char)
  | '.' :: r => Radix.ungroup? 10 r
  | _ => none

/-- Whether a letter begins an exponent part. -/
def isExponentMark (c : Char) : Bool :=
  c = 'e' || c = 'E'

/-- The power that an exponent part stands for. -/
def exponent? : List Char → Option Int
  | c :: r =>
    let (negative, ds) := Decimal.sign r
    if isExponentMark c then
      (Radix.ungroup? 10 ds).map fun ds => Decimal.signed negative (Radix.value 10 ds)
    else none
  | [] => none

/-- A number with a point, an exponent or both, without its sign. -/
def fractional? (negative : Bool) (cs : List Char) : Option Binary64 := do
  let front := cs.takeWhile fun c => !isExponentMark c
  let back := cs.dropWhile fun c => !isExponentMark c
  let whole ← decimalDigits? (front.takeWhile (· ≠ '.'))
  let point := front.dropWhile (· ≠ '.')
  if point = [] ∧ back = [] then none
  else
    let places ← if point = [] then some [] else places? point
    let power ← if back = [] then some 0 else exponent? back
    some (.ofDecimal negative (whole ++ places) (power - places.length))

/-- A number that is not whole in writing.  One too great to be told from infinity is none. -/
def float? (cs : List Char) : Option Binary64 :=
  let (negative, cs) := Decimal.sign cs
  if cs = "inf".toList then some (.infinite negative)
  else if cs = "nan".toList then some .nan
  else (fractional? negative cs).bind fun x => if x.isInfinite then none else some x

/-! ## Words -/

/-- The value of a word.  Dates and times are kept as text. -/
def wordValue? (cs : List Char) : Option Scalar :=
  if cs = "true".toList then some (.boolean true)
  else if cs = "false".toList then some (.boolean false)
  else ((integer? cs).map Scalar.integer).or
    (((float? cs).map Scalar.float).or
      ((DateTime.parse? cs).map fun d => .text (String.ofList d.text)))

def isWordChar (c : Char) : Bool :=
  c.isAlphanum || c = '+' || c = '-' || c = '.' || c = '_' || c = ':'

/-- Whether a word is a date and nothing else. -/
def isDate (w : List Char) : Bool :=
  match date? w with
  | some (_, []) => true
  | _ => false

/-- Splits off a word.  A single space between a date and a digit is part of it. -/
def splitWord (s : List Char) : List Char × List Char :=
  let w := s.takeWhile isWordChar
  match s.dropWhile isWordChar with
  | ' ' :: c :: r =>
    if isDate w && c.isDigit then
      (w ++ ' ' :: (c :: r).takeWhile isWordChar, (c :: r).dropWhile isWordChar)
    else (w, ' ' :: c :: r)
  | r => (w, r)

theorem splitWord_append (s : List Char) : (splitWord s).1 ++ (splitWord s).2 = s := by
  unfold splitWord
  dsimp only
  split
  · next c r h =>
    split
    · simp only [List.append_assoc, List.cons_append, List.takeWhile_append_dropWhile]
      rw [← h, List.takeWhile_append_dropWhile]
    · simp only
      rw [← h, List.takeWhile_append_dropWhile]
  · exact List.takeWhile_append_dropWhile

def word : Parser Scalar where
  run s :=
    if (splitWord s).1 = [] then none
    else (wordValue? (splitWord s).1).map fun v => (v, (splitWord s).2)
  shorter {s a r} h := by
    split at h
    · simp at h
    · next hs =>
      obtain ⟨v, -, h⟩ := Option.map_eq_some_iff.1 h
      simp only [Prod.mk.injEq] at h
      have h1 := congrArg List.length (splitWord_append s)
      rw [List.length_append] at h1
      have h2 := List.length_pos_iff.2 hs
      rw [← h.2]
      omega

end Enrollment.Toml
