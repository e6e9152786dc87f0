import Enrollment.Number.Decimal

/-!
# Dates and times

Dates and times as a document gives them, with or without an offset, and the
one text that each of them is kept as.
-/

namespace Enrollment.Toml

structure Date where
  year : Nat
  month : Nat
  day : Nat
  deriving DecidableEq

/-- A second of a minute and, if it is given, the part of it in billionths. -/
structure Second where
  whole : Nat
  billionths : Option Nat
  deriving DecidableEq

/-- A time of day, to the minute or closer. -/
structure Time where
  hour : Nat
  minute : Nat
  second : Option Second
  deriving DecidableEq

/-- How far a clock is ahead of or behind universal time. -/
inductive Offset where
  | zulu
  | ahead (hour minute : Nat)
  | behind (hour minute : Nat)
  deriving DecidableEq

/-- A date, a time, or both, in which case an offset may come with them. -/
inductive DateTime where
  | instant (d : Date) (t : Time) (o : Offset)
  | civil (d : Date) (t : Time)
  | date (d : Date)
  | time (t : Time)
  deriving DecidableEq

/-! ## The calendar -/

def isLeap (year : Nat) : Bool :=
  year % 4 = 0 && (year % 100 ≠ 0 || year % 400 = 0)

def daysIn (year month : Nat) : Nat :=
  if month = 2 then (if isLeap year then 29 else 28)
  else if month ∈ [4, 6, 9, 11] then 30
  else 31

def Date.valid (d : Date) : Bool :=
  decide (1 ≤ d.month ∧ d.month ≤ 12 ∧ 1 ≤ d.day ∧ d.day ≤ daysIn d.year d.month)

/-- Whether the second exists; 60 is a leap second. -/
def Second.valid (s : Second) : Bool :=
  decide (s.whole ≤ 60)

/-- Whether hour, minute and second are those of a clock. -/
def Time.valid (t : Time) : Bool :=
  decide (t.hour ≤ 23 ∧ t.minute ≤ 59) && t.second.all Second.valid

/-- Whether an offset is one that a clock can show. -/
def Offset.valid : Offset → Bool
  | .zulu => true
  | .ahead h m => decide (h ≤ 23 ∧ m ≤ 59)
  | .behind h m => decide (h ≤ 23 ∧ m ≤ 59)

/-! ## Reading -/

/-- Takes a number of exactly so many digits. -/
def number? (digits : Nat) (s : List Char) : Option (Nat × List Char) :=
  let ds := s.take digits
  if ds.length = digits ∧ ds.all Char.isDigit then some (Radix.value 10 ds, s.drop digits) else none

/-- Takes a number of two digits that comes after a given character. -/
def pairAfter? (c : Char) : List Char → Option (Nat × List Char)
  | d :: r => if d = c then number? 2 r else none
  | [] => none

def date? (s : List Char) : Option (Date × List Char) := do
  let (year, s) ← number? 4 s
  let (month, s) ← pairAfter? '-' s
  let (day, s) ← pairAfter? '-' s
  if (Date.mk year month day).valid then some (⟨year, month, day⟩, s) else none

/-- The billionths that the digits after the point stand for; those past the ninth are cut off. -/
def billionths (ds : List Char) : Nat :=
  Radix.value 10 ((ds ++ List.replicate 9 '0').take 9)

/-- Takes the part of a second after a point, if a point follows. -/
def fraction? : List Char → Option (Option Nat × List Char)
  | '.' :: r =>
    if r.takeWhile Char.isDigit = [] then none
    else some (some (billionths (r.takeWhile Char.isDigit)), r.dropWhile Char.isDigit)
  | s => some (none, s)

/-- Takes the second of a time, if a colon follows. -/
def second? (s : List Char) : Option (Option Second × List Char) :=
  match s with
  | ':' :: _ => do
    let (whole, s) ← pairAfter? ':' s
    let (part, s) ← fraction? s
    some (some ⟨whole, part⟩, s)
  | _ => some (none, s)

def time? (s : List Char) : Option (Time × List Char) := do
  let (hour, s) ← number? 2 s
  let (minute, s) ← pairAfter? ':' s
  let (second, s) ← second? s
  if (Time.mk hour minute second).valid then some (⟨hour, minute, second⟩, s) else none

def offset? : List Char → Option Offset
  | ['Z'] => some .zulu
  | ['z'] => some .zulu
  | c :: s => do
    let (hour, s) ← number? 2 s
    let (minute, s) ← pairAfter? ':' s
    let o ← if c = '+' then some (Offset.ahead hour minute)
      else if c = '-' then some (Offset.behind hour minute) else none
    if s = [] ∧ o.valid then some o else none
  | [] => none

/-- Reads the time and the offset that may follow a date. -/
def afterDate? (d : Date) (s : List Char) : Option DateTime := do
  let (t, s) ← time? s
  if s = [] then some (.civil d t) else (offset? s).map (.instant d t)

def DateTime.parse? (s : List Char) : Option DateTime :=
  match date? s with
  | some (d, []) => some (.date d)
  | some (d, c :: r) => if c = 'T' ∨ c = 't' ∨ c = ' ' then afterDate? d r else none
  | none =>
    match time? s with
    | some (t, []) => some (.time t)
    | _ => none

/-! ## Writing -/

/-- A number with at least so many digits. -/
def padded (digits n : Nat) : List Char :=
  let ds := Nat.toDigits 10 n
  List.replicate (digits - ds.length) '0' ++ ds

def Date.text (d : Date) : List Char :=
  padded 4 d.year ++ '-' :: padded 2 d.month ++ '-' :: padded 2 d.day

/-- A part of a second, without zeros at the end but for one that stands alone. -/
def fractionText (n : Nat) : List Char :=
  if n = 0 then ['.', '0'] else '.' :: ((padded 9 n).reverse.dropWhile (· = '0')).reverse

def Second.text (s : Second) : List Char :=
  ':' :: padded 2 s.whole ++ (s.billionths.map fractionText).getD []

def Time.text (t : Time) : List Char :=
  padded 2 t.hour ++ ':' :: padded 2 t.minute ++ (t.second.map Second.text).getD []

/-- An offset; one of nothing counts as ahead. -/
def Offset.text : Offset → List Char
  | .zulu => ['Z']
  | .ahead h m => '+' :: padded 2 h ++ ':' :: padded 2 m
  | .behind h m => (if h = 0 ∧ m = 0 then '+' else '-') :: padded 2 h ++ ':' :: padded 2 m

/-- The text that a date or time is kept as. -/
def DateTime.text : DateTime → List Char
  | .instant d t o => d.text ++ 'T' :: t.text ++ o.text
  | .civil d t => d.text ++ 'T' :: t.text
  | .date d => d.text
  | .time t => t.text

end Enrollment.Toml
