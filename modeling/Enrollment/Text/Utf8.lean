/-!
# UTF-8

A text is written as bytes by the standard's encoding.  Reading goes one byte
at a time: the state says which character has been begun and which bytes may
continue it, so any byte sequence splits into characters and maximal
ill-formed parts, and a byte below `0x80` always ends whatever was begun.
-/

namespace Enrollment

/-- A sequence of bytes, as a file, a variable or a sink holds it. -/
abbrev Bytes := List UInt8

namespace Utf8

def encode (cs : List Char) : Bytes :=
  cs.flatMap String.utf8EncodeChar

/-- A character that has been begun but not finished. -/
structure Pending where
  seen : Bytes
  bits : Nat
  /-- The least byte that may come next. -/
  low : UInt8
  /-- The greatest byte that may come next. -/
  high : UInt8
  /-- How many bytes are to come after the next one. -/
  after : Nat
  deriving DecidableEq

/-- What a byte sequence falls into: characters and ill-formed parts. -/
inductive Part where
  | char (c : Char)
  | illFormed (bytes : Bytes)
  deriving DecidableEq

/-- The character that a leading byte begins.  The second byte is narrowed where
a longer form than needed, a surrogate or a value past U+10FFFF would follow. -/
def lead (b : UInt8) : Option Pending :=
  if 0xC2 ≤ b ∧ b ≤ 0xDF then some ⟨[b], b.toNat - 0xC0, 0x80, 0xBF, 0⟩
  else if b = 0xE0 then some ⟨[b], 0, 0xA0, 0xBF, 1⟩
  else if b = 0xED then some ⟨[b], 0xD, 0x80, 0x9F, 1⟩
  else if 0xE1 ≤ b ∧ b ≤ 0xEF then some ⟨[b], b.toNat - 0xE0, 0x80, 0xBF, 1⟩
  else if b = 0xF0 then some ⟨[b], 0, 0x90, 0xBF, 2⟩
  else if 0xF1 ≤ b ∧ b ≤ 0xF3 then some ⟨[b], b.toNat - 0xF0, 0x80, 0xBF, 2⟩
  else if b = 0xF4 then some ⟨[b], 4, 0x80, 0x8F, 2⟩
  else none

def start (b : UInt8) : List Part × Option Pending :=
  if b < 0x80 then ([.char (Char.ofNat b.toNat)], none)
  else match lead b with
    | some p => ([], some p)
    | none => ([.illFormed [b]], none)

/-- Reads a byte.  One that cannot continue the pending character leaves an
ill-formed part behind and is read afresh. -/
def step : Option Pending → UInt8 → List Part × Option Pending
  | none, b => start b
  | some p, b =>
    if p.low ≤ b ∧ b ≤ p.high then
      let bits := p.bits * 64 + (b.toNat - 0x80)
      match p.after with
      | 0 => ([.char (Char.ofNat bits)], none)
      | n + 1 => ([], some ⟨p.seen ++ [b], bits, 0x80, 0xBF, n⟩)
    else (.illFormed p.seen :: (start b).1, (start b).2)

/-- The parts of the bytes that follow a state. -/
def partsFrom : Option Pending → Bytes → List Part
  | none, [] => []
  | some p, [] => [.illFormed p.seen]
  | s, b :: bs => (step s b).1 ++ partsFrom (step s b).2 bs

def parts (bs : Bytes) : List Part :=
  partsFrom none bs

/-- The character, if the part is well-formed. -/
def Part.char? : Part → Option Char
  | .char c => some c
  | .illFormed _ => none

/-- The character shown for a part: U+FFFD stands for an ill-formed one. -/
def Part.shown : Part → Char
  | .char c => c
  | .illFormed _ => '\uFFFD'

/-- Reads bytes as text, if all of them are well-formed. -/
def decode? (bs : Bytes) : Option (List Char) :=
  (parts bs).mapM Part.char?

/-- Reads bytes as text, each maximal ill-formed part becoming U+FFFD. -/
def decodeLossy (bs : Bytes) : List Char :=
  (parts bs).map Part.shown

end Utf8

def bytesOf (s : String) : Bytes :=
  Utf8.encode s.toList

end Enrollment
