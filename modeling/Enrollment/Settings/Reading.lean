import Enrollment.Basic
import Enrollment.Settings.Failure
import Enrollment.Text.LowerCase

/-!
# Reading settings from a tree

Values are read generously: any single value but nothing is a text, and numbers
and a few words can switch something on or off.
-/

namespace Enrollment.Settings

/-- A value read as a text, or what it is instead. -/
def readText : Value → Except Found String
  | .leaf _ (.text s) => .ok s
  | .leaf _ (.boolean b) => .ok (if b then "true" else "false")
  | .leaf _ (.integer n) => .ok (toString n)
  | .leaf _ (.float x) => .ok (String.ofList x.text)
  | v => .error (Found.ofValue v)

def onWords : List String := ["1", "true", "on", "yes"]

def offWords : List String := ["0", "false", "off", "no"]

/-- A word read as a switch, in any case of letters. -/
def readWord (s : String) : Except Found Bool :=
  let w := String.ofList (Text.lower s.toList)
  if w ∈ onWords then .ok true
  else if w ∈ offWords then .ok false
  else .error (.text w)

/-- A value read as a switch, or what it is instead. -/
def readSwitch : Value → Except Found Bool
  | .leaf _ (.boolean b) => .ok b
  | .leaf _ (.integer n) => .ok (decide (n ≠ 0))
  | .leaf _ (.float x) => .ok (!x.isZero)
  | .leaf _ (.text s) => readWord s
  | v => .error (Found.ofValue v)

/-- A setting read from the value at its position, or its standard if there is none. -/
def readAt {α : Type} (read : Value → Except Found α) (standard : α) (position : Position) :
    Option Value → Except Failure α
  | none => .ok standard
  | some v => (read v).mapError fun found => .mistyped found position v.note

/-- The settings read from their values, beginning with the first. -/
def readBoth (first : Setting) (position : Setting → Position) (value : Setting → Option Value) :
    Except Failure Settings :=
  let header := readAt readText standard.header (position .header) (value .header)
  let announceAdditions := readAt readSwitch standard.announceAdditions
    (position .announceAdditions) (value .announceAdditions)
  match first with
  | .header => do return { header := ← header, announceAdditions := ← announceAdditions }
  | .announceAdditions => do
    let announced ← announceAdditions
    return { header := ← header, announceAdditions := announced }

/-- The settings read from a table by key, in either order, or from a list by place, in the order
of the list. -/
def read (first : Setting) : Value → Except Failure Settings
  | .table _ es => readBoth first .keyed fun s => Entries.get? s.key es
  | .list _ ts => readBoth .header .listed fun s => ts[s.index]?
  | v => .error (.misshapen (Found.ofValue v))

end Enrollment.Settings
