import Enrollment.Toml.Key
import Enrollment.Tree.Basic

/-!
# Tables under construction

A document builds its tables piece by piece, and what may still be added to a
table depends on how it came into being.  Every part of the tree therefore
carries that as its note.  Nothing that has been given is ever replaced: an
addition that is not allowed has no result.
-/

namespace Enrollment.Toml

/-- How a part of a document came into being. -/
inductive Making where
  /-- It was written as a value, which completes it. -/
  | value
  /-- It is a table with a heading of its own, or the whole document. -/
  | heading
  /-- It is a table that longer headings pass through, and so far nothing else. -/
  | implied
  /-- It is a table that a dotted key passes through. -/
  | dotted
  /-- It is a list of tables with one heading each. -/
  | elements
  deriving DecidableEq

abbrev Node := Tree Making

/-- Whether a table may be entered on the way to another: by a heading unless it is complete,
by a dotted key only if it has no heading either. -/
def enterable (dotted : Bool) : Making → Bool
  | .implied => true
  | .dotted => true
  | .heading => !dotted
  | _ => false

/-- How a table is made that is missing on the way to another. -/
def fresh (dotted : Bool) : Making :=
  if dotted then .dotted else .implied

/-- How a table is made once it has been entered on the way to another.  A dotted key makes it
a table of its own, which can no longer be given a heading. -/
def entered (dotted : Bool) (making : Making) : Making :=
  if dotted then .dotted else making

/-- Edits the table that a path leads to, from a table that came into being in a given way.
Missing tables are made, and a list of tables is entered at its last element. -/
def within (dotted : Bool) (edit : Making → Entries Node → Option (Entries Node)) :
    List String → Making → Entries Node → Option (Entries Node)
  | [], making, es => edit making es
  | k :: path, _, es =>
    match Entries.get? k es with
    | none =>
      (within dotted edit path (fresh dotted) []).map fun new =>
        Entries.put k (.table (fresh dotted) new) es
    | some (.table making old) =>
      if enterable dotted making then
        (within dotted edit path (entered dotted making) old).map fun new =>
          Entries.put k (.table (entered dotted making) new) es
      else none
    | some (.list .elements items) =>
      match items.getLast? with
      | some (.table making old) =>
        (within dotted edit path making old).map fun new =>
          Entries.put k (.list .elements (items.dropLast ++ [.table making new])) es
      | _ => none
    | some _ => none

/-- Adds a value under a name that is not taken. -/
def add (k : String) (v : Node) (es : Entries Node) : Option (Entries Node) :=
  match Entries.get? k es with
  | none => some (Entries.put k v es)
  | some _ => none

/-- Adds a value under a key.  A dotted key has to end in a table that dotted keys pass through,
which an element of a list of tables is not. -/
def insert (k : Key) (v : Node) (es : Entries Node) : Option (Entries Node) :=
  within true (fun making es => if k.parents = [] ∨ making = .dotted then add k.last v es else none)
    k.parents .heading es

def insertAll : List (Key × Node) → Entries Node → Option (Entries Node)
  | [], es => some es
  | (k, v) :: kvs, es => (insert k v es).bind (insertAll kvs)

/-- Adds a table with a heading and its values.  The table may so far only have been passed
through by longer headings. -/
def insertTable (k : Key) (kvs : List (Key × Node)) : Entries Node → Option (Entries Node) :=
  within false (fun _ es =>
    match Entries.get? k.last es with
    | none => (insertAll kvs []).map fun t => Entries.put k.last (.table .heading t) es
    | some (.table .implied old) =>
      (insertAll kvs old).map fun t => Entries.put k.last (.table .heading t) es
    | some _ => none) k.parents .heading

/-- Adds a table with its values to the end of a list of tables. -/
def insertElement (k : Key) (kvs : List (Key × Node)) : Entries Node → Option (Entries Node) :=
  within false (fun _ es =>
    (insertAll kvs []).bind fun t =>
      match Entries.get? k.last es with
      | none => some (Entries.put k.last (.list .elements [.table .heading t]) es)
      | some (.list .elements items) =>
        some (Entries.put k.last (.list .elements (items ++ [.table .heading t])) es)
      | some _ => none) k.parents .heading

end Enrollment.Toml
