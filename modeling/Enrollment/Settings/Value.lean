import Enrollment.Settings.KeyPath
import Enrollment.Tree.Basic

/-!
# Values that are laid over one another

Settings are gathered in a tree in which every part knows where it came from.
A new value is laid over the old one at the end of a path.  A table merges into
a table key by key; anything else takes the place of what was there.  What the
way to a value needs is made, and what stands in the way is replaced.
-/

namespace Enrollment.Settings

/-- Where a value came from; nothing if the gathering made it. -/
abbrev Origin := Option String

/-- A value with the origins of its parts. -/
abbrev Value := Tree Origin

namespace Value

def nothing : Value := .leaf none .nil

/-- A value as a table, an empty one without origin if it is none. -/
def asTable : Value → Origin × Entries Value
  | .table o es => (o, es)
  | _ => (none, [])

/-- A value as a list, an empty one without origin if it is none. -/
def asList : Value → Origin × List Value
  | .list o ts => (o, ts)
  | _ => (none, [])

/-- The value under a key of a table, nothing if it is missing. -/
def entry (k : String) (es : Entries Value) : Value :=
  (Entries.get? k es).getD nothing

/-- Items with a place for an index, and that place.  An index past the end adds nothings
there; a negative one counts from the end, and past the start it adds nothings in front.  There
is room for any number of them here; the program panics at an index so far off that those in
between cannot be allocated. -/
def place (i : Int) (items : List Value) : List Value × Nat :=
  if 0 ≤ i then (items ++ List.replicate (i.toNat + 1 - items.length) nothing, i.toNat)
  else
    let missing := (-i).toNat - items.length
    (List.replicate missing nothing ++ items, missing + items.length - (-i).toNat)

mutual

/-- A new value merged into an old one. -/
def merge : Value → Value → Value
  | .table _ es, old => .table (asTable old).1 (mergeEntries es (asTable old).2)
  | .leaf o v, _ => .leaf o v
  | .list o ts, _ => .list o ts

/-- New entries merged into old ones, one after another. -/
def mergeEntries : List (String × Value) → Entries Value → Entries Value
  | [], old => old
  | (k, v) :: es, old => mergeEntries es (Entries.put k (merge v (entry k old)) old)

end

/-- A new value laid over an old tree at the end of a path. -/
def set : List Step → Value → Value → Value
  | [], new, old => merge new old
  | .key k :: path, new, old =>
    .table (asTable old).1
      (Entries.put k (set path new (entry k (asTable old).2)) (asTable old).2)
  | .index i :: path, new, old =>
    let p := place i (asList old).2
    .list (asList old).1 (p.1.set p.2 (set path new (p.1.getD p.2 nothing)))

/-- The value at the end of a path, if there is one. -/
def get? : List Step → Value → Option Value
  | [], t => some t
  | .key k :: path, .table _ es => (Entries.get? k es).bind (get? path)
  | .index i :: path, .list _ ts =>
    let n := if 0 ≤ i then some i.toNat
      else if (-i).toNat ≤ ts.length then some (ts.length - (-i).toNat) else none
    (n.bind (ts[·]?)).bind (get? path)
  | _ :: _, _ => none

/-- A layer laid over a tree, its entries in the order of the list.  Its keys are read as paths;
its tables are merged key by key. -/
def lay : Entries Value → Value → Value
  | [], t => t
  | (k, v) :: es, t => lay es (set (Step.path k) v t)

end Value

end Enrollment.Settings
