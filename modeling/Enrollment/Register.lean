import Enrollment.Basic
import Enrollment.Tree.Entries

/-!
# The register

A register keeps students under their ids.  The first entry under an id stands:
a later one is turned away and changes nothing, so no two students of a
register share an id.  In which order the students are listed is left open.
-/

namespace Enrollment

inductive Entry where
  /-- The id was new, and the student was added. -/
  | added
  /-- The id was taken, and nothing changed. -/
  | duplicate
  deriving DecidableEq

structure Register where
  records : Entries Student
  distinct : records.keys.Nodup
  keyed : ∀ e ∈ records, e.2.id = e.1

/-- An order in which students are listed. -/
abbrev Order := Arrangement Student

def Order.entry : Order := .arrival

namespace Register

@[ext]
theorem ext {r s : Register} (h : r.records = s.records) : r = s := by
  cases r; cases s; cases h; rfl

def empty : Register := ⟨[], .nil, by simp⟩

instance : EmptyCollection Register := ⟨empty⟩
instance : Inhabited Register := ⟨empty⟩

def get? (r : Register) (id : String) : Option Student :=
  r.records.get? id

def contains (r : Register) (id : String) : Bool :=
  r.records.any (·.1 = id)

def size (r : Register) : Nat :=
  r.records.length

def isEmpty (r : Register) : Bool :=
  r.records.isEmpty

/-- The students, the earliest entry first. -/
def students (r : Register) : List Student :=
  r.records.map Prod.snd

def arranged (r : Register) (order : Order) : List Student :=
  order.arrange r.students

/-- Enters a student unless the id is taken. -/
def enter (r : Register) (s : Student) : Entry × Register :=
  if r.contains s.id then (.duplicate, r)
  else (.added, {
    records := r.records.put s.id s
    distinct := Entries.nodup_keys_put r.distinct s
    keyed := fun e he => (Entries.mem_of_mem_put he).elim (fun h => by rw [h]) (r.keyed e) })

end Register

end Enrollment
