import Enrollment.Number.Binary64
import Enrollment.Tree.Entries

/-!
# Trees of values

Values as a document or an environment gives them: single values, lists and
tables.  Every part of a tree carries a note, which a document uses to say how
the part was written and loading uses to say where it came from.
-/

namespace Enrollment

inductive Scalar where
  /-- Nothing: what fills a list up to a place that was asked for. -/
  | nil
  | boolean (b : Bool)
  | integer (n : Int)
  | float (x : Binary64)
  | text (s : String)
  deriving DecidableEq

/-- A value of any shape, with a note on each part. -/
inductive Tree (ν : Type) where
  | leaf (note : ν) (value : Scalar)
  | list (note : ν) (items : List (Tree ν))
  | table (note : ν) (entries : List (String × Tree ν))

namespace Tree

variable {ν μ : Type}

def note : Tree ν → ν
  | leaf n _ => n
  | list n _ => n
  | table n _ => n

mutual

/-- The same values with one note on every part. -/
def renote (n : μ) : Tree ν → Tree μ
  | leaf _ v => leaf n v
  | list _ ts => list n (renoteItems n ts)
  | table _ es => table n (renoteEntries n es)

/-- The same items with one note on every part. -/
def renoteItems (n : μ) : List (Tree ν) → List (Tree μ)
  | [] => []
  | t :: ts => renote n t :: renoteItems n ts

/-- The same entries with one note on every part. -/
def renoteEntries (n : μ) : List (String × Tree ν) → List (String × Tree μ)
  | [] => []
  | (k, t) :: es => (k, renote n t) :: renoteEntries n es

end

/-! ## Equality -/

section Equality

variable [DecidableEq ν]

mutual

def decEq : (a b : Tree ν) → Decidable (a = b)
  | leaf n v, leaf m w => decidable_of_iff (n = m ∧ v = w) (by simp)
  | list n ts, list m us =>
    have : Decidable (ts = us) := decEqItems ts us
    decidable_of_iff (n = m ∧ ts = us) (by simp)
  | table n es, table m fs =>
    have : Decidable (es = fs) := decEqEntries es fs
    decidable_of_iff (n = m ∧ es = fs) (by simp)
  | leaf _ _, list _ _ => isFalse (by simp)
  | leaf _ _, table _ _ => isFalse (by simp)
  | list _ _, leaf _ _ => isFalse (by simp)
  | list _ _, table _ _ => isFalse (by simp)
  | table _ _, leaf _ _ => isFalse (by simp)
  | table _ _, list _ _ => isFalse (by simp)

def decEqItems : (ts us : List (Tree ν)) → Decidable (ts = us)
  | [], [] => isTrue rfl
  | [], _ :: _ => isFalse (by simp)
  | _ :: _, [] => isFalse (by simp)
  | t :: ts, u :: us =>
    have : Decidable (t = u) := decEq t u
    have : Decidable (ts = us) := decEqItems ts us
    decidable_of_iff (t = u ∧ ts = us) (by simp)

def decEqEntries : (es fs : List (String × Tree ν)) → Decidable (es = fs)
  | [], [] => isTrue rfl
  | [], _ :: _ => isFalse (by simp)
  | _ :: _, [] => isFalse (by simp)
  | (j, t) :: es, (k, u) :: fs =>
    have : Decidable (t = u) := decEq t u
    have : Decidable (es = fs) := decEqEntries es fs
    decidable_of_iff ((j = k ∧ t = u) ∧ es = fs) (by simp)

end

instance : DecidableEq (Tree ν) := decEq

end Equality

end Tree

end Enrollment
