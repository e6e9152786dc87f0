import Enrollment.Register
import Mathlib.Data.List.Dedup
import Mathlib.Data.Finset.Card

/-!
# The first entry under an id stands

A register is compared with the entries that were made in it, in order:
`Holds past r` says that every id leads to the first of those entries that was
made under it.  Both branches of `Register.enter` keep this (`Holds.enter`), so
it holds after all entries (`holds_enterAll`), and what `Register.get?`,
`contains`, `size`, `isEmpty` and `arranged` tell follows from it.
-/

namespace Enrollment.Register

/-- The register after entries made one after another. -/
def enterAll (r : Register) (entries : List Student) : Register :=
  entries.foldl (fun r s => (r.enter s).2) r

/-- What became of entries made one after another. -/
def outcomes : Register → List Student → List Entry
  | _, [] => []
  | r, s :: rest => (r.enter s).1 :: outcomes (r.enter s).2 rest

/-! ## One entry -/

theorem contains_iff {r : Register} {id : String} : r.contains id = true ↔ id ∈ r.records.keys := by
  simp [contains, Entries.keys]

theorem contains_eq_isSome (r : Register) (id : String) : r.contains id = (r.get? id).isSome := by
  rw [Bool.eq_iff_iff, contains_iff, Option.isSome_iff_ne_none, get?, ne_eq,
    Entries.get?_eq_none_iff, not_not]

theorem get?_eq_some_iff {r : Register} {id : String} {s : Student} :
    r.get? id = some s ↔ s ∈ r.students ∧ s.id = id := by
  rw [get?, Entries.get?_eq_some_iff r.distinct, students, List.mem_map]
  constructor
  · intro h
    exact ⟨⟨_, h, rfl⟩, r.keyed _ h⟩
  · rintro ⟨⟨⟨k, t⟩, h, rfl⟩, rfl⟩
    have hk : t.id = k := r.keyed _ h
    rwa [← hk] at h

theorem enter_of_contains {r : Register} {s : Student} (h : r.contains s.id = true) :
    r.enter s = (.duplicate, r) := by
  rw [enter, if_pos h]

theorem enter_fst (r : Register) (s : Student) :
    (r.enter s).1 = if r.contains s.id then .duplicate else .added := by
  unfold enter
  split <;> rfl

theorem get?_enter (r : Register) (s : Student) (id : String) :
    (r.enter s).2.get? id = (r.get? id).or (if s.id = id then some s else none) := by
  unfold enter
  split
  · next h =>
    rw [contains_eq_isSome] at h
    by_cases hid : s.id = id
    · subst hid
      obtain ⟨t, ht⟩ := Option.isSome_iff_exists.1 h
      simp [ht]
    · simp [hid]
  · next h =>
    rw [contains_eq_isSome, Option.not_isSome_iff_eq_none] at h
    by_cases hid : s.id = id
    · subst hid
      simp only [get?] at h ⊢
      simp [h]
    · simp only [get?, Entries.get?_put_of_ne (Ne.symm hid)]
      simp [hid]

theorem size_enter (r : Register) (s : Student) :
    (r.enter s).2.size = r.size + [(r.enter s).1].count .added := by
  unfold enter
  split
  · rfl
  · next h =>
    have hs : s.id ∉ r.records.keys := fun hm => h (contains_iff.2 hm)
    simp [size, Entries.put_of_not_mem hs]

/-- The ids of the students are the keys they stand under. -/
theorem map_id_students (r : Register) : r.students.map Student.id = r.records.keys := by
  rw [students, Entries.keys, List.map_map]
  exact List.map_congr_left r.keyed

theorem arranged_perm (r : Register) (order : Order) : (r.arranged order).Perm r.students :=
  order.perm r.students

theorem nodup_map_id_arranged (r : Register) (order : Order) :
    ((r.arranged order).map Student.id).Nodup := by
  rw [((r.arranged_perm order).map Student.id).nodup_iff, map_id_students]
  exact r.distinct

theorem mem_arranged_iff {r : Register} {order : Order} {s : Student} :
    s ∈ r.arranged order ↔ r.get? s.id = some s := by
  rw [(r.arranged_perm order).mem_iff, get?_eq_some_iff, and_iff_left rfl]

/-! ## All entries -/

/-- A register as the entries made in it leave it: each id leads to the first
entry under it. -/
def Holds (past : List Student) (r : Register) : Prop :=
  ∀ id, r.get? id = past.find? (·.id = id)

theorem holds_empty : Holds [] empty :=
  fun _ => rfl

theorem Holds.enter {past : List Student} {r : Register} (h : Holds past r) (s : Student) :
    Holds (past ++ [s]) (r.enter s).2 := by
  intro id
  rw [get?_enter, h id, List.find?_append]
  by_cases hid : s.id = id <;> simp [hid]

theorem Holds.enterAll {past : List Student} {r : Register} (h : Holds past r)
    (entries : List Student) : Holds (past ++ entries) (r.enterAll entries) := by
  induction entries generalizing past r with
  | nil => rwa [List.append_nil]
  | cons s rest ih =>
    have hrest := ih (h.enter s)
    rwa [List.append_assoc] at hrest

theorem holds_enterAll (past : List Student) : Holds past (empty.enterAll past) :=
  holds_empty.enterAll past

theorem enterAll_append (r : Register) (first later : List Student) :
    r.enterAll (first ++ later) = (r.enterAll first).enterAll later :=
  List.foldl_append

/-- A student once entered is there for good. -/
theorem get?_enterAll_of_eq_some {r : Register} {id : String} {s : Student}
    (h : r.get? id = some s) (entries : List Student) : (r.enterAll entries).get? id = some s := by
  induction entries generalizing r with
  | nil => exact h
  | cons t rest ih => exact ih (by rw [get?_enter, h, Option.some_or])

theorem Holds.get?_eq_none_iff {past : List Student} {r : Register} (h : Holds past r)
    {id : String} : r.get? id = none ↔ id ∉ past.map Student.id := by
  rw [h id, List.find?_eq_none]
  simp

theorem Holds.contains_iff {past : List Student} {r : Register} (h : Holds past r) {id : String} :
    r.contains id = true ↔ id ∈ past.map Student.id := by
  rw [contains_eq_isSome, Option.isSome_iff_ne_none, ne_eq, h.get?_eq_none_iff, not_not]

theorem Holds.enter_fst {past : List Student} {r : Register} (h : Holds past r) (s : Student) :
    (r.enter s).1 = if s.id ∈ past.map Student.id then .duplicate else .added := by
  rw [Register.enter_fst]
  exact if_congr h.contains_iff rfl rfl

/-- The students of a register stand for the ids under which entries were made. -/
theorem Holds.size_eq {past : List Student} {r : Register} (h : Holds past r) :
    r.size = (past.map Student.id).dedup.length := by
  have hsame : r.records.keys.toFinset = (past.map Student.id).toFinset := by
    ext id
    rw [List.mem_toFinset, List.mem_toFinset, ← h.contains_iff, Register.contains_iff]
  have hcard := congrArg Finset.card hsame
  rw [List.toFinset_card_of_nodup r.distinct, List.card_toFinset] at hcard
  rw [← hcard, Entries.keys, List.length_map, size]

theorem Holds.isEmpty_iff {past : List Student} {r : Register} (h : Holds past r) :
    r.isEmpty = true ↔ past = [] := by
  have hsize : r.isEmpty = true ↔ r.size = 0 := by
    rw [isEmpty, List.isEmpty_iff, size, List.length_eq_zero_iff]
  rw [hsize, h.size_eq, List.length_eq_zero_iff, List.dedup_eq_nil, List.map_eq_nil_iff]

theorem length_outcomes (r : Register) (entries : List Student) :
    (r.outcomes entries).length = entries.length := by
  induction entries generalizing r with
  | nil => rfl
  | cons s rest ih => rw [outcomes, List.length_cons, List.length_cons, ih]

/-- Every new entry makes the register longer by one, and nothing else does. -/
theorem size_enterAll (r : Register) (entries : List Student) :
    (r.enterAll entries).size = r.size + (r.outcomes entries).count .added := by
  induction entries generalizing r with
  | nil => rfl
  | cons s rest ih =>
    have hcons : r.enterAll (s :: rest) = (r.enter s).2.enterAll rest := rfl
    rw [hcons, ih, size_enter, outcomes, Nat.add_assoc, ← List.count_append, List.singleton_append]

theorem Holds.outcomes_getElem? {past : List Student} {r : Register} (h : Holds past r)
    (entries : List Student) (k : Nat) :
    (r.outcomes entries)[k]? = entries[k]?.map fun s =>
      if s.id ∈ (past ++ entries.take k).map Student.id then .duplicate else .added := by
  induction entries generalizing past r k with
  | nil => rfl
  | cons s rest ih =>
    cases k with
    | zero => simp [outcomes, h.enter_fst]
    | succ k =>
      rw [outcomes, List.getElem?_cons_succ, ih (h.enter s) k, List.getElem?_cons_succ,
        List.take_succ_cons, List.append_assoc, List.singleton_append]

/-! ## What a register tells about the entries made in it -/

/-- Outcomes and a register as the entries made one after another call for. -/
structure FirstEntries (entries : List Student) (made : List Entry) (r : Register) : Prop where
  length : made.length = entries.length
  /-- An entry is an addition where no earlier one was made under its id. -/
  added_iff : ∀ k : Fin entries.length,
    made[k.val]? = some .added ↔ entries[k].id ∉ (entries.take k).map Student.id
  get? : ∀ id, r.get? id = entries.find? (·.id = id)
  get?_eq_none_iff : ∀ id, r.get? id = none ↔ id ∉ entries.map Student.id
  contains : ∀ id, r.contains id = (r.get? id).isSome
  /-- What is found under a key has that key as its id. -/
  keyed : ∀ id, ∀ s ∈ r.get? id, s.id = id
  size_eq_ids : r.size = (entries.map Student.id).dedup.length
  size_eq_added : r.size = made.count .added
  isEmpty_iff : r.isEmpty = true ↔ entries = []
  /-- However the students are listed, no two have one id. -/
  distinct : ∀ order, ((r.arranged order).map Student.id).Nodup
  /-- However the students are listed, none is missing and none is made up. -/
  listed : ∀ order s, s ∈ r.arranged order ↔ r.get? s.id = some s

/-- Entries made one after another in a new register leave the first one under each id. -/
theorem first_entry_stands (entries : List Student) :
    FirstEntries entries (empty.outcomes entries) (empty.enterAll entries) := by
  have h := holds_enterAll entries
  refine
    { length := length_outcomes _ _
      added_iff := ?_
      get? := h
      get?_eq_none_iff := fun _ => h.get?_eq_none_iff
      contains := contains_eq_isSome _
      keyed := fun _ _ hs => (get?_eq_some_iff.1 hs).2
      size_eq_ids := h.size_eq
      size_eq_added := ?_
      isEmpty_iff := h.isEmpty_iff
      distinct := nodup_map_id_arranged _
      listed := fun _ _ => mem_arranged_iff }
  · intro k
    rw [holds_empty.outcomes_getElem? entries k, List.getElem?_eq_getElem k.isLt, Option.map_some,
      List.nil_append, Option.some.injEq]
    split
    · next hmem => simpa using hmem
    · next hnot => simpa using hnot
  · rw [size_enterAll]
    exact Nat.zero_add _

end Enrollment.Register
