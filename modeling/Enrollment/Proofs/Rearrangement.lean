import Enrollment.Proofs.FirstEntry

/-!
# Entries made in another order

Entries may change places as long as those under one id keep their order: each of
them then comes to the same, and the students are the same in the end.  What
matters about an entry is only whether it is the first under its id (`IsFirst`);
a rearrangement keeps that (`Rearrangement.isFirst_iff`), and lookups find first
entries (`find?_eq_some_iff_isFirst`).
-/

namespace Enrollment.Register

/-- Two registers have the same students, however these are listed. -/
structure SameStudents (r t : Register) : Prop where
  get? : ∀ id, r.get? id = t.get? id
  size : r.size = t.size
  listed : ∀ order order', (r.arranged order).Perm (t.arranged order')

theorem perm_arranged {r t : Register} (h : ∀ id, r.get? id = t.get? id) (order order' : Order) :
    (r.arranged order).Perm (t.arranged order') := by
  rw [List.perm_ext_iff_of_nodup (r.nodup_map_id_arranged order).of_map
    (t.nodup_map_id_arranged order').of_map]
  intro s
  rw [mem_arranged_iff, mem_arranged_iff, h]

theorem sameStudents_of_get? {r t : Register} (h : ∀ id, r.get? id = t.get? id) :
    SameStudents r t := by
  refine ⟨h, ?_, perm_arranged h⟩
  have hlength := (perm_arranged h .entry .entry).length_eq
  rwa [(r.arranged_perm _).length_eq, (t.arranged_perm _).length_eq, students, students,
    List.length_map, List.length_map] at hlength

/-! ## First entries -/

/-- No entry before the one of this number is under the same id. -/
def IsFirst (entries : List Student) (k : Fin entries.length) : Prop :=
  ∀ i < k, (entries.get i).id ≠ (entries.get k).id

theorem isFirst_iff_not_mem {entries : List Student} {k : Fin entries.length} :
    IsFirst entries k ↔ (entries.get k).id ∉ (entries.take k).map Student.id := by
  rw [IsFirst, List.mem_map]
  constructor
  · rintro h ⟨s, hs, hid⟩
    obtain ⟨i, hi, rfl⟩ := List.mem_take_iff_getElem.1 hs
    have hik : i < k := Nat.lt_of_lt_of_le hi (Nat.min_le_left _ _)
    exact h ⟨i, hik.trans k.isLt⟩ hik hid
  · intro h i hik hid
    apply h
    refine ⟨entries.get i, ?_, hid⟩
    rw [List.mem_take_iff_getElem]
    exact ⟨i, Nat.lt_min.2 ⟨hik, i.isLt⟩, rfl⟩

theorem find?_eq_some_iff_isFirst {entries : List Student} {id : String} {s : Student} :
    entries.find? (·.id = id) = some s ↔
      ∃ k : Fin entries.length, entries.get k = s ∧ s.id = id ∧ IsFirst entries k := by
  rw [List.find?_eq_some_iff_getElem]
  simp only [decide_eq_true_eq, Bool.not_eq_true', decide_eq_false_iff_not]
  constructor
  · rintro ⟨hid, k, hk, rfl, hbefore⟩
    refine ⟨⟨k, hk⟩, rfl, hid, ?_⟩
    intro i hik hsame
    exact hbefore i hik (hsame.trans hid)
  · rintro ⟨k, rfl, hid, hfirst⟩
    refine ⟨hid, k, k.isLt, rfl, ?_⟩
    intro i hik hsame
    exact hfirst ⟨i, hik.trans k.isLt⟩ hik (hsame.trans hid.symm)

/-- Of entries made in a new register the first ones are additions and the others duplicates. -/
theorem outcomes_getElem?_of_isFirst {entries : List Student} (k : Fin entries.length)
    [Decidable (IsFirst entries k)] :
    (empty.outcomes entries)[k.val]? =
      some (if IsFirst entries k then .added else .duplicate) := by
  have hmem : (entries.get k).id ∈ (entries.take k).map Student.id ↔ ¬ IsFirst entries k := by
    rw [isFirst_iff_not_mem, not_not]
  rw [holds_empty.outcomes_getElem?, List.getElem?_eq_getElem k.isLt, Option.map_some,
    List.nil_append, ← List.get_eq_getElem, if_congr hmem rfl rfl, ite_not]

/-! ## Rearrangements -/

/-- The same entries in another order, in which those under one id follow one another as before. -/
structure Rearrangement (entries later : List Student) where
  /-- The number that an entry gets. -/
  move : Fin entries.length ≃ Fin later.length
  same : ∀ k, later.get (move k) = entries.get k
  ordered : ∀ i k, (entries.get i).id = (entries.get k).id → i < k → move i < move k

namespace Rearrangement

variable {entries later : List Student} (ρ : Rearrangement entries later)

theorem lt_of_move_lt {i k : Fin entries.length} (hid : (entries.get i).id = (entries.get k).id)
    (h : ρ.move i < ρ.move k) : i < k := by
  rcases Nat.lt_trichotomy i k with hik | hik | hki
  · exact hik
  · rw [Fin.ext hik] at h
    exact absurd h (Nat.lt_irrefl _)
  · exact absurd h (Nat.lt_asymm (ρ.ordered k i hid.symm hki))

/-- The way back. -/
def symm : Rearrangement later entries where
  move := ρ.move.symm
  same k := by rw [← ρ.same, Equiv.apply_symm_apply]
  ordered i k hid hik := by
    apply ρ.lt_of_move_lt
    · rw [← ρ.same, ← ρ.same, Equiv.apply_symm_apply, Equiv.apply_symm_apply, hid]
    · rwa [Equiv.apply_symm_apply, Equiv.apply_symm_apply]

theorem isFirst_move {k : Fin entries.length} (h : IsFirst entries k) :
    IsFirst later (ρ.move k) := by
  intro j hjk hid
  obtain ⟨i, rfl⟩ := ρ.move.surjective j
  rw [ρ.same, ρ.same] at hid
  exact h i (ρ.lt_of_move_lt hid hjk) hid

theorem isFirst_iff {k : Fin entries.length} : IsFirst later (ρ.move k) ↔ IsFirst entries k := by
  constructor
  · intro h
    have hback := ρ.symm.isFirst_move h
    rwa [symm, Equiv.symm_apply_apply] at hback
  · exact ρ.isFirst_move

include ρ in
theorem find?_eq_some {id : String} {s : Student} (h : entries.find? (·.id = id) = some s) :
    later.find? (·.id = id) = some s := by
  rw [find?_eq_some_iff_isFirst] at h ⊢
  obtain ⟨k, hk, hid, hfirst⟩ := h
  exact ⟨ρ.move k, (ρ.same k).trans hk, hid, ρ.isFirst_move hfirst⟩

include ρ in
theorem find?_eq (id : String) : entries.find? (·.id = id) = later.find? (·.id = id) := by
  apply Option.ext
  intro s
  exact ⟨ρ.find?_eq_some, ρ.symm.find?_eq_some⟩

end Rearrangement

/-! ## What makes the students the same -/

/-- The first entries under each id agree in what they say of the student. -/
def FirstEntriesAgree (entries later : List Student) : Prop :=
  ∀ id, ∀ s ∈ entries.find? (·.id = id), ∀ t ∈ later.find? (·.id = id),
    s.name = t.name ∧ s.age = t.age

theorem mem_map_id_iff {entries : List Student} {id : String} :
    id ∈ entries.map Student.id ↔ ∃ s, entries.find? (·.id = id) = some s := by
  rw [← Option.isSome_iff_exists, List.find?_isSome, List.mem_map]
  simp only [decide_eq_true_eq]

section Agree

variable {entries later : List Student}

theorem FirstEntriesAgree.symm (h : FirstEntriesAgree entries later) :
    FirstEntriesAgree later entries := by
  intro id s hs t ht
  obtain ⟨hname, hage⟩ := h id t ht s hs
  exact ⟨hname.symm, hage.symm⟩

theorem FirstEntriesAgree.find?_eq_some (h : FirstEntriesAgree entries later)
    (hids : ∀ id, id ∈ entries.map Student.id → id ∈ later.map Student.id) {id : String}
    {s : Student} (hs : entries.find? (·.id = id) = some s) :
    later.find? (·.id = id) = some s := by
  obtain ⟨t, ht⟩ := mem_map_id_iff.1 (hids id (mem_map_id_iff.2 ⟨s, hs⟩))
  obtain ⟨hname, hage⟩ := h id s hs t ht
  have hid : t.id = s.id := by
    have hsid := List.find?_some hs
    have htid := List.find?_some ht
    rw [decide_eq_true_eq] at hsid htid
    rw [hsid, htid]
  obtain rfl : t = s := by
    cases s
    cases t
    cases hid
    cases hname
    cases hage
    rfl
  exact ht

theorem find?_eq_iff :
    (∀ id, entries.find? (·.id = id) = later.find? (·.id = id)) ↔
      (∀ id, id ∈ entries.map Student.id ↔ id ∈ later.map Student.id) ∧
        FirstEntriesAgree entries later := by
  constructor
  · intro h
    constructor
    · intro id
      rw [mem_map_id_iff, mem_map_id_iff, h]
    · intro id s hs t ht
      rw [Option.mem_def, h] at hs
      obtain rfl : s = t := Option.mem_unique hs ht
      exact ⟨rfl, rfl⟩
  · rintro ⟨hids, hagree⟩ id
    apply Option.ext
    intro s
    exact ⟨hagree.find?_eq_some fun id => (hids id).1,
      hagree.symm.find?_eq_some fun id => (hids id).2⟩

end Agree

theorem sameStudents_enterAll_iff {entries later : List Student} :
    SameStudents (empty.enterAll entries) (empty.enterAll later) ↔
      ∀ id, entries.find? (·.id = id) = later.find? (·.id = id) := by
  constructor
  · intro h id
    rw [← holds_enterAll entries id, ← holds_enterAll later id]
    exact h.get? id
  · intro h
    apply sameStudents_of_get?
    intro id
    rw [holds_enterAll entries id, holds_enterAll later id]
    exact h id

/-- Entries that are rearranged leave the same students, and each of them comes to the same.  Any
two runs of entries leave the same students exactly if they are under the same ids and the first
ones under each id agree. -/
theorem rearranged_entries (entries later : List Student) :
    (∀ ρ : Rearrangement entries later,
      SameStudents (empty.enterAll entries) (empty.enterAll later) ∧
      ∀ k, (empty.outcomes later)[(ρ.move k).val]? = (empty.outcomes entries)[k.val]?) ∧
    (SameStudents (empty.enterAll entries) (empty.enterAll later) ↔
      (∀ id, id ∈ entries.map Student.id ↔ id ∈ later.map Student.id) ∧
        FirstEntriesAgree entries later) := by
  classical
  refine ⟨?_, ?_⟩
  · intro ρ
    refine ⟨sameStudents_enterAll_iff.2 ρ.find?_eq, ?_⟩
    intro k
    rw [outcomes_getElem?_of_isFirst, outcomes_getElem?_of_isFirst]
    exact congrArg some (if_congr ρ.isFirst_iff rfl rfl)
  · rw [sameStudents_enterAll_iff, find?_eq_iff]

/-- Two entries under different ids change places, and another under the id of the first stays behind
it.  In front of it, it would leave other students. -/
theorem rearranged_entries_two_ids :
    let a : Student := ⟨"1", "A", 20⟩
    let b : Student := ⟨"2", "B", 21⟩
    let c : Student := ⟨"1", "C", 22⟩
    (∃ ρ : Rearrangement [a, b, c] [b, a, c], ρ.move 0 = 1 ∧ ρ.move 1 = 0 ∧
      SameStudents (empty.enterAll [a, b, c]) (empty.enterAll [b, a, c]) ∧
      (empty.outcomes [b, a, c])[(ρ.move 2).val]? = some .duplicate) ∧
    ¬ SameStudents (empty.enterAll [a, b, c]) (empty.enterAll [c, b, a]) := by
  intro a b c
  let ρ : Rearrangement [a, b, c] [b, a, c] :=
    { move := Equiv.swap (0 : Fin 3) 1, same := by decide, ordered := by decide }
  obtain ⟨hsame, houtcomes⟩ := (rearranged_entries _ _).1 ρ
  refine ⟨⟨ρ, rfl, rfl, hsame, (houtcomes 2).trans (by decide)⟩, fun h => ?_⟩
  have hagree := ((rearranged_entries _ _).2.1 h).2 "1" a rfl c rfl
  exact absurd hagree.1 (by decide)

end Enrollment.Register
