/-!
# Entries of a table

A table is a list of keys with their values, in the order in which the keys
came in.  Putting a value under a key that is there replaces the value where it
stands, so a key never occurs twice in what `put` builds.
-/

namespace Enrollment

/-- Keys with their values, in order of arrival. -/
abbrev Entries (α : Type) := List (String × α)

namespace Entries

variable {α : Type}

def get? (k : String) : Entries α → Option α
  | [] => none
  | (j, a) :: es => if j = k then some a else get? k es

/-- Puts a value under a key, in place of the one that is there. -/
def put (k : String) (a : α) : Entries α → Entries α
  | [] => [(k, a)]
  | (j, b) :: es => if j = k then (k, a) :: es else (j, b) :: put k a es

@[simp]
theorem get?_put_self (k : String) (a : α) (es : Entries α) : get? k (put k a es) = some a := by
  induction es with
  | nil => simp [put, get?]
  | cons e es ih =>
    obtain ⟨j, b⟩ := e
    by_cases h : j = k <;> simp [put, get?, h, ih]

theorem get?_put_of_ne {j k : String} (h : j ≠ k) (a : α) (es : Entries α) :
    get? j (put k a es) = get? j es := by
  induction es with
  | nil => simp [put, get?, h.symm]
  | cons e es ih =>
    obtain ⟨i, b⟩ := e
    by_cases hi : i = k
    · subst hi
      simp [put, get?, h.symm]
    · simp [put, get?, hi, ih]

/-- The keys, in order of arrival. -/
def keys (es : Entries α) : List String :=
  es.map Prod.fst

theorem put_of_not_mem {k : String} {es : Entries α} (h : k ∉ keys es) (a : α) :
    put k a es = es ++ [(k, a)] := by
  induction es with
  | nil => rfl
  | cons e es ih =>
    obtain ⟨j, b⟩ := e
    simp only [keys, List.map_cons, List.mem_cons, not_or] at h
    simp only [put, if_neg (Ne.symm h.1), List.cons_append]
    rw [ih h.2]

/-- Putting under a key that is there leaves the keys as they are. -/
theorem keys_put_of_mem {k : String} {es : Entries α} (h : k ∈ keys es) (a : α) :
    keys (put k a es) = keys es := by
  induction es with
  | nil => cases h
  | cons e es ih =>
    obtain ⟨j, b⟩ := e
    by_cases hj : j = k
    · subst hj
      simp [put, keys]
    · have hk : k ∈ keys es := by simpa [keys, Ne.symm hj] using h
      have ih' := ih hk
      simp only [keys] at ih' ⊢
      simp [put, hj, ih']

theorem nodup_keys_put {k : String} {es : Entries α} (h : (keys es).Nodup) (a : α) :
    (keys (put k a es)).Nodup := by
  by_cases hk : k ∈ keys es
  · rwa [keys_put_of_mem hk]
  · rw [put_of_not_mem hk, keys, List.map_append, List.nodup_append]
    refine ⟨h, by simp, fun i hi j hj hij => hk ?_⟩
    have hjk : j = k := List.mem_singleton.1 hj
    rwa [← hjk, ← hij]

theorem mem_of_mem_put {k : String} {a : α} {es : Entries α} {e : String × α}
    (h : e ∈ put k a es) : e = (k, a) ∨ e ∈ es := by
  induction es with
  | nil => exact Or.inl (List.mem_singleton.1 h)
  | cons d es ih =>
    obtain ⟨j, b⟩ := d
    by_cases hj : j = k
    · simp only [put, hj, ite_true, List.mem_cons] at h
      exact h.imp id (List.mem_cons_of_mem _)
    · simp only [put, hj, ite_false, List.mem_cons] at h
      rcases h with h | h
      · exact Or.inr (h ▸ List.mem_cons_self)
      · exact (ih h).imp id (List.mem_cons_of_mem _)

/-- A key leads to a value exactly where the two stand side by side, if no key comes twice. -/
theorem get?_eq_some_iff {k : String} {a : α} {es : Entries α} (h : (keys es).Nodup) :
    get? k es = some a ↔ (k, a) ∈ es := by
  induction es with
  | nil => simp [get?]
  | cons e es ih =>
    obtain ⟨j, b⟩ := e
    simp only [keys, List.map_cons, List.nodup_cons] at h
    by_cases hj : j = k
    · subst hj
      have hno : (j, a) ∉ es := fun hm => h.1 (List.mem_map_of_mem (f := Prod.fst) hm)
      simp [get?, hno, eq_comm]
    · rw [get?, if_neg hj, ih h.2]
      simp [Ne.symm hj]

/-- The order of entries does not matter if no key comes twice. -/
theorem get?_eq_of_perm {es fs : Entries α} (hes : (keys es).Nodup) (h : fs.Perm es) (k : String) :
    get? k fs = get? k es := by
  have hfs : (keys fs).Nodup := (h.map Prod.fst).nodup_iff.2 hes
  refine Option.ext fun a => ?_
  rw [get?_eq_some_iff hfs, get?_eq_some_iff hes, h.mem_iff]

theorem get?_eq_none_iff {k : String} {es : Entries α} : get? k es = none ↔ k ∉ keys es := by
  induction es with
  | nil => simp [get?, keys]
  | cons e es ih =>
    obtain ⟨j, b⟩ := e
    by_cases hj : j = k
    · simp [get?, keys, hj]
    · rw [get?, if_neg hj, ih]
      simp [keys, Ne.symm hj]

end Entries

end Enrollment
