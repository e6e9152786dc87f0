import Enrollment.Proofs.LowerCase
import Enrollment.Proofs.Precedence

/-!
# How the variables of the settings are named

A variable sets the key that its name, in lower case and without its beginning,
is a spelling of: dots stand for themselves, and so do pairs of underscores for
dots.  A key with a single dot therefore has two spellings at most
(`eq_of_keyOfName_eq`), and since the keys of the two settings have plain letters
only, no case but that of ASCII letters plays a part: each setting has two names
and no other (`sets_leafKey_iff`).
-/

namespace Enrollment.Environment

open Settings (Setting leafKey)
open Text (IsAscii IsPlain)

/-! ## Spellings of a key -/

theorem eq_nil_of_keyOfName {n : List Char} (h : keyOfName n = []) : n = [] := by
  unfold keyOfName at h
  split at h
  · cases h
  · cases h
  · rfl

/-- A dot in a key comes from a dot or from two underscores. -/
theorem exists_of_keyOfName_dot {n w : List Char} (h : keyOfName n = '.' :: w) :
    ∃ r, keyOfName r = w ∧ (n = '.' :: r ∨ n = '_' :: '_' :: r) := by
  unfold keyOfName at h
  split at h
  · next r =>
    obtain ⟨-, hr⟩ := List.cons.inj h
    exact ⟨r, hr, .inr rfl⟩
  · next c r _ =>
    obtain ⟨rfl, hr⟩ := List.cons.inj h
    exact ⟨r, hr, .inl rfl⟩
  · cases h

/-- Any other character of a key comes from itself. -/
theorem exists_of_keyOfName_cons {n w : List Char} {c : Char} (hc : c ≠ '.')
    (h : keyOfName n = c :: w) : ∃ r, keyOfName r = w ∧ n = c :: r := by
  unfold keyOfName at h
  split at h
  · exact absurd (List.cons.inj h).1.symm hc
  · next d r _ =>
    obtain ⟨rfl, hr⟩ := List.cons.inj h
    exact ⟨r, hr, rfl⟩
  · cases h

/-- Up to the first dot of a key, its spellings are as the key is. -/
theorem exists_of_keyOfName_append {n a w : List Char} (ha : '.' ∉ a)
    (h : keyOfName n = a ++ w) : ∃ r, keyOfName r = w ∧ n = a ++ r := by
  induction a generalizing n with
  | nil => exact ⟨n, h, rfl⟩
  | cons c a ih =>
    rw [List.mem_cons, not_or] at ha
    obtain ⟨hc, ha⟩ := ha
    obtain ⟨r, hr, rfl⟩ := exists_of_keyOfName_cons (Ne.symm hc) h
    obtain ⟨s, hs, rfl⟩ := ih ha hr
    exact ⟨s, hs, rfl⟩

/-- A key with one dot is spelled with a dot or with two underscores in its place. -/
theorem eq_of_keyOfName_eq {n a b : List Char} (ha : '.' ∉ a) (hb : '.' ∉ b)
    (h : keyOfName n = a ++ '.' :: b) : n = a ++ '.' :: b ∨ n = a ++ '_' :: '_' :: b := by
  obtain ⟨r, hr, rfl⟩ := exists_of_keyOfName_append ha h
  obtain ⟨s, hs, hdot⟩ := exists_of_keyOfName_dot hr
  obtain ⟨t, ht, rfl⟩ := exists_of_keyOfName_append (w := []) hb (by rw [hs, List.append_nil])
  rw [eq_nil_of_keyOfName ht, List.append_nil] at hdot
  rcases hdot with rfl | rfl
  · exact .inl rfl
  · exact .inr rfl

/-! ## The key that a name sets -/

/-- A variable of this name puts its value under the key, in whatever environment it stands. -/
def Sets (name : Bytes) (k : String) : Prop :=
  ∀ es cs env, layerFrom es ((name, Utf8.encode cs) :: env) =
    layerFrom (Entries.put k (value cs) es) env

theorem sets_iff {name : Bytes} {k : String} : Sets name k ↔ ∃ n, Names name n ∧ keyOf n = k := by
  constructor
  · intro h
    have hone := h [] [] []
    rcases variable_cases (name, Utf8.encode []) with hv | ⟨n, cs, hn, hcs⟩ | ⟨-, hv⟩
    · rw [layerFrom_cons_of_not_names [] [] hv] at hone
      cases hone
    · rw [layerFrom_cons_of_text [] [] hn hcs] at hone
      refine ⟨n, hn, ?_⟩
      simp only [layerFrom, Entries.put, Except.ok.injEq, List.cons.injEq, Prod.mk.injEq,
        and_true] at hone
      exact hone.1
    · exact absurd ⟨[], rfl⟩ hv
  · rintro ⟨n, hn, rfl⟩ es cs env
    exact layerFrom_cons_of_text es env hn rfl

theorem names_bytesOf_iff {name : String} {n : List Char} :
    Names (bytesOf name) n ↔ Text.lower name.toList = start ++ n := by
  constructor
  · rintro ⟨cs, hcs, hlower⟩
    have hname : cs = name.toList := by
      rw [← Utf8.decodeLossy_encode cs, hcs]
      exact Utf8.decodeLossy_encode name.toList
    rwa [← hname]
  · intro h
    exact ⟨name.toList, rfl, h⟩

/-! ## The names of the settings -/

/-- What stands in a name for the dot of its key. -/
inductive IsSeparator : List Char → Prop where
  | underscores : IsSeparator ['_', '_']
  | dot : IsSeparator ['.']

/-- The name of a setting's variable in lower case, with this before the key of the setting. -/
def lowerName (separator : List Char) (s : Setting) : List Char :=
  "roster_output".toList ++ (separator ++ s.key.toList)

theorem lowerName_inj {a b : List Char} {s : Setting} (h : lowerName a s = lowerName b s) : a = b :=
  List.append_cancel_right (List.append_cancel_left h)

theorem lowerName_eq_start_append (separator : List Char) (s : Setting) :
    lowerName separator s = start ++ ("output".toList ++ (separator ++ s.key.toList)) :=
  rfl

theorem IsSeparator.isPlain_lowerName {separator : List Char} (h : IsSeparator separator)
    (s : Setting) : ∀ c ∈ lowerName separator s, IsPlain c := by
  apply Text.forall_isPlain_of_all
  cases h <;> cases s <;> decide +kernel

theorem IsSeparator.keyOf_eq {separator : List Char} (h : IsSeparator separator) (s : Setting) :
    keyOf ("output".toList ++ (separator ++ s.key.toList)) = leafKey s := by
  cases h <;> cases s <;> decide

/-- A key of a setting is spelled with a separator for its dot. -/
theorem exists_of_keyOf_eq_leafKey {s : Setting} {n : List Char} (h : keyOf n = leafKey s) :
    ∃ separator, IsSeparator separator ∧ n = "output".toList ++ (separator ++ s.key.toList) := by
  have hkey : keyOfName n = "output".toList ++ '.' :: s.key.toList := by
    have hleaf : (leafKey s).toList = "output".toList ++ '.' :: s.key.toList := by
      cases s <;> decide
    rw [← hleaf, ← h, keyOf, String.toList_ofList]
  have hdot : '.' ∉ s.key.toList := by cases s <;> decide
  rcases eq_of_keyOfName_eq (by decide) hdot hkey with rfl | rfl
  · exact ⟨_, .dot, rfl⟩
  · exact ⟨_, .underscores, rfl⟩

theorem sets_leafKey_iff_map {s : Setting} {name : String} :
    Sets (bytesOf name) (leafKey s) ↔
      ∃ separator, IsSeparator separator ∧
        name.toList.map Char.toLower = lowerName separator s := by
  rw [sets_iff]
  constructor
  · rintro ⟨n, hn, hk⟩
    obtain ⟨separator, hseparator, rfl⟩ := exists_of_keyOf_eq_leafKey hk
    rw [names_bytesOf_iff, ← lowerName_eq_start_append,
      Text.lower_eq_iff (hseparator.isPlain_lowerName s)] at hn
    exact ⟨separator, hseparator, hn⟩
  · rintro ⟨separator, hseparator, hname⟩
    rw [← Text.lower_eq_iff (hseparator.isPlain_lowerName s), lowerName_eq_start_append] at hname
    exact ⟨_, names_bytesOf_iff.2 hname, hseparator.keyOf_eq s⟩

/-- Two texts are equal up to the case of ASCII letters. -/
def EqUpToCase (a b : String) : Prop :=
  a.toList.map Char.toLower = b.toList.map Char.toLower

/-- What the variable of a setting may be named. -/
def namesOf : Setting → List String
  | .header => ["ROSTER_OUTPUT__HEADER", "ROSTER_OUTPUT.HEADER"]
  | .announceAdditions => ["ROSTER_OUTPUT__ANNOUNCE_ADDITIONS", "ROSTER_OUTPUT.ANNOUNCE_ADDITIONS"]

theorem exists_namesOf_iff {s : Setting} {name : String} :
    (∃ w ∈ namesOf s, EqUpToCase name w) ↔
      ∃ separator, IsSeparator separator ∧
        name.toList.map Char.toLower = lowerName separator s := by
  have hlower : ∀ s : Setting, (namesOf s).map (fun w => w.toList.map Char.toLower) =
      [lowerName ['_', '_'] s, lowerName ['.'] s] := by
    rintro (_ | _) <;> decide
  have hmem : (∃ w ∈ namesOf s, EqUpToCase name w) ↔
      name.toList.map Char.toLower ∈ (namesOf s).map fun w => w.toList.map Char.toLower := by
    simp only [List.mem_map, EqUpToCase, eq_comm]
  rw [hmem, hlower, List.mem_cons, List.mem_singleton]
  constructor
  · rintro (h | h)
    · exact ⟨_, .underscores, h⟩
    · exact ⟨_, .dot, h⟩
  · rintro ⟨separator, hseparator, h⟩
    cases hseparator with
    | underscores => exact .inl h
    | dot => exact .inr h

/-- A variable sets one of the two settings exactly if its name is one of those of the setting up to
the case of ASCII letters.  So a name that does is ASCII, begins as those of variables that count
do, and if it has underscores alone before the key of the setting it has two of them. -/
theorem sets_leafKey_iff (s : Setting) (name : String) :
    (Sets (bytesOf name) (leafKey s) ↔ ∃ w ∈ namesOf s, EqUpToCase name w) ∧
    (Sets (bytesOf name) (leafKey s) → ∀ c ∈ name.toList, IsAscii c) ∧
    (Sets (bytesOf name) (leafKey s) → start <+: name.toList.map Char.toLower) ∧
    ∀ k, name.toList.map Char.toLower = lowerName (List.replicate k '_') s →
      (Sets (bytesOf name) (leafKey s) ↔ k = 2) := by
  rw [exists_namesOf_iff, sets_leafKey_iff_map]
  refine ⟨Iff.rfl, ?_, ?_, ?_⟩
  · rintro ⟨separator, hseparator, hname⟩ c hc
    have hlower : c.toLower ∈ lowerName separator s := hname ▸ List.mem_map_of_mem hc
    exact Text.isAscii_of_toLower (hseparator.isPlain_lowerName s _ hlower).1
  · rintro ⟨separator, -, hname⟩
    exact ⟨_, hname.symm⟩
  · intro k hname
    rw [hname]
    constructor
    · rintro ⟨separator, hseparator, hk⟩
      have hunderscores : List.replicate k '_' = separator := lowerName_inj hk
      cases hseparator with
      | underscores => simpa using congrArg List.length hunderscores
      | dot =>
        have hdot : '.' ∈ List.replicate k '_' := hunderscores ▸ List.mem_singleton_self '.'
        exact absurd (List.eq_of_mem_replicate hdot) (by decide)
    · rintro rfl
      exact ⟨_, .underscores, rfl⟩

end Enrollment.Environment
