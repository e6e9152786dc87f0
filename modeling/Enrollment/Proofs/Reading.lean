import Enrollment.Settings.Reading
import Mathlib.Data.List.Basic

/-!
# What can be read as settings

Which values are texts and which are switches is said here once more, as
relations between a value and what it is read as.  `read_eq_ok_iff` says that
reading goes by them, so that a tree can be read exactly if it is `Readable`;
where it cannot, the failure is about a value (`isOfValue_of_read_eq_error`).
-/

namespace Enrollment

section Bind

variable {ε α β : Type} {x : Except ε α} {f : α → Except ε β}

theorem bind_eq_ok_iff {b : β} : (x >>= f) = .ok b ↔ ∃ a, x = .ok a ∧ f a = .ok b := by
  cases x with
  | error e =>
    constructor
    · intro h
      cases h
    · rintro ⟨a, h, -⟩
      cases h
  | ok a =>
    constructor
    · intro h
      exact ⟨a, rfl, h⟩
    · rintro ⟨a', h, hf⟩
      cases h
      exact hf

theorem bind_eq_error_iff {e : ε} :
    (x >>= f) = .error e ↔ x = .error e ∨ ∃ a, x = .ok a ∧ f a = .error e := by
  cases x with
  | error d =>
    constructor
    · intro h
      cases h
      exact .inl rfl
    · rintro (h | ⟨a, h, -⟩)
      · cases h
        rfl
      · cases h
  | ok a =>
    constructor
    · intro h
      exact .inr ⟨a, rfl, h⟩
    · rintro (h | ⟨a', h, hf⟩)
      · cases h
      · cases h
        exact hf

end Bind

namespace Settings

/-- A value is read as a text. -/
inductive IsText : Value → String → Prop where
  | text (o : Origin) (s : String) : IsText (.leaf o (.text s)) s
  | boolean (o : Origin) (b : Bool) : IsText (.leaf o (.boolean b)) (if b then "true" else "false")
  | integer (o : Origin) (n : Int) : IsText (.leaf o (.integer n)) (toString n)
  | float (o : Origin) (x : Binary64) : IsText (.leaf o (.float x)) (String.ofList x.text)

/-- A value is read as a switch. -/
inductive IsSwitch : Value → Bool → Prop where
  | boolean (o : Origin) (b : Bool) : IsSwitch (.leaf o (.boolean b)) b
  | integer (o : Origin) (n : Int) : IsSwitch (.leaf o (.integer n)) (decide (n ≠ 0))
  | float (o : Origin) (x : Binary64) : IsSwitch (.leaf o (.float x)) (!x.isZero)
  | on (o : Origin) {s : String} (h : String.ofList (Text.lower s.toList) ∈ onWords) :
      IsSwitch (.leaf o (.text s)) true
  | off (o : Origin) {s : String} (h : String.ofList (Text.lower s.toList) ∈ offWords) :
      IsSwitch (.leaf o (.text s)) false

/-- What there may be is read as something, or its standard holds. -/
inductive Given {α : Type} (R : Value → α → Prop) (standard : α) : Option Value → α → Prop where
  | missing : Given R standard none standard
  | given {v : Value} {a : α} (h : R v a) : Given R standard (some v) a

/-- A value is read as settings: a table by key, a list by place. -/
inductive Reads : Value → Settings → Prop where
  | table {o : Origin} {es : Entries Value} {s : Settings}
      (header : Given IsText standard.header (Entries.get? "header" es) s.header)
      (announce : Given IsSwitch standard.announceAdditions (Entries.get? "announce_additions" es)
        s.announceAdditions) : Reads (.table o es) s
  | list {o : Origin} {ts : List Value} {s : Settings}
      (header : Given IsText standard.header ts[0]? s.header)
      (announce : Given IsSwitch standard.announceAdditions ts[1]? s.announceAdditions) :
      Reads (.list o ts) s

/-- A value can be read as settings. -/
def Readable (v : Value) : Prop :=
  ∃ s, Reads v s

/-- The failure is about a value that was gathered. -/
def Failure.IsOfValue : Failure → Prop
  | .unparsed _ => False
  | .undecodable _ _ => False
  | .misshapen _ => True
  | .mistyped _ _ _ => True

/-! ## Single values -/

theorem readText_eq_ok_iff {v : Value} {s : String} : readText v = .ok s ↔ IsText v s := by
  constructor
  · intro h
    unfold readText at h
    split at h
    · cases h
      exact .text _ _
    · cases h
      exact .boolean _ _
    · cases h
      exact .integer _ _
    · cases h
      exact .float _ _
    · cases h
  · intro h
    cases h <;> rfl

theorem not_mem_offWords {w : String} (h : w ∈ onWords) : w ∉ offWords := by
  simp only [onWords, List.mem_cons, List.not_mem_nil, or_false] at h
  rcases h with rfl | rfl | rfl | rfl <;> decide

theorem readWord_eq_ok_iff {o : Origin} {s : String} {b : Bool} :
    readWord s = .ok b ↔ IsSwitch (.leaf o (.text s)) b := by
  constructor
  · intro h
    unfold readWord at h
    dsimp only at h
    split at h
    · next hon =>
      cases h
      exact .on o hon
    · split at h
      · next hoff =>
        cases h
        exact .off o hoff
      · cases h
  · intro h
    cases h with
    | on _ hon => exact if_pos hon
    | off _ hoff =>
      have hon : String.ofList (Text.lower s.toList) ∉ onWords := fun hon => not_mem_offWords hon hoff
      exact (if_neg hon).trans (if_pos hoff)

theorem readSwitch_eq_ok_iff {v : Value} {b : Bool} : readSwitch v = .ok b ↔ IsSwitch v b := by
  constructor
  · intro h
    unfold readSwitch at h
    split at h
    · cases h
      exact .boolean _ _
    · cases h
      exact .integer _ _
    · cases h
      exact .float _ _
    · exact readWord_eq_ok_iff.1 h
    · cases h
  · intro h
    cases h with
    | boolean | integer | float => rfl
    | on o hon => exact readWord_eq_ok_iff.2 (.on o hon)
    | off o hoff => exact readWord_eq_ok_iff.2 (.off o hoff)

/-! ## Settings -/

theorem readAt_eq_ok_iff {α : Type} {read : Value → Except Found α} {R : Value → α → Prop}
    (hread : ∀ v a, read v = .ok a ↔ R v a) {standard a : α} (position : Position)
    {v : Option Value} : readAt read standard position v = .ok a ↔ Given R standard v a := by
  cases v with
  | none =>
    constructor
    · intro h
      cases h
      exact .missing
    · intro h
      cases h
      rfl
  | some v =>
    constructor
    · intro h
      cases hv : read v with
      | ok b =>
        rw [readAt, hv] at h
        cases h
        exact .given ((hread v a).1 hv)
      | error found =>
        rw [readAt, hv] at h
        cases h
    · intro h
      cases h with
      | given h => rw [readAt, (hread v a).2 h]; rfl

theorem given_some_iff {α : Type} {R : Value → α → Prop} {standard a : α} {v : Value} :
    Given R standard (some v) a ↔ R v a := by
  constructor
  · rintro ⟨⟩
    assumption
  · exact .given

theorem readBoth_eq_ok_iff {first : Setting} {position : Setting → Position}
    {value : Setting → Option Value} {s : Settings} : readBoth first position value = .ok s ↔
      Given IsText standard.header (value .header) s.header ∧
      Given IsSwitch standard.announceAdditions (value .announceAdditions) s.announceAdditions := by
  rw [← readAt_eq_ok_iff (fun _ _ => readText_eq_ok_iff) (position .header),
    ← readAt_eq_ok_iff (fun _ _ => readSwitch_eq_ok_iff) (position .announceAdditions)]
  cases first with
  | header =>
    constructor
    · intro h
      obtain ⟨header, hheader, h⟩ := bind_eq_ok_iff.1 h
      obtain ⟨announced, hannounced, h⟩ := bind_eq_ok_iff.1 h
      cases h
      exact ⟨hheader, hannounced⟩
    · rintro ⟨hheader, hannounced⟩
      exact bind_eq_ok_iff.2 ⟨_, hheader, bind_eq_ok_iff.2 ⟨_, hannounced, rfl⟩⟩
  | announceAdditions =>
    constructor
    · intro h
      obtain ⟨announced, hannounced, h⟩ := bind_eq_ok_iff.1 h
      obtain ⟨header, hheader, h⟩ := bind_eq_ok_iff.1 h
      cases h
      exact ⟨hheader, hannounced⟩
    · rintro ⟨hheader, hannounced⟩
      exact bind_eq_ok_iff.2 ⟨_, hannounced, bind_eq_ok_iff.2 ⟨_, hheader, rfl⟩⟩

/-- Reading goes by what values are read as, whichever setting is read first. -/
theorem read_eq_ok_iff {first : Setting} {v : Value} {s : Settings} :
    read first v = .ok s ↔ Reads v s := by
  cases v with
  | leaf o x =>
    constructor
    · intro h
      cases h
    · intro h
      cases h
  | list o ts =>
    rw [read, readBoth_eq_ok_iff]
    constructor
    · rintro ⟨hheader, hannounce⟩
      exact .list hheader hannounce
    · rintro (_ | ⟨hheader, hannounce⟩)
      exact ⟨hheader, hannounce⟩
  | table o es =>
    rw [read, readBoth_eq_ok_iff]
    constructor
    · rintro ⟨hheader, hannounce⟩
      exact .table hheader hannounce
    · rintro (⟨hheader, hannounce⟩ | _)
      exact ⟨hheader, hannounce⟩

theorem read_isOk_iff {first : Setting} {v : Value} : (∃ s, read first v = .ok s) ↔ Readable v :=
  exists_congr fun _ => read_eq_ok_iff

/-- Settings that cannot be read fail at one of the two. -/
theorem readAt_of_readBoth_eq_error {first : Setting} {position : Setting → Position}
    {value : Setting → Option Value} {f : Failure} (h : readBoth first position value = .error f) :
    readAt readText standard.header (position .header) (value .header) = .error f ∨
      readAt readSwitch standard.announceAdditions (position .announceAdditions)
        (value .announceAdditions) = .error f := by
  cases first with
  | header =>
    rcases bind_eq_error_iff.1 h with h | ⟨header, -, h⟩
    · exact .inl h
    rcases bind_eq_error_iff.1 h with h | ⟨announced, -, h⟩
    · exact .inr h
    · cases h
  | announceAdditions =>
    rcases bind_eq_error_iff.1 h with h | ⟨announced, -, h⟩
    · exact .inr h
    rcases bind_eq_error_iff.1 h with h | ⟨header, -, h⟩
    · exact .inl h
    · cases h

theorem isOfValue_of_readAt_eq_error {α : Type} {read : Value → Except Found α} {standard : α}
    {position : Position} {v : Option Value} {f : Failure}
    (h : readAt read standard position v = .error f) : f.IsOfValue := by
  cases v with
  | none => cases h
  | some v =>
    rw [readAt] at h
    cases hv : read v with
    | ok a =>
      rw [hv] at h
      cases h
    | error found =>
      rw [hv] at h
      cases h
      exact trivial

theorem isOfValue_of_readBoth_eq_error {first : Setting} {position : Setting → Position}
    {value : Setting → Option Value} {f : Failure} (h : readBoth first position value = .error f) :
    f.IsOfValue := by
  rcases readAt_of_readBoth_eq_error h with h | h
  · exact isOfValue_of_readAt_eq_error h
  · exact isOfValue_of_readAt_eq_error h

theorem isOfValue_of_read_eq_error {first : Setting} {v : Value} {f : Failure}
    (h : read first v = .error f) : f.IsOfValue := by
  cases v with
  | leaf o x =>
    cases h
    exact trivial
  | list o ts =>
    rw [read] at h
    exact isOfValue_of_readBoth_eq_error h
  | table o es =>
    rw [read] at h
    exact isOfValue_of_readBoth_eq_error h

end Settings

end Enrollment
