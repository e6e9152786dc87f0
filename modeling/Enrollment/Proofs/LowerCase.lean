import Enrollment.Proofs.Utf8
import Enrollment.Text.LowerCase

/-!
# What has a plain lower case

Lower case is made by the full Unicode mapping, but it leads into ASCII from
outside in one place only: the Kelvin sign becomes a `k`.  Every other character
outside ASCII leaves one behind (`exists_not_isPlain`).  So a text whose lower
case is ASCII and has no `k` is that ASCII text in some case of letters
(`lower_eq_iff`), and comparing it by the full mapping comes to comparing it by
the mapping of ASCII alone.
-/

namespace Enrollment.Text

def IsAscii (c : Char) : Prop :=
  c.toNat < 0x80

/-- What only ASCII characters become in lower case: ASCII, but for the small letter of the Kelvin
sign. -/
def IsPlain (w : Char) : Prop :=
  IsAscii w ∧ w ≠ 'k'

instance : DecidablePred IsAscii := fun c => inferInstanceAs (Decidable (c.toNat < 0x80))

instance : DecidablePred IsPlain := fun _ => instDecidableAnd

theorem forall_isPlain_of_all {ws : List Char} (h : ws.all fun w => decide (IsPlain w)) :
    ∀ w ∈ ws, IsPlain w :=
  fun w hw => of_decide_eq_true (List.all_eq_true.1 h w hw)

/-! ## Single characters -/

theorem isAscii_of_toLower {c : Char} (h : IsAscii c.toLower) : IsAscii c := by
  unfold Char.toLower at h
  split at h
  · next hc =>
    have hle : c.toNat ≤ 'Z'.toNat := hc.2
    exact Nat.lt_of_le_of_lt hle (by decide)
  · exact h

/-- Only a capital changes in lower case, and it becomes a small letter. -/
theorem toLower_cases (c : Char) : c.toLower = c ∨ 'a'.toNat ≤ c.toLower.toNat := by
  unfold Char.toLower
  split
  · next h =>
    have hfirst : 65 ≤ c.val.toNat := h.1
    have hlast : c.val.toNat ≤ 90 := h.2
    have hsmall : (c.val + 32).toNat = c.val.toNat + 32 := by
      rw [UInt32.toNat_add]
      change (c.val.toNat + 32) % 2 ^ 32 = _
      omega
    have hle : 97 ≤ (c.val + 32).toNat := by omega
    exact .inr hle
  · exact .inl rfl

theorem toLower_of_le {c : Char} (h : 'a'.toNat ≤ c.toNat) : c.toLower = c := by
  refine dif_neg fun hc => ?_
  have hlast : c.toNat ≤ 'Z'.toNat := hc.2
  exact absurd (Nat.le_trans h hlast) (by decide)

theorem toLower_toLower (c : Char) : c.toLower.toLower = c.toLower := by
  rcases toLower_cases c with h | h
  · rw [h, h]
  · exact toLower_of_le h

theorem eq_of_toLower_eq {c w : Char} (h : c.toLower = w) (hw : w.toNat < 'a'.toNat) : c = w := by
  rcases toLower_cases c with hc | hc
  · rw [← hc, h]
  · rw [h] at hc
    exact absurd hw (Nat.not_lt.2 hc)

theorem toLower_of_isDigit {d : Char} (h : d.isDigit = true) : d.toLower = d := by
  have hlast : d.toNat ≤ '9'.toNat := by
    simp only [Char.isDigit, Bool.and_eq_true, decide_eq_true_eq] at h
    exact h.2
  refine dif_neg fun hc => ?_
  have hfirst : 'A'.toNat ≤ d.toNat := hc.1
  exact absurd (Nat.le_trans hfirst hlast) (by decide)

/-- The small letters of a run of capitals lie outside ASCII, unless it is the Kelvin sign's. -/
def CaseRun.LeavesAscii (r : CaseRun) : Prop :=
  0x80 ≤ r.small ∧ (r.small + (r.last - r.first) < 0xD800 ∨
    0xE000 ≤ r.small ∧ r.small + (r.last - r.first) < 0x110000)

instance : DecidablePred CaseRun.LeavesAscii := fun _ => instDecidableAnd

theorem leavesAscii_of_mem_caseRuns :
    ∀ r ∈ caseRuns, r.LeavesAscii ∨ r.apply r.first = 'k' ∧ r.first = r.last := by
  decide +kernel

theorem CaseRun.LeavesAscii.not_isAscii {r : CaseRun} (h : r.LeavesAscii) {n : Nat}
    (hn : r.covers n = true) : ¬ IsAscii (r.apply n) := by
  obtain ⟨hsmall, hvalid⟩ := h
  obtain ⟨hfirst, hlast, -⟩ := of_decide_eq_true hn
  have hn : (r.small + (n - r.first)).isValidChar := by
    rcases hvalid with h | ⟨h₁, h₂⟩
    · exact .inl (by omega)
    · exact .inr ⟨by omega, by omega⟩
  rw [IsAscii, CaseRun.apply, Utf8.toNat_ofNat_of_isValidChar hn]
  omega

theorem lowerChar_of_isAscii {c : Char} (h : IsAscii c) : lowerChar c = [c.toLower] :=
  if_pos h

/-- A character outside ASCII keeps something of it in lower case. -/
theorem exists_not_isPlain {c : Char} (h : ¬ IsAscii c) : ∃ w ∈ lowerChar c, ¬ IsPlain w := by
  have hc : ¬ c.toNat < 0x80 := h
  rw [lowerChar, if_neg hc]
  split
  · exact ⟨'\u0307', by decide, by decide⟩
  split
  · next r hr =>
    refine ⟨_, List.mem_singleton_self _, fun hplain => ?_⟩
    have hcovers : r.covers c.toNat = true := by simpa using List.find?_some hr
    rcases leavesAscii_of_mem_caseRuns r (List.mem_of_find?_eq_some hr) with hr | ⟨hk, hone⟩
    · exact hr.not_isAscii hcovers hplain.1
    · obtain ⟨hfirst, hlast, -⟩ := of_decide_eq_true hcovers
      have hc : c.toNat = r.first := by omega
      exact hplain.2 (hc ▸ hk)
  · exact ⟨c, List.mem_singleton_self _, fun hplain => h hplain.1⟩

/-! ## Texts -/

theorem lowerAfter_of_isAscii {cs : List Char} (h : ∀ c ∈ cs, IsAscii c) (before : List Char) :
    lowerAfter before cs = cs.map Char.toLower := by
  induction cs generalizing before with
  | nil => rfl
  | cons c cs ih =>
    have hc : IsAscii c := h c List.mem_cons_self
    have hsigma : c ≠ '\u03A3' := by
      rintro rfl
      exact absurd hc (by decide)
    rw [lowerAfter, if_neg hsigma, lowerChar_of_isAscii hc,
      ih fun d hd => h d (List.mem_cons_of_mem _ hd)]
    rfl

theorem isAscii_of_lowerAfter {cs before : List Char}
    (h : ∀ w ∈ lowerAfter before cs, IsPlain w) : ∀ c ∈ cs, IsAscii c := by
  induction cs generalizing before with
  | nil => exact fun c hc => absurd hc List.not_mem_nil
  | cons c cs ih =>
    rw [lowerAfter, List.forall_mem_append] at h
    obtain ⟨hc, hcs⟩ := h
    refine List.forall_mem_cons.2 ⟨?_, ih hcs⟩
    split at hc
    · -- Neither small sigma is in ASCII.
      have hsigma := hc _ (List.mem_singleton_self _)
      split at hsigma <;> exact absurd hsigma (by decide)
    · by_cases hascii : IsAscii c
      · exact hascii
      · obtain ⟨w, hw, hplain⟩ := exists_not_isPlain hascii
        exact absurd (hc w hw) hplain

/-- A text is a plain one in lower case exactly if it is this one up to the case of ASCII. -/
theorem lower_eq_iff {cs ws : List Char} (h : ∀ w ∈ ws, IsPlain w) :
    lower cs = ws ↔ cs.map Char.toLower = ws := by
  constructor
  · intro hlower
    rw [← hlower] at h ⊢
    exact (lowerAfter_of_isAscii (isAscii_of_lowerAfter h) []).symm
  · intro hmap
    have hcs : ∀ c ∈ cs, IsAscii c := by
      intro c hc
      have hw : c.toLower ∈ ws := hmap ▸ List.mem_map_of_mem hc
      exact isAscii_of_toLower (h _ hw).1
    rw [← hmap]
    exact lowerAfter_of_isAscii hcs []

end Enrollment.Text
