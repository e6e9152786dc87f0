import Enrollment.Proofs.NumberText
import Enrollment.Settings.Environment

/-!
# What the text of a variable is taken for

The text of a variable is taken for a boolean or a number where it is written as
one, and else for itself (`scalarOfText_cases`).  Of the words that can switch
something on or off, two are booleans; the others are mere texts, in any case of
letters (`scalarOfText_of_mem_wordsFor`).
-/

namespace Enrollment.Environment

open Decimal (IsNumeral fitsWord word? word?_eq_some_iff)
open Binary64 (IsNumber exists_parse?_iff)
open Text (IsPlain forall_isPlain_of_all lower lower_eq_iff)

/-- How a boolean is written. -/
def wordOf (b : Bool) : String :=
  if b then "true" else "false"

/-- A text is written neither as a boolean, in any case of letters, nor as a number. -/
structure IsMere (cs : List Char) : Prop where
  boolean : ∀ b, lower cs ≠ (wordOf b).toList
  integer : ∀ n, IsNumeral cs n → fitsWord n = false
  number : ¬ IsNumber cs

theorem isPlain_wordOf (b : Bool) : ∀ c ∈ (wordOf b).toList, IsPlain c := by
  apply forall_isPlain_of_all
  cases b <;> decide +kernel

theorem scalarOfText_of_boolean {cs : List Char} {b : Bool} (h : lower cs = (wordOf b).toList) :
    scalarOfText cs = .boolean b := by
  cases b with
  | true => exact if_pos h
  | false =>
    have hne : lower cs ≠ "true".toList := by
      rw [h]
      decide
    exact (if_neg hne).trans (if_pos h)

theorem scalarOfText_of_not_boolean {cs : List Char} (h : ∀ b, lower cs ≠ (wordOf b).toList) :
    scalarOfText cs = match word? cs with
      | some n => .integer n
      | none => match Binary64.parse? cs with
        | some x => .float x
        | none => .text (String.ofList cs) :=
  (if_neg (h true)).trans (if_neg (h false))

/-- A whole number is no boolean, whose letters it would have to have. -/
theorem not_boolean_of_word? {cs : List Char} {n : Int} (h : word? cs = some n) (b : Bool) :
    lower cs ≠ (wordOf b).toList := by
  have hnone : word? (wordOf b).toList = none := by cases b <;> decide
  have hnumeral : IsNumeral cs n := (word?_eq_some_iff.1 h).1
  rw [ne_eq, lower_eq_iff (isPlain_wordOf b), hnumeral.map_toLower]
  rintro rfl
  rw [hnone] at h
  cases h

theorem scalarOfText_of_integer {cs : List Char} {n : Int} (h : IsNumeral cs n)
    (hfits : fitsWord n = true) : scalarOfText cs = .integer n := by
  have hword : word? cs = some n := word?_eq_some_iff.2 ⟨h, hfits⟩
  rw [scalarOfText_of_not_boolean (not_boolean_of_word? hword), hword]

theorem scalarOfText_of_isMere {cs : List Char} (h : IsMere cs) :
    scalarOfText cs = .text (String.ofList cs) := by
  have hword : word? cs = none := by
    rw [Option.eq_none_iff_forall_ne_some]
    intro n hn
    obtain ⟨hn, hfits⟩ := word?_eq_some_iff.1 hn
    rw [h.integer n hn] at hfits
    cases hfits
  have hparse : Binary64.parse? cs = none := by
    rw [Option.eq_none_iff_forall_ne_some]
    intro x hx
    exact h.number (exists_parse?_iff.1 ⟨x, hx⟩)
  rw [scalarOfText_of_not_boolean h.boolean, hword, hparse]

theorem scalarOfText_cases (cs : List Char) :
    (∃ b, lower cs = (wordOf b).toList ∧ scalarOfText cs = .boolean b) ∨
    (∃ n, IsNumeral cs n ∧ fitsWord n = true ∧ scalarOfText cs = .integer n) ∨
    (∃ x, IsNumber cs ∧ scalarOfText cs = .float x) ∨
    IsMere cs ∧ scalarOfText cs = .text (String.ofList cs) := by
  by_cases hboolean : ∃ b, lower cs = (wordOf b).toList
  · obtain ⟨b, hb⟩ := hboolean
    exact .inl ⟨b, hb, scalarOfText_of_boolean hb⟩
  have hnot : ∀ b, lower cs ≠ (wordOf b).toList := not_exists.1 hboolean
  cases hword : word? cs with
  | some n =>
    obtain ⟨hn, hfits⟩ := word?_eq_some_iff.1 hword
    exact .inr (.inl ⟨n, hn, hfits, scalarOfText_of_integer hn hfits⟩)
  | none =>
    have hinteger : ∀ n, IsNumeral cs n → fitsWord n = false := by
      intro n hn
      rw [Bool.eq_false_iff]
      intro hfits
      rw [word?_eq_some_iff.2 ⟨hn, hfits⟩] at hword
      cases hword
    by_cases hnumber : IsNumber cs
    · obtain ⟨x, hx⟩ := exists_parse?_iff.2 hnumber
      refine .inr (.inr (.inl ⟨x, hnumber, ?_⟩))
      rw [scalarOfText_of_not_boolean hnot, hword, hx]
    · have hmere : IsMere cs := ⟨hnot, hinteger, hnumber⟩
      exact .inr (.inr (.inr ⟨hmere, scalarOfText_of_isMere hmere⟩))

theorem isMere_of_scalarOfText_eq_text {cs : List Char} {t : String}
    (h : scalarOfText cs = .text t) : IsMere cs := by
  rcases scalarOfText_cases cs with ⟨b, -, hcs⟩ | ⟨n, -, -, hcs⟩ | ⟨x, -, hcs⟩ | ⟨hmere, -⟩
  case inr.inr.inr => exact hmere
  all_goals
    rw [hcs] at h
    cases h

/-- A text that is a mere one in lower case is one in any case of letters. -/
theorem IsMere.of_lower {cs w : List Char} (hw : IsMere w) (hplain : ∀ c ∈ w, IsPlain c)
    (h : lower cs = w) : IsMere cs := by
  have hmap : cs.map Char.toLower = w := (lower_eq_iff hplain).1 h
  constructor
  case boolean =>
    have hfixed : lower w = w := by
      rw [lower_eq_iff hplain, ← hmap, List.map_map]
      exact List.map_congr_left fun c _ => Text.toLower_toLower c
    rw [h, ← hfixed]
    exact hw.boolean
  case integer =>
    intro n hn
    refine hw.integer n ?_
    rwa [← hmap, hn.map_toLower]
  case number =>
    intro hnumber
    exact hw.number (hmap ▸ hnumber.map_toLower)

/-! ## Words for switches -/

/-- The words for a switch, besides its number. -/
def wordsFor : Bool → List String
  | true => ["true", "on", "yes"]
  | false => ["false", "off", "no"]

/-- A text is written neither as a boolean nor as a number, and it is no word for a switch. -/
structure IsNoSwitch (cs : List Char) : Prop where
  mere : IsMere cs
  word : ∀ b, ∀ w ∈ wordsFor b, lower cs ≠ w.toList

/-- A text with a word for a switch is taken for the boolean, or for itself. -/
theorem scalarOfText_of_mem_wordsFor {cs : List Char} {b : Bool} {w : String}
    (hw : w ∈ wordsFor b) (h : lower cs = w.toList) :
    scalarOfText cs = .boolean b ∨ scalarOfText cs = .text (String.ofList cs) := by
  by_cases hb : w = wordOf b
  · exact .inl (scalarOfText_of_boolean (hb ▸ h))
  · refine .inr (scalarOfText_of_isMere ?_)
    have hwords : ∀ b, ∀ w ∈ wordsFor b, w ≠ wordOf b →
        (w.toList.all fun c => decide (IsPlain c)) ∧ scalarOfText w.toList = .text w := by
      decide +kernel
    obtain ⟨hplain, htext⟩ := hwords b w hw hb
    have hmere : IsMere w.toList := isMere_of_scalarOfText_eq_text htext
    exact hmere.of_lower (forall_isPlain_of_all hplain) h

end Enrollment.Environment
