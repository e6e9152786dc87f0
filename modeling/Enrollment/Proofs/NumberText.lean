import Enrollment.Number.Binary64
import Enrollment.Proofs.Literal
import Enrollment.Proofs.LowerCase

/-!
# What is written as a number

Whole numbers and numbers of any kind as they may be written, said as grammars
beside the readers: a sign, digits, a point among them, an exponent, and the
words for what is not finite.  The readers take exactly these texts
(`word?_eq_some_iff`, `exists_parse?_iff`), and the case of letters plays no part
in them.
-/

namespace Enrollment

open Text (toLower_toLower toLower_of_isDigit)
open Toml (takeWhile_exact)

namespace Decimal

/-! ## Signs -/

/-- What may stand in front of a number, and whether it is a minus. -/
inductive IsSign : List Char → Bool → Prop where
  | none : IsSign [] false
  | plus : IsSign ['+'] false
  | minus : IsSign ['-'] true

/-- A text begins with no sign. -/
def Unsigned (r : List Char) : Prop :=
  r.head? ≠ some '+' ∧ r.head? ≠ some '-'

theorem sign_append {front r : List Char} {negative : Bool} (h : IsSign front negative)
    (hr : Unsigned r) : sign (front ++ r) = (negative, r) := by
  cases h with
  | none =>
    rw [List.nil_append, sign.eq_def]
    split
    · exact absurd rfl hr.1
    · exact absurd rfl hr.2
    · rfl
  | plus => rfl
  | minus => rfl

theorem exists_isSign (cs : List Char) :
    ∃ front, IsSign front (sign cs).1 ∧ cs = front ++ (sign cs).2 := by
  unfold sign
  split
  · exact ⟨['+'], .plus, rfl⟩
  · exact ⟨['-'], .minus, rfl⟩
  · exact ⟨[], .none, rfl⟩

theorem IsSign.map_toLower {front : List Char} {negative : Bool} (h : IsSign front negative) :
    front.map Char.toLower = front := by
  cases h <;> rfl

/-! ## Whole numbers -/

theorem areDigits_iff {ds : List Char} : areDigits ds = true ↔ ds ≠ [] ∧ ∀ d ∈ ds, d.isDigit := by
  rw [areDigits, Bool.and_eq_true, Bool.not_eq_true', List.isEmpty_eq_false_iff, List.all_eq_true]

theorem map_toLower_of_isDigit {ds : List Char} (h : ∀ d ∈ ds, d.isDigit) :
    ds.map Char.toLower = ds := by
  rw [List.map_congr_left fun d hd => toLower_of_isDigit (h d hd), List.map_id']

theorem unsigned_append {ds r : List Char} (hds : ∀ d ∈ ds, d.isDigit) (hr : Unsigned r) :
    Unsigned (ds ++ r) := by
  cases ds with
  | nil => exact hr
  | cons d ds =>
    have hd := hds d List.mem_cons_self
    constructor
    all_goals
      rintro ⟨⟩
      exact absurd hd (by decide)

theorem unsigned_of_isDigit {ds : List Char} (h : ∀ d ∈ ds, d.isDigit) : Unsigned ds := by
  rw [← List.append_nil ds]
  exact unsigned_append h ⟨nofun, nofun⟩

/-- A text is a whole number in decimal: digits with a sign before them or none. -/
inductive IsNumeral : List Char → Int → Prop where
  | signed {front ds : List Char} {negative : Bool} (hfront : IsSign front negative)
      (hne : ds ≠ []) (hds : ∀ d ∈ ds, d.isDigit) :
      IsNumeral (front ++ ds) (Decimal.signed negative (value ds))

theorem word?_eq_some_iff {cs : List Char} {n : Int} :
    word? cs = some n ↔ IsNumeral cs n ∧ fitsWord n = true := by
  constructor
  · intro h
    obtain ⟨front, hfront, hcs⟩ := exists_isSign cs
    simp only [word?, Option.ite_none_right_eq_some, Bool.and_eq_true, areDigits_iff,
      Option.some.injEq] at h
    obtain ⟨⟨⟨hne, hds⟩, hfits⟩, rfl⟩ := h
    refine ⟨?_, hfits⟩
    generalize sign cs = p at *
    rw [hcs]
    exact .signed hfront hne hds
  · rintro ⟨⟨hfront, hne, hds⟩, hfits⟩
    simp only [word?, sign_append hfront (unsigned_of_isDigit hds), areDigits_iff.2 ⟨hne, hds⟩,
      hfits, Bool.and_self, ite_true]

theorem IsNumeral.map_toLower {cs : List Char} {n : Int} (h : IsNumeral cs n) :
    cs.map Char.toLower = cs := by
  obtain ⟨hfront, -, hds⟩ := h
  rw [List.map_append, hfront.map_toLower, map_toLower_of_isDigit hds]

end Decimal

namespace Binary64

open Decimal (IsSign Unsigned areDigits areDigits_iff sign sign_append exists_isSign
  map_toLower_of_isDigit unsigned_append)

/-! ## Numbers of any kind -/

/-- The part of a number after its digits: a power of ten, or nothing. -/
inductive IsExponent : List Char → Prop where
  | none : IsExponent []
  | power {e : Char} {front ds : List Char} {negative : Bool} (he : e.toLower = 'e')
      (hfront : IsSign front negative) (hne : ds ≠ []) (hds : ∀ d ∈ ds, d.isDigit) :
      IsExponent (e :: (front ++ ds))

/-- A text is a finite number without a sign: digits, a point before, after or among them or none,
and a power of ten or none. -/
inductive IsFinite : List Char → Prop where
  | whole {ds exponent : List Char} (hne : ds ≠ []) (hds : ∀ d ∈ ds, d.isDigit)
      (hexponent : IsExponent exponent) : IsFinite (ds ++ exponent)
  | pointed {ds es exponent : List Char} (hne : ds ≠ [] ∨ es ≠ []) (hds : ∀ d ∈ ds, d.isDigit)
      (hes : ∀ d ∈ es, d.isDigit) (hexponent : IsExponent exponent) :
      IsFinite (ds ++ '.' :: (es ++ exponent))

/-- The words for what is not finite, in lower case. -/
def words : List (List Char) :=
  ["inf".toList, "infinity".toList, "nan".toList]

/-- A text is a number: a sign or none, and a finite number or one of the words for what is none. -/
inductive IsNumber : List Char → Prop where
  | finite {front cs : List Char} {negative : Bool} (hfront : IsSign front negative)
      (hcs : IsFinite cs) : IsNumber (front ++ cs)
  | word {front cs : List Char} {negative : Bool} (hfront : IsSign front negative)
      (hcs : cs.map Char.toLower ∈ words) : IsNumber (front ++ cs)

/-! ### Their readers -/

/-- Digits after a point, if one comes first, and what is left. -/
def places : List Char → List Char × List Char
  | '.' :: r => (r.takeWhile Char.isDigit, r.dropWhile Char.isDigit)
  | r => ([], r)

/-- Reads a finite number without a sign. -/
def parseFinite? (negative : Bool) (cs : List Char) : Option Binary64 :=
  let whole := cs.takeWhile Char.isDigit
  let p := places (cs.dropWhile Char.isDigit)
  if whole.isEmpty && p.1.isEmpty then none
  else (power? p.2).map fun q => ofDecimal negative (whole ++ p.1) (q - p.1.length)

theorem places_of_ne {r : List Char} (h : ∀ s, r ≠ '.' :: s) : places r = ([], r) := by
  unfold places
  split
  · next s => exact absurd rfl (h s)
  · rfl

theorem parse?_eq (cs : List Char) :
    parse? cs = (special? (sign cs).1 (sign cs).2).or (parseFinite? (sign cs).1 (sign cs).2) := by
  unfold parse? parseFinite?
  generalize sign cs = p
  obtain ⟨negative, r⟩ := p
  dsimp only
  cases special? negative r with
  | some x => rfl
  | none =>
    rw [Option.none_or]
    split
    · next h =>
      rw [h]
      rfl
    · next h =>
      rw [places_of_ne h]
      rfl

theorem special?_ne_none_iff {negative : Bool} {cs : List Char} :
    special? negative cs ≠ none ↔ cs.map Char.toLower ∈ words := by
  unfold special? words
  dsimp only
  simp only [List.mem_cons, List.not_mem_nil, or_false]
  by_cases hinf : cs.map Char.toLower = "inf".toList ∨ cs.map Char.toLower = "infinity".toList
  · rw [if_pos hinf, ← or_assoc]
    exact ⟨fun _ => .inl hinf, fun _ => nofun⟩
  · rw [if_neg hinf, ← or_assoc]
    by_cases hnan : cs.map Char.toLower = "nan".toList
    · rw [if_pos hnan]
      exact ⟨fun _ => .inr hnan, fun _ => nofun⟩
    · rw [if_neg hnan]
      exact ⟨fun h => absurd rfl h, fun h => absurd h (not_or.2 ⟨hinf, hnan⟩)⟩

theorem power?_ne_none_iff {cs : List Char} : power? cs ≠ none ↔ IsExponent cs := by
  constructor
  · intro h
    unfold power? at h
    split at h
    · exact .none
    · next e r =>
      dsimp only at h
      split at h
      · next hpower =>
        obtain ⟨he, hds⟩ := hpower
        obtain ⟨front, hfront, hr⟩ := exists_isSign r
        obtain ⟨hne, hds⟩ := areDigits_iff.1 hds
        rw [hr]
        exact .power he hfront hne hds
      · exact absurd rfl h
  · intro h
    cases h with
    | none => exact Option.some_ne_none _
    | power he hfront hne hds =>
      have hdigits := areDigits_iff.2 ⟨hne, hds⟩
      rw [power?, sign_append hfront (Decimal.unsigned_of_isDigit hds)]
      dsimp only
      rw [if_pos ⟨he, hdigits⟩]
      exact Option.some_ne_none _

/-- What follows the digits of a number is neither a digit nor a point nor a sign. -/
theorem IsExponent.head?_ne {cs : List Char} (h : IsExponent cs) :
    ∀ c, cs.head? = some c → c.isDigit = false ∧ c ≠ '.' ∧ c ≠ '+' ∧ c ≠ '-' := by
  cases h with
  | none => nofun
  | @power e front ds negative he hfront hne hds =>
    rintro c ⟨⟩
    refine ⟨?_, ?_, ?_, ?_⟩
    · cases hdigit : e.isDigit with
      | false => rfl
      | true =>
        rw [toLower_of_isDigit hdigit] at he
        rw [he] at hdigit
        exact absurd hdigit (by decide)
    all_goals
      rintro rfl
      exact absurd he (by decide)

theorem parseFinite?_ne_none_iff_places {negative : Bool} {cs : List Char} :
    parseFinite? negative cs ≠ none ↔
      (cs.takeWhile Char.isDigit ≠ [] ∨ (places (cs.dropWhile Char.isDigit)).1 ≠ []) ∧
      IsExponent (places (cs.dropWhile Char.isDigit)).2 := by
  unfold parseFinite?
  simp only [ne_eq, Bool.and_eq_true, List.isEmpty_iff, ite_eq_left_iff, Option.map_eq_none_iff,
    ← power?_ne_none_iff]
  rw [Classical.not_imp, Classical.not_and_iff_not_or_not]

theorem parseFinite?_ne_none_iff {negative : Bool} {cs : List Char} :
    parseFinite? negative cs ≠ none ↔ IsFinite cs := by
  rw [parseFinite?_ne_none_iff_places]
  constructor
  · rintro ⟨hne, hexponent⟩
    have hall : ∀ r : List Char, ∀ d ∈ r.takeWhile Char.isDigit, d.isDigit :=
      fun r => List.all_eq_true.1 List.all_takeWhile
    have hcs : cs.takeWhile Char.isDigit ++ cs.dropWhile Char.isDigit = cs :=
      List.takeWhile_append_dropWhile
    by_cases hpoint : ∃ s, cs.dropWhile Char.isDigit = '.' :: s
    · obtain ⟨s, hs⟩ := hpoint
      rw [hs] at hcs
      rw [hs, places] at hne hexponent
      have hpointed := IsFinite.pointed hne (hall cs) (hall s) hexponent
      rwa [List.takeWhile_append_dropWhile, hcs] at hpointed
    · rw [places_of_ne (not_exists.1 hpoint)] at hne hexponent
      have hwhole := IsFinite.whole (hne.resolve_right (absurd rfl)) (hall cs) hexponent
      rwa [hcs] at hwhole
  · intro h
    cases h with
    | @whole ds exponent hne hds hexponent =>
      obtain ⟨htake, hdrop⟩ := takeWhile_exact hds fun c hc => (hexponent.head?_ne c hc).1
      have hpoint : ∀ s, exponent ≠ '.' :: s := by
        rintro s rfl
        exact (hexponent.head?_ne '.' rfl).2.1 rfl
      rw [htake, hdrop, places_of_ne hpoint]
      exact ⟨.inl hne, hexponent⟩
    | @pointed ds es exponent hne hds hes hexponent =>
      obtain ⟨htake, hdrop⟩ := takeWhile_exact (r := '.' :: (es ++ exponent)) hds
        fun c hc => by cases hc; rfl
      obtain ⟨htake', hdrop'⟩ := takeWhile_exact hes fun c hc => (hexponent.head?_ne c hc).1
      rw [htake, hdrop, places, htake', hdrop']
      exact ⟨hne, hexponent⟩

theorem IsFinite.unsigned {cs : List Char} (h : IsFinite cs) : Unsigned cs := by
  cases h with
  | whole hne hds hexponent =>
    refine unsigned_append hds ⟨fun hhead => ?_, fun hhead => ?_⟩
    · exact (hexponent.head?_ne '+' hhead).2.2.1 rfl
    · exact (hexponent.head?_ne '-' hhead).2.2.2 rfl
  | pointed hne hds hes hexponent => exact unsigned_append hds ⟨nofun, nofun⟩

theorem unsigned_of_mem_words {cs : List Char} (h : cs.map Char.toLower ∈ words) : Unsigned cs := by
  have hwords : ∀ w ∈ words, w.head? ≠ some '+' ∧ w.head? ≠ some '-' := by decide
  obtain ⟨hplus, hminus⟩ := hwords _ h
  rw [List.head?_map] at hplus hminus
  constructor
  · intro hhead
    rw [hhead] at hplus
    exact hplus rfl
  · intro hhead
    rw [hhead] at hminus
    exact hminus rfl

/-- The reader takes exactly the texts that are numbers. -/
theorem exists_parse?_iff {cs : List Char} : (∃ x, parse? cs = some x) ↔ IsNumber cs := by
  rw [← Option.ne_none_iff_exists', parse?_eq, ne_eq, Option.or_eq_none_iff,
    Classical.not_and_iff_not_or_not, ← ne_eq, ← ne_eq, special?_ne_none_iff,
    parseFinite?_ne_none_iff]
  constructor
  · obtain ⟨front, hfront, hcs⟩ := exists_isSign cs
    rintro (hword | hfinite)
    · rw [hcs]
      exact .word hfront hword
    · rw [hcs]
      exact .finite hfront hfinite
  · intro h
    cases h with
    | finite hfront hfinite =>
      rw [sign_append hfront hfinite.unsigned]
      exact .inr hfinite
    | word hfront hword =>
      rw [sign_append hfront (unsigned_of_mem_words hword)]
      exact .inl hword

/-! ### The case of letters -/

theorem IsExponent.map_toLower {cs : List Char} (h : IsExponent cs) :
    IsExponent (cs.map Char.toLower) := by
  cases h with
  | none => exact .none
  | power he hfront hne hds =>
    rw [List.map_cons, List.map_append, hfront.map_toLower, map_toLower_of_isDigit hds]
    exact .power (by rw [he]; rfl) hfront hne hds

theorem IsFinite.map_toLower {cs : List Char} (h : IsFinite cs) :
    IsFinite (cs.map Char.toLower) := by
  cases h with
  | whole hne hds hexponent =>
    rw [List.map_append, map_toLower_of_isDigit hds]
    exact .whole hne hds hexponent.map_toLower
  | pointed hne hds hes hexponent =>
    rw [List.map_append, List.map_cons, List.map_append, map_toLower_of_isDigit hds,
      map_toLower_of_isDigit hes]
    exact .pointed hne hds hes hexponent.map_toLower

theorem IsNumber.map_toLower {cs : List Char} (h : IsNumber cs) :
    IsNumber (cs.map Char.toLower) := by
  cases h with
  | finite hfront hfinite =>
    rw [List.map_append, hfront.map_toLower]
    exact .finite hfront hfinite.map_toLower
  | @word front cs negative hfront hword =>
    have hcs : (cs.map Char.toLower).map Char.toLower = cs.map Char.toLower := by
      rw [List.map_map]
      exact List.map_congr_left fun c _ => toLower_toLower c
    rw [List.map_append, hfront.map_toLower]
    exact .word hfront (by rwa [hcs])

end Binary64

end Enrollment
