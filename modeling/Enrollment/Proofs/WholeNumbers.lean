import Enrollment.Proofs.Layout
import Enrollment.Proofs.NumberText
import Enrollment.Proofs.Stages
import Mathlib.Data.List.Induction
import Mathlib.Data.Nat.Digits.Defs

/-!
# Whole numbers in a file

A document gives a whole number in decimal, with a sign or none, or in one of
three other bases after a zero and a letter, and may group its digits by single
underscores.  The reader takes exactly what is written so
(`wholeNumber?_eq_some_iff`).  Such a word is no other number, no date and no
time, so it has a value if and only if its number fits a signed word of 64 bits
(`Spells.wordValue?`): one that does not is no value at all, rather than one
that is wrapped or rounded.  Loading a file that gives a setting by a whole
number therefore depends on the number and not on how it is written
(`load_integer`).
-/

namespace Enrollment

namespace Radix

/-- Digits of a base with single underscores between some of them, and what the digits are.  From
ten on each may be a capital or a small letter. -/
inductive Grouped (base : Nat) : List Char → List Nat → Prop where
  | single (capital : Bool) {d : Nat} (hd : d < base) : Grouped base [hexDigit capital d] [d]
  | next (capital : Bool) {d : Nat} (hd : d < base) {cs : List Char} {ds : List Nat}
      (h : Grouped base cs ds) : Grouped base (hexDigit capital d :: cs) (d :: ds)
  | underscore (capital : Bool) {d : Nat} (hd : d < base) {cs : List Char} {ds : List Nat}
      (h : Grouped base cs ds) : Grouped base (hexDigit capital d :: '_' :: cs) (d :: ds)

theorem isDigit_of_lt {base d : Nat} (hbase : base ≤ 16) (hd : d < base) (capital : Bool) :
    isDigit base (hexDigit capital d) = true := by
  have hsixteen := isDigit_hexDigit capital (hd.trans_le hbase)
  have hvalue := digitValue_hexDigit capital (hd.trans_le hbase)
  rw [isDigit, Bool.and_eq_true] at hsixteen ⊢
  refine ⟨hsixteen.1, decide_eq_true ?_⟩
  rw [hvalue]
  exact hd

theorem ne_underscore_of_isDigit {base : Nat} {c : Char} (h : isDigit base c = true) : c ≠ '_' := by
  rintro rfl
  rw [isDigit, Bool.and_eq_true] at h
  exact absurd h.1 (by decide)

theorem value_eq_ofDigits (base : Nat) (es : List Char) :
    value base es = Nat.ofDigits base (es.map digitValue).reverse := by
  induction es using List.reverseRecOn with
  | nil => rfl
  | append_singleton es c ih =>
    have hstep : value base (es ++ [c]) = value base es * base + digitValue c := by
      rw [value, List.foldl_append, List.foldl_cons, List.foldl_nil]
      rfl
    rw [hstep, ih, List.map_append, List.reverse_append, List.map_singleton, List.reverse_singleton,
      List.singleton_append, Nat.ofDigits_cons, Nat.mul_comm, Nat.add_comm]

namespace Grouped

variable {base : Nat} (hbase : base ≤ 16) {cs : List Char} {ds : List Nat}
  (h : Grouped base cs ds)

include h in
theorem exists_cons : ∃ capital d r es, cs = hexDigit capital d :: r ∧ ds = d :: es ∧ d < base := by
  cases h with
  | single capital hd => exact ⟨capital, _, _, _, rfl, rfl, hd⟩
  | next capital hd _ => exact ⟨capital, _, _, _, rfl, rfl, hd⟩
  | underscore capital hd _ => exact ⟨capital, _, _, _, rfl, rfl, hd⟩

include h in
/-- What holds of the underscore and of all digits holds of all characters. -/
theorem forall_mem {P : Char → Prop} (hunderscore : P '_')
    (hdigit : ∀ capital d, d < base → P (hexDigit capital d)) : ∀ c ∈ cs, P c := by
  induction h with
  | single capital hd => exact List.forall_mem_singleton.2 (hdigit capital _ hd)
  | next capital hd _ ih => exact List.forall_mem_cons.2 ⟨hdigit capital _ hd, ih⟩
  | underscore capital hd _ ih =>
    exact List.forall_mem_cons.2 ⟨hdigit capital _ hd, List.forall_mem_cons.2 ⟨hunderscore, ih⟩⟩

include hbase h

theorem head?_ne {c : Char} (hc : isDigit base c = false) : cs.head? ≠ some c := by
  obtain ⟨capital, d, r, -, rfl, -, hd⟩ := h.exists_cons
  intro hhead
  have hdigit := isDigit_of_lt hbase hd capital
  rw [Option.some.inj hhead, hc] at hdigit
  cases hdigit

/-- The underscores are taken out, and the digits are left as they are written. -/
theorem exists_ungroup? : ∃ es, ungroup? base cs = some es ∧ es.map digitValue = ds := by
  have hvalue : ∀ {capital d}, d < base → digitValue (hexDigit capital d) = d :=
    fun hd => digitValue_hexDigit _ (hd.trans_le hbase)
  induction h with
  | single capital hd =>
    refine ⟨_, if_pos (isDigit_of_lt hbase hd capital), ?_⟩
    rw [List.map_singleton, hvalue hd]
  | @next capital d hd cs ds hcs ih =>
    obtain ⟨es, hes, hds⟩ := ih
    obtain ⟨capital', d', r, _, rfl, -, hd'⟩ := hcs.exists_cons
    refine ⟨hexDigit capital d :: es, ?_, ?_⟩
    · rw [ungroup?, if_pos (isDigit_of_lt hbase hd capital),
        if_neg (ne_underscore_of_isDigit (isDigit_of_lt hbase hd' capital')), hes, Option.map_some]
    · rw [List.map_cons, hvalue hd, hds]
  | @underscore capital d hd cs ds _ ih =>
    obtain ⟨es, hes, hds⟩ := ih
    refine ⟨hexDigit capital d :: es, ?_, ?_⟩
    · rw [ungroup?, if_pos (isDigit_of_lt hbase hd capital), if_pos rfl, hes, Option.map_some]
    · rw [List.map_cons, hvalue hd, hds]

end Grouped

theorem exists_eq_hexDigit {base : Nat} {c : Char} (h : isDigit base c = true) :
    ∃ capital, c = hexDigit capital (digitValue c) ∧ digitValue c < base := by
  obtain ⟨hdigit, hlt⟩ := Bool.and_eq_true_iff.1 h
  have hascii : c.toNat < 128 := by
    simp only [Char.isDigit, Bool.or_eq_true, Bool.and_eq_true, decide_eq_true_eq] at hdigit
    rcases hdigit with (hc | hc) | hc
    all_goals exact (UInt32.le_iff_toNat_le.1 hc.2).trans_lt (by decide)
  have hall : ∀ n : Fin 128, let c := Char.ofNat n
      (c.isDigit || decide ('a' ≤ c ∧ c ≤ 'f') || decide ('A' ≤ c ∧ c ≤ 'F')) = true →
        ∃ capital, c = hexDigit capital (digitValue c) := by
    decide +kernel
  have hchar := hall ⟨c.toNat, hascii⟩
  rw [Char.ofNat_toNat] at hchar
  obtain ⟨capital, hcapital⟩ := hchar hdigit
  exact ⟨capital, hcapital, of_decide_eq_true hlt⟩

/-- Nothing but digits with single underscores between them is taken. -/
theorem grouped_of_ungroup? {base : Nat} {cs es : List Char} (h : ungroup? base cs = some es) :
    Grouped base cs (es.map digitValue) := by
  induction cs using ungroup?.induct base generalizing es with
  | case1 => cases h
  | case2 c hc =>
    rw [ungroup?, if_pos hc] at h
    cases h
    obtain ⟨capital, hcapital, hlt⟩ := exists_eq_hexDigit hc
    have hsingle := Grouped.single capital hlt
    rwa [← hcapital] at hsingle
  | case3 c hc =>
    rw [ungroup?, if_neg hc] at h
    cases h
  | case4 c d r hc ihr ihdr =>
    rw [ungroup?, if_pos hc] at h
    obtain ⟨es, hes, rfl⟩ := Option.map_eq_some_iff.1 h
    obtain ⟨capital, hcapital, hlt⟩ := exists_eq_hexDigit hc
    split at hes
    · next hd =>
      have hunderscore := Grouped.underscore capital hlt (ihr hes)
      rwa [← hcapital, ← hd] at hunderscore
    · have hnext := Grouped.next capital hlt (ihdr hes)
      rwa [← hcapital] at hnext
  | case5 c d r hc =>
    rw [ungroup?, if_neg hc] at h
    cases h

theorem head?_of_ungroup? {base : Nat} {cs es : List Char} (h : ungroup? base cs = some es) :
    es.head? = cs.head? := by
  unfold ungroup? at h
  split at h
  · cases h
  · obtain ⟨-, h⟩ := Option.ite_none_right_eq_some.1 h
    cases h
    rfl
  · obtain ⟨-, h⟩ := Option.ite_none_right_eq_some.1 h
    obtain ⟨r, -, rfl⟩ := Option.map_eq_some_iff.1 h
    rfl

end Radix

namespace Toml

open Decimal (IsSign)
open Radix (Grouped)

/-! ## Words that are whole numbers -/

/-- A text is a whole number as documents write them: in decimal with a sign or none, beginning with
a zero only if it is that, or after a zero and a letter in another base. -/
inductive Spells : List Char → Int → Prop where
  | decimal {front cs : List Char} {negative : Bool} {ds : List Nat}
      (hfront : IsSign front negative) (hcs : Grouped 10 cs ds)
      (hzero : ds.head? = some 0 → ds = [0]) :
      Spells (front ++ cs) (Decimal.signed negative (Nat.ofDigits 10 ds.reverse))
  | based {letter : Char} {base : Nat} {cs : List Char} {ds : List Nat}
      (hletter : (letter, base) ∈ [('x', 16), ('o', 8), ('b', 2)]) (hcs : Grouped base cs ds) :
      Spells ('0' :: letter :: cs) (Nat.ofDigits base ds.reverse : Nat)

section Decimal

variable {cs : List Char} {ds : List Nat} (hcs : Grouped 10 cs ds)

include hcs

theorem exists_decimalDigits? (hzero : ds.head? = some 0 → ds = [0]) :
    ∃ es, decimalDigits? cs = some es ∧ es.map Radix.digitValue = ds := by
  obtain ⟨es, hes, hds⟩ := hcs.exists_ungroup? (by decide)
  refine ⟨es, ?_, hds⟩
  have hno : ¬(es.head? = some '0' ∧ es.length ≠ 1) := by
    rintro ⟨hhead, hlength⟩
    have hfirst : ds.head? = some 0 := by
      rw [← hds, List.head?_map, hhead]
      rfl
    have hone := congrArg List.length (hzero hfirst)
    rw [← hds, List.length_map] at hone
    exact hlength hone
  rw [decimalDigits?, hes]
  exact if_neg hno

theorem unsigned_of_grouped : Decimal.Unsigned cs :=
  ⟨hcs.head?_ne (by decide) (by decide), hcs.head?_ne (by decide) (by decide)⟩

end Decimal

/-! ### Their characters -/

/-- A character of a whole number after its sign: part of a word, and of no date and no time. -/
structure IsNumberChar (c : Char) : Prop where
  word : isWordChar c = true
  not_date : c ≠ '-'
  not_time : c ≠ ':'

/-- A character of a whole number in decimal: it calls for no other base, and it begins neither
places nor a power. -/
structure IsDecimalChar (c : Char) : Prop extends IsNumberChar c where
  not_base : baseOf? c = none
  not_power : isExponentMark c = false
  not_point : c ≠ '.'

/-- A letter after a zero calls for its base, and with it the zero does not begin a number in
decimal. -/
structure CallsFor (letter : Char) (base : Nat) : Prop extends IsNumberChar letter where
  base_eq : baseOf? letter = some base
  le_sixteen : base ≤ 16
  not_digit : Radix.isDigit 10 letter = false
  not_underscore : letter ≠ '_'
  not_power : isExponentMark letter = false
  not_point : letter ≠ '.'

theorem callsFor_of_mem {letter : Char} {base : Nat}
    (h : (letter, base) ∈ [('x', 16), ('o', 8), ('b', 2)]) : CallsFor letter base := by
  simp only [List.mem_cons, Prod.mk.injEq, List.not_mem_nil, or_false] at h
  rcases h with ⟨rfl, rfl⟩ | ⟨rfl, rfl⟩ | ⟨rfl, rfl⟩
  all_goals exact ⟨⟨rfl, by decide, by decide⟩, rfl, by decide, rfl, by decide, rfl, by decide⟩

theorem isNumberChar_of_grouped {base : Nat} (hbase : base ≤ 16) {cs : List Char} {ds : List Nat}
    (h : Grouped base cs ds) : ∀ c ∈ cs, IsNumberChar c := by
  have hall : ∀ capital, ∀ d : Fin 16, let c := Radix.hexDigit capital d
      isWordChar c = true ∧ c ≠ '-' ∧ c ≠ ':' := by
    decide +kernel
  refine h.forall_mem ⟨rfl, by decide, by decide⟩ fun capital d hd => ?_
  obtain ⟨hword, hdate, htime⟩ := hall capital ⟨d, hd.trans_le hbase⟩
  exact ⟨hword, hdate, htime⟩

theorem isDecimalChar_of_grouped {cs : List Char} {ds : List Nat} (h : Grouped 10 cs ds) :
    ∀ c ∈ cs, IsDecimalChar c := by
  have hall : ∀ capital, ∀ d : Fin 10, let c := Radix.hexDigit capital d
      baseOf? c = none ∧ isExponentMark c = false ∧ c ≠ '.' := by
    decide +kernel
  have hdecimal : ∀ c ∈ cs, baseOf? c = none ∧ isExponentMark c = false ∧ c ≠ '.' :=
    h.forall_mem ⟨rfl, rfl, by decide⟩ fun capital d hd => hall capital ⟨d, hd⟩
  intro c hc
  obtain ⟨hbase, hpower, hpoint⟩ := hdecimal c hc
  exact ⟨isNumberChar_of_grouped (by decide) h c hc, hbase, hpower, hpoint⟩

/-! ### As whole numbers -/

theorem wholeNumber?_eq_decimal? {s : List Char} (h : ∀ c r, s = '0' :: c :: r → baseOf? c = none) :
    wholeNumber? s = decimal? s := by
  unfold wholeNumber?
  split
  · next c r => rw [h c r rfl]
  · rfl

theorem Spells.wholeNumber? {text : List Char} {n : Int} (h : Spells text n) :
    wholeNumber? text = some n := by
  cases h with
  | @decimal front cs negative ds hfront hcs hzero =>
    have hnone : ∀ c r, front ++ cs = '0' :: c :: r → baseOf? c = none := by
      intro c r hcr
      have hmem : c ∈ front ++ cs := by
        rw [hcr]
        exact List.mem_cons_of_mem _ List.mem_cons_self
      rcases List.mem_append.1 hmem with hc | hc
      · cases hfront with
        | none => cases hc
        | plus | minus => cases hcr
      · exact (isDecimalChar_of_grouped hcs c hc).not_base
    obtain ⟨es, hes, hds⟩ := exists_decimalDigits? hcs hzero
    rw [wholeNumber?_eq_decimal? hnone, decimal?, Decimal.sign_append hfront (unsigned_of_grouped hcs)]
    dsimp only
    rw [hes, Option.map_some, Radix.value_eq_ofDigits, hds]
  | @based letter base cs ds hletter hcs =>
    have hcalls := callsFor_of_mem hletter
    obtain ⟨es, hes, hds⟩ := hcs.exists_ungroup? hcalls.le_sixteen
    rw [Toml.wholeNumber?, hcalls.base_eq]
    dsimp only
    rw [hes, Option.map_some, Radix.value_eq_ofDigits, hds]

theorem spells_of_decimal? {s : List Char} {n : Int} (h : decimal? s = some n) : Spells s n := by
  obtain ⟨front, hfront, hs⟩ := Decimal.exists_isSign s
  unfold decimal? at h
  generalize Decimal.sign s = p at *
  obtain ⟨es, hes, rfl⟩ := Option.map_eq_some_iff.1 h
  unfold decimalDigits? at hes
  split at hes
  · next ds hds =>
    obtain ⟨hno, hes⟩ := Option.ite_none_left_eq_some.1 hes
    cases hes
    have hgrouped := Radix.grouped_of_ungroup? hds
    rw [Radix.value_eq_ofDigits, hs]
    refine .decimal hfront hgrouped fun hhead => ?_
    -- A first digit of the value nought is a zero, so it is the only digit.
    obtain ⟨capital, d, r, ds', hp, hds', -⟩ := hgrouped.exists_cons
    rw [hds', List.head?_cons, Option.some.injEq] at hhead
    rw [hhead] at hp hds'
    have hfirst : es.head? = some '0' := by
      rw [Radix.head?_of_ungroup? hds, hp]
      cases capital <;> rfl
    have hlength : es.length = 1 := by
      by_contra hne
      exact hno ⟨hfirst, hne⟩
    obtain ⟨c, rfl⟩ := List.length_eq_one_iff.1 hlength
    cases hfirst
    rfl
  · cases hes

/-- Words are whole numbers to the reader exactly if they are written as such. -/
theorem wholeNumber?_eq_some_iff {s : List Char} {n : Int} :
    Toml.wholeNumber? s = some n ↔ Spells s n := by
  refine ⟨fun h => ?_, Spells.wholeNumber?⟩
  unfold Toml.wholeNumber? at h
  split at h
  · next c r =>
    split at h
    · next base hbase =>
      obtain ⟨ds, hds, rfl⟩ := Option.map_eq_some_iff.1 h
      have hletter : (c, base) ∈ [('x', 16), ('o', 8), ('b', 2)] := by
        unfold baseOf? at hbase
        split at hbase <;> cases hbase <;> decide
      rw [Radix.value_eq_ofDigits]
      exact .based hletter (Radix.grouped_of_ungroup? hds)
    · exact spells_of_decimal? h
  · exact spells_of_decimal? h

/-! ### As nothing else -/

theorem fractional?_eq_none_of_digits {negative : Bool} {s : List Char}
    (h : decimalDigits? ((s.takeWhile fun c => !isExponentMark c).takeWhile (· ≠ '.')) = none) :
    fractional? negative s = none := by
  rw [fractional?, h]
  rfl

/-- Without a point and an exponent there is no number with places. -/
theorem fractional?_eq_none_of_decimal {negative : Bool} {s : List Char}
    (h : ∀ c ∈ s, IsDecimalChar c) : fractional? negative s = none := by
  have hfront : s.takeWhile (fun c => !isExponentMark c) = s ∧
      s.dropWhile (fun c => !isExponentMark c) = [] := by
    have hall : ∀ c ∈ s, (!isExponentMark c) = true := by
      intro c hc
      rw [(h c hc).not_power]
      rfl
    have hexact := takeWhile_exact (r := []) hall nofun
    rwa [List.append_nil] at hexact
  have hpoint : s.dropWhile (· ≠ '.') = [] := by
    have hall : ∀ c ∈ s, decide (c ≠ '.') = true := fun c hc =>
      decide_eq_true (h c hc).not_point
    have hexact := takeWhile_exact (r := []) hall nofun
    rw [List.append_nil] at hexact
    exact hexact.2
  unfold fractional?
  simp only [hfront.1, hfront.2, hpoint, and_self, if_true]
  cases decimalDigits? _ <;> rfl

/-- After a letter for a base there is no number with places, since the zero and the letter stand
before any exponent and any point, among what should be digits. -/
theorem fractional?_eq_none_of_callsFor {negative : Bool} {letter : Char} {base : Nat}
    (h : CallsFor letter base) (r : List Char) :
    fractional? negative ('0' :: letter :: r) = none := by
  have htake : ∀ {p : Char → Bool} {s}, p '0' = true → p letter = true →
      ('0' :: letter :: s).takeWhile p = '0' :: letter :: s.takeWhile p := by
    intro p s hzero hletter
    rw [List.takeWhile_cons_of_pos hzero, List.takeWhile_cons_of_pos hletter]
  have hungroup : ∀ s, Radix.ungroup? 10 ('0' :: letter :: s) = none := by
    intro s
    have hrest : Radix.ungroup? 10 (letter :: s) = none := by
      cases s <;> simp [Radix.ungroup?, h.not_digit]
    rw [Radix.ungroup?, if_neg h.not_underscore, hrest]
    rfl
  apply fractional?_eq_none_of_digits
  rw [htake rfl (by rw [h.not_power]; rfl), htake rfl (decide_eq_true h.not_point), decimalDigits?,
    hungroup]

theorem float?_eq_none {s : List Char} (hinf : s.head? ≠ some 'i') (hnan : s.head? ≠ some 'n')
    {front : List Char} {negative : Bool} (hfront : IsSign front negative)
    (hunsigned : Decimal.Unsigned s) (h : fractional? negative s = none) :
    float? (front ++ s) = none := by
  have hne : ∀ w : List Char, w.head? = some 'i' ∨ w.head? = some 'n' → s ≠ w := by
    rintro w hw rfl
    exact hw.elim hinf hnan
  rw [float?, Decimal.sign_append hfront hunsigned]
  dsimp only
  rw [if_neg (hne _ (.inl rfl)), if_neg (hne _ (.inr rfl)), h, Option.bind_none]

theorem pairAfter?_eq_none {c : Char} {s : List Char} (h : c ∉ s) : pairAfter? c s = none := by
  cases s with
  | nil => rfl
  | cons d s =>
    refine if_neg ?_
    rintro rfl
    exact h List.mem_cons_self

theorem number?_cases (digits : Nat) (s : List Char) :
    number? digits s = none ∨ ∃ n, number? digits s = some (n, s.drop digits) := by
  unfold number?
  dsimp only
  split
  · exact .inr ⟨_, rfl⟩
  · exact .inl rfl

theorem date?_eq_none {s : List Char} (h : '-' ∉ s.drop 4) : date? s = none := by
  rcases number?_cases 4 s with hnumber | ⟨n, hnumber⟩
  · rw [date?, hnumber]
    rfl
  · rw [date?, hnumber]
    simp only [Option.bind_eq_bind, Option.bind_some, pairAfter?_eq_none h, Option.bind_none]

theorem time?_eq_none {s : List Char} (h : ':' ∉ s.drop 2) : time? s = none := by
  rcases number?_cases 2 s with hnumber | ⟨n, hnumber⟩
  · rw [time?, hnumber]
    rfl
  · rw [time?, hnumber]
    simp only [Option.bind_eq_bind, Option.bind_some, pairAfter?_eq_none h, Option.bind_none]

theorem parse?_eq_none {s : List Char} (hdate : '-' ∉ s.drop 4) (htime : ':' ∉ s) :
    DateTime.parse? s = none := by
  rw [DateTime.parse?, date?_eq_none hdate, time?_eq_none fun h => htime (List.mem_of_mem_drop h)]

namespace Spells

variable {text : List Char} {n : Int} (h : Spells text n)

include h

theorem float? : Toml.float? text = none := by
  cases h with
  | @decimal front cs negative ds hfront hcs hzero =>
    exact float?_eq_none (hcs.head?_ne (by decide) (by decide)) (hcs.head?_ne (by decide) (by decide))
      hfront (unsigned_of_grouped hcs)
      (fractional?_eq_none_of_decimal (isDecimalChar_of_grouped hcs))
  | @based letter base cs ds hletter hcs =>
    have hhead : ∀ c, c ≠ '0' → ('0' :: letter :: cs).head? ≠ some c := by
      rintro c hc ⟨⟩
      exact hc rfl
    exact float?_eq_none (hhead _ (by decide)) (hhead _ (by decide)) .none
      ⟨hhead _ (by decide), hhead _ (by decide)⟩
      (fractional?_eq_none_of_callsFor (callsFor_of_mem hletter) cs)

/-- A whole number begins with a digit or a sign, and nothing after that is of a date or a time. -/
theorem exists_cons : ∃ c s, text = c :: s ∧ isWordChar c = true ∧ c ≠ ':' ∧ c ≠ 't' ∧ c ≠ 'f' ∧
    ∀ d ∈ s, IsNumberChar d := by
  cases h with
  | @decimal front cs negative ds hfront hcs hzero =>
    have hchars := isNumberChar_of_grouped (by decide) hcs
    cases hfront with
    | plus => exact ⟨'+', cs, rfl, rfl, by decide, by decide, by decide, hchars⟩
    | minus => exact ⟨'-', cs, rfl, rfl, by decide, by decide, by decide, hchars⟩
    | none =>
      have htrue : cs.head? ≠ some 't' := hcs.head?_ne (by decide) (by decide)
      have hfalse : cs.head? ≠ some 'f' := hcs.head?_ne (by decide) (by decide)
      obtain ⟨capital, d, r, -, rfl, -, -⟩ := hcs.exists_cons
      obtain ⟨hfirst, hrest⟩ := List.forall_mem_cons.1 hchars
      exact ⟨_, r, rfl, hfirst.word, hfirst.not_time, fun hc => htrue (congrArg some hc),
        fun hc => hfalse (congrArg some hc), hrest⟩
  | @based letter base cs ds hletter hcs =>
    have hcalls := callsFor_of_mem hletter
    have hchars := isNumberChar_of_grouped hcalls.le_sixteen hcs
    exact ⟨'0', letter :: cs, rfl, rfl, by decide, by decide, by decide,
      List.forall_mem_cons.2 ⟨hcalls.toIsNumberChar, hchars⟩⟩

theorem isWord : IsWord text := by
  obtain ⟨c, s, rfl, hword, -, -, -, hrest⟩ := h.exists_cons
  exact .unbroken (List.cons_ne_nil c s)
    (List.forall_mem_cons.2 ⟨hword, fun d hd => (hrest d hd).word⟩)

/-- A whole number is a value if it fits a word, and otherwise no value of any kind. -/
theorem wordValue? :
    Toml.wordValue? text = if Decimal.fitsWord n then some (.integer n) else none := by
  obtain ⟨c, s, rfl, -, hcolon, htrue, hfalse, hrest⟩ := h.exists_cons
  have htrue : c :: s ≠ "true".toList := fun heq => htrue (List.cons.inj heq).1
  have hfalse : c :: s ≠ "false".toList := fun heq => hfalse (List.cons.inj heq).1
  have hdate : '-' ∉ (c :: s).drop 4 := fun hmem =>
    (hrest '-' (List.mem_of_mem_drop hmem)).not_date rfl
  have htime : ':' ∉ c :: s := by
    intro hmem
    rcases List.mem_cons.1 hmem with rfl | hmem
    · exact hcolon rfl
    · exact (hrest ':' hmem).not_time rfl
  have hinteger : integer? (c :: s) = if Decimal.fitsWord n then some n else none := by
    rw [integer?, h.wholeNumber?, Option.bind_some]
  rw [Toml.wordValue?, if_neg htrue, if_neg hfalse, hinteger, h.float?,
    parse?_eq_none hdate htime]
  split <;> rfl

end Spells

end Toml

namespace Settings

open Value
open Environment (Garbled Names keyOf)
open Toml (Literal KeyText Says Spells entryText headingText)

/-! ## The file -/

/-- The text of a file that gives a setting and nothing else. -/
def Setting.file (s : Setting) (closed : Bool) (given : List Char) : List Char :=
  joinLines closed [headingText "output".toList, entryText s.key.toList given]

/-- The settings where one of them is given by a whole number. -/
def Setting.ofInteger : Setting → Int → Settings
  | .header, n => { standard with header := toString n }
  | .announceAdditions, n => { standard with announceAdditions := decide (n ≠ 0) }

/-- A file that gives a setting is a document if what it gives is a value. -/
theorem documentIn?_file (s : Setting) (closed : Bool) {given : List Char} {v : Option Toml.Node}
    (hentry : Says (entryText s.key.toList given) (v.map (.entry ⟨[], s.key⟩))) :
    documentIn? (Utf8.encode (s.file closed given)) =
      v.map fun v => [("output", .table .heading [(s.key, v)])] := by
  have hheading : Says (headingText "output".toList) _ := Says.heading (.single nameText_output)
  have hstatements : Toml.statements? (s.file closed given) =
      v.map fun v => [.table ⟨[], "output"⟩, .entry ⟨[], s.key⟩ v] := by
    obtain ⟨r, hr, hends⟩ := exists_joinLines_cons closed (headingText "output".toList)
      [entryText s.key.toList given]
    obtain ⟨r', hr', hends'⟩ := exists_joinLines_cons closed (entryText s.key.toList given) []
    rw [Setting.file, hr, hheading.statements?_append hends, hr', hentry.statements?_append hends',
      joinLines, Toml.statements?_nil]
    cases v <;> rfl
  have hfirst : ∃ c t, s.file closed given = c :: t ∧ c.toNat ≤ 0x7F := ⟨'[', _, rfl, by decide⟩
  rw [documentIn?_encode_ascii hfirst, hstatements]
  cases v <;> rfl

/-! ## Loading -/

section

variable {files : Files} {env : Environment} {path : Option String} {p : String} {s : Setting}
  {closed : Bool} {text : List Char} {n : Int}

/-- A file that gives a setting by a simple value has it, and is no document if there is none. -/
theorem fileLayer_of_literal (l : Literal)
    (hs : source? files (pathUsed env path) = some ⟨p, Utf8.encode (s.file closed l.text)⟩) :
    fileLayer files (pathUsed env path) = l.value?.elim (.error (.unparsed p))
      fun x => .ok [("output", .table (some p) [(s.key, .leaf (some p) x)])] := by
  have hsays := Says.literal (.single (nameText_key s)) l
  rw [fileLayer, hs]
  dsimp only
  cases hvalue : l.value? with
  | none =>
    rw [hvalue] at hsays
    exact Source.layer_eq_error (documentIn?_file s closed (v := none) hsays)
  | some x =>
    rw [hvalue] at hsays
    exact Source.layer_eq_ok (documentIn?_file s closed (v := some _) hsays)

theorem fileLayer_of_spells (hspells : Spells text n)
    (hs : source? files (pathUsed env path) = some ⟨p, Utf8.encode (s.file closed text)⟩) :
    fileLayer files (pathUsed env path) = if Decimal.fitsWord n then
      .ok [("output", .table (some p) [(s.key, .leaf (some p) (.integer n))])]
    else .error (.unparsed p) := by
  rw [fileLayer_of_literal (.word text hspells.isWord) hs, Literal.value?, hspells.wordValue?]
  split <;> rfl

theorem load_of_fitsWord (hspells : Spells text n)
    (hs : source? files (pathUsed env path) = some ⟨p, Utf8.encode (s.file closed text)⟩)
    (hfits : Decimal.fitsWord n = true) (htext : ∀ v ∈ env, ¬ Garbled v)
    (hbeside : ∀ v ∈ env, ∀ m, Names v.1 m → ¬ IsBelow (keyOf m)) :
    load files env path = .ok (s.ofInteger n) := by
  have hfile := fileLayer_of_spells hspells hs
  rw [if_pos hfits] at hfile
  rw [load_of_beside hfile htext hbeside, layBelow_cons_of_some below?_output]
  cases s <;> rfl

theorem fitsWord_iff : Decimal.fitsWord n = true ↔ -2 ^ 63 ≤ n ∧ n < 2 ^ 63 := by
  rw [Decimal.fitsWord, decide_eq_true_iff]
  omega

/-- A whole number below a setting in a file counts by its value alone, however it is written.  One
that fits a signed word of 64 bits gives the header its decimal text and the switch whether it is
none, if all variables that count have texts and none reaches a setting.  With any other the file is
no document. -/
theorem load_integer (hspells : Spells text n)
    (hs : source? files (pathUsed env path) = some ⟨p, Utf8.encode (s.file closed text)⟩) :
    (-2 ^ 63 ≤ n ∧ n < 2 ^ 63 → (∀ v ∈ env, ¬ Garbled v) →
      (∀ v ∈ env, ∀ m, Names v.1 m → ¬ IsBelow (keyOf m)) →
      load files env path = .ok (s.ofInteger n)) ∧
    (¬ (-2 ^ 63 ≤ n ∧ n < 2 ^ 63) → load files env path = .error (.unparsed p)) ∧
    ∀ (files' : Files) (closed' : Bool) (text' : List Char), Spells text' n →
      source? files' (pathUsed env path) = some ⟨p, Utf8.encode (s.file closed' text')⟩ →
      load files' env path = load files env path := by
  have hfile := fileLayer_of_spells hspells hs
  refine ⟨fun hrange => load_of_fitsWord hspells hs (fitsWord_iff.2 hrange), fun hrange => ?_, ?_⟩
  · rw [if_neg fun hfits => hrange (fitsWord_iff.1 hfits)] at hfile
    exact load_of_fileLayer_eq_error hfile
  · intro files' closed' text' hspells' hs'
    apply load_eq_of_fileLayer_eq
    rw [hfile, fileLayer_of_spells hspells' hs']

end

/-- The greatest number of the range, in two of its spellings. -/
theorem load_integer_greatest :
    let text := "0x00_7fFF_ffff_FFFF_fffF".toList
    let text' := "+9_223_372_036_854_775_807".toList
    let content := Utf8.encode (Setting.header.file true text)
    let content' := Utf8.encode (Setting.header.file false text')
    let files := (Files.empty default).write "c.toml" content
    let files' := (Files.empty default).write "c.toml" content'
    let env : Environment := [(bytesOf "ROSTER_X", bytesOf "1"), ([0xFF], [0xFF])]
    Spells text (2 ^ 63 - 1) ∧ Spells text' (2 ^ 63 - 1) ∧
      load files env (some "c.toml") =
        .ok { standard with header := "9223372036854775807" } ∧
      load files' env (some "c.toml") = load files env (some "c.toml") := by
  intro text text' content content' files files' env
  have htext : Spells text (2 ^ 63 - 1) := Toml.wholeNumber?_eq_some_iff.1 (by decide +kernel)
  have htext' : Spells text' (2 ^ 63 - 1) := Toml.wholeNumber?_eq_some_iff.1 (by decide +kernel)
  have hname : nameOf default "c.toml" = "c.toml" := by decide +kernel
  have hs : source? files (pathUsed env (some "c.toml")) = some ⟨"c.toml", content⟩ :=
    source?_alone hname content
  have hs' : source? files' (pathUsed env (some "c.toml")) = some ⟨"c.toml", content'⟩ :=
    source?_alone hname content'
  have hx : Names (bytesOf "ROSTER_X") "x".toList := ⟨"ROSTER_X".toList, rfl, by decide +kernel⟩
  have hnone : ∀ n, ¬ Names [0xFF] n := by
    rw [← Environment.settingName?_eq_none_iff]
    decide +kernel
  have hgood : ∀ v ∈ env, ¬ Garbled v := by
    simp only [env, List.forall_mem_cons, List.not_mem_nil, false_implies, implies_true, and_true]
    refine ⟨fun h => h.2 ⟨"1".toList, rfl⟩, ?_⟩
    rintro ⟨⟨n, hn⟩, -⟩
    exact hnone n hn
  have hbeside : ∀ v ∈ env, ∀ m, Names v.1 m → ¬ IsBelow (keyOf m) := by
    simp only [env, List.forall_mem_cons, List.not_mem_nil, false_implies, implies_true, and_true]
    exact ⟨not_isBelow_of_names hx (by decide +kernel), fun m hm => absurd hm (hnone m)⟩
  obtain ⟨hload, -, hsame⟩ := load_integer htext hs
  refine ⟨htext, htext', ?_, hsame files' false text' htext' hs'⟩
  rw [hload (by decide) hgood hbeside]
  decide +kernel

/-- A garbled variable for another key makes loading fail beside a file that gives a whole number. -/
theorem load_integer_garbled :
    let content := Utf8.encode (Setting.header.file true ['7'])
    let files := (Files.empty default).write "c.toml" content
    let env : Environment := [(bytesOf "ROSTER_X", [0xFF])]
    Spells ['7'] 7 ∧
      source? files (pathUsed env (some "c.toml")) = some ⟨"c.toml", content⟩ ∧
      (∀ v ∈ env, ∀ m, Names v.1 m → ¬ IsBelow (keyOf m)) ∧
      load files env (some "c.toml") ≠ .ok (Setting.header.ofInteger 7) ∧
      load files env (some "c.toml") = .error (.undecodable "x" [0xFF]) := by
  intro content files env
  have hx : Names (bytesOf "ROSTER_X") "x".toList := ⟨"ROSTER_X".toList, rfl, by decide +kernel⟩
  have hload : load files env (some "c.toml") = .error (.undecodable "x" [0xFF]) := by
    decide +kernel
  refine ⟨Toml.wholeNumber?_eq_some_iff.1 (by decide), source?_alone (by decide +kernel) content,
    ?_, ?_, hload⟩
  · exact List.forall_mem_singleton.2 (not_isBelow_of_names hx (by decide +kernel))
  · rw [hload]
    intro hok
    cases hok

end Settings

end Enrollment
