import Enrollment.Number.Decimal
import Enrollment.Proofs.Literal
import Mathlib.Algebra.Order.Floor.Semifield
import Mathlib.Data.List.TakeWhile
import Mathlib.Data.Rat.Floor
import Mathlib.Tactic.FieldSimp
import Mathlib.Tactic.Positivity
import Mathlib.Tactic.NormNum

/-!
# Dates and times as they are written

What a date or time says is said beside the reader: a grammar, in which parts of
a second are exact (`DateTimeText`).  The reader takes exactly the texts of the
grammar (`DateTimeText.exists_parse?`, `exists_dateTimeText`).  It keeps what
they say but for places of a second past the ninth, and the one text that is
made of this is again in the grammar and says just that
(`DateTimeText.text_kept`).
-/

namespace Enrollment

namespace Decimal

theorem value_append (ds es : List Char) :
    value (ds ++ es) = value ds * 10 ^ es.length + value es := by
  rw [value, Nat.ofDigitChars_append, Nat.ofDigitChars_eq_ofDigitChars_zero, Nat.mul_comm]
  rfl

theorem value_replicate_zero (n : Nat) : value (List.replicate n '0') = 0 := by
  rw [value, Nat.ofDigitChars_replicate_zero, Nat.mul_zero]

theorem value_singleton_le {d : Char} (h : d.isDigit = true) : value [d] ≤ 9 := by
  have hle : d.toNat ≤ '9'.toNat :=
    UInt32.le_iff_toNat_le.1 (of_decide_eq_true (Bool.and_eq_true_iff.1 h).2)
  have hvalue : value [d] = d.toNat - '0'.toNat := Nat.zero_add _
  rw [hvalue]
  exact Nat.sub_le_sub_right hle _

theorem value_lt {ds : List Char} (h : ∀ d ∈ ds, d.isDigit = true) : value ds < 10 ^ ds.length := by
  induction ds with
  | nil => decide
  | cons d ds ih =>
    have hd := value_singleton_le (h d List.mem_cons_self)
    have hds := ih fun e he => h e (List.mem_cons_of_mem d he)
    calc value (d :: ds) = value [d] * 10 ^ ds.length + value ds := value_append [d] ds
      _ < value [d] * 10 ^ ds.length + 10 ^ ds.length := Nat.add_lt_add_left hds _
      _ = (value [d] + 1) * 10 ^ ds.length := (Nat.succ_mul _ _).symm
      _ ≤ 10 * 10 ^ ds.length := Nat.mul_le_mul_right _ (Nat.succ_le_succ hd)
      _ = 10 ^ (d :: ds).length := Nat.pow_succ'.symm

/-- For decimal digits the value in base ten is the decimal value. -/
theorem radix_value_eq {ds : List Char} (h : ∀ d ∈ ds, d.isDigit = true) :
    Radix.value 10 ds = value ds := by
  have hdigit {d : Char} (hd : d.isDigit = true) : Radix.digitValue d = d.toNat - '0'.toNat := by
    have hle : d ≤ '9' := of_decide_eq_true (Bool.and_eq_true_iff.1 hd).2
    have hsmall : ¬ 'a' ≤ d := fun hc => absurd (Char.le_trans hc hle) (by decide)
    have hcapital : ¬ 'A' ≤ d := fun hc => absurd (Char.le_trans hc hle) (by decide)
    rw [Radix.digitValue, if_neg hsmall, if_neg hcapital]
  rw [Radix.value, value, Nat.ofDigitChars_eq_foldl]
  refine List.foldl_ext _ _ 0 fun n d hd => ?_
  rw [hdigit (h d hd), Nat.mul_comm]

end Decimal

namespace Toml

/-! ## Numbers -/

/-- A number as it is written with so many digits. -/
structure Numeral (places : Nat) (cs : List Char) (n : Nat) : Prop where
  length_eq : cs.length = places
  digits : ∀ c ∈ cs, c.isDigit = true
  value_eq : Decimal.value cs = n

namespace Numeral

variable {places : Nat} {cs : List Char} {n : Nat} (h : Numeral places cs n)

include h

theorem lt : n < 10 ^ places := by
  rw [← h.value_eq, ← h.length_eq]
  exact Decimal.value_lt h.digits

theorem number? (r : List Char) : number? places (cs ++ r) = some (n, r) := by
  have hall : cs.all Char.isDigit = true := List.all_eq_true.2 h.digits
  rw [Toml.number?, List.take_left' h.length_eq, List.drop_left' h.length_eq]
  simp only [h.length_eq, hall, and_self, if_true, Decimal.radix_value_eq h.digits, h.value_eq]

end Numeral

theorem exists_numeral {places : Nat} {s r : List Char} {n : Nat}
    (h : number? places s = some (n, r)) : ∃ cs, s = cs ++ r ∧ Numeral places cs n := by
  obtain ⟨⟨hlength, hall⟩, hsome⟩ := Option.ite_none_right_eq_some.1 h
  cases hsome
  have hdigits := List.all_eq_true.1 hall
  exact ⟨s.take places, (List.take_append_drop places s).symm, hlength, hdigits,
    (Decimal.radix_value_eq hdigits).symm⟩

theorem numeral_padded {places n : Nat} (hplaces : 0 < places) (h : n < 10 ^ places) :
    Numeral places (padded places n) n := by
  have hlength := (Nat.length_toDigits_le_iff (by decide) hplaces).2 h
  refine ⟨?_, ?_, ?_⟩
  · rw [padded, List.length_append, List.length_replicate]
    omega
  · intro c hc
    rcases List.mem_append.1 hc with hc | hc
    · rw [List.eq_of_mem_replicate hc]
      rfl
    · exact Nat.isDigit_of_mem_toDigits (by decide) (by decide) hc
  · rw [padded, Decimal.value_append, Decimal.value_replicate_zero, Nat.zero_mul, Nat.zero_add]
    exact Nat.ofDigitChars_ten_toDigits

theorem pairAfter?_of_numeral {cs : List Char} {n : Nat} (h : Numeral 2 cs n) (c : Char)
    (r : List Char) : pairAfter? c (c :: (cs ++ r)) = some (n, r) := by
  rw [pairAfter?, if_pos rfl, h.number?]

theorem exists_numeral_of_pairAfter? {c : Char} {s r : List Char} {n : Nat}
    (h : pairAfter? c s = some (n, r)) : ∃ cs, s = c :: (cs ++ r) ∧ Numeral 2 cs n := by
  cases s with
  | nil => cases h
  | cons d s =>
    obtain ⟨rfl, hnumber⟩ := Option.ite_none_right_eq_some.1 h
    obtain ⟨cs, rfl, hcs⟩ := exists_numeral hnumber
    exact ⟨cs, rfl, hcs⟩

/-! ## Dates -/

/-- A date of the calendar as it is written. -/
inductive DateText : List Char → Date → Prop where
  | mk {ys ms ds : List Char} {d : Date} (year : Numeral 4 ys d.year)
      (month : Numeral 2 ms d.month) (day : Numeral 2 ds d.day) (valid : d.valid = true) :
      DateText (ys ++ '-' :: (ms ++ '-' :: ds)) d

theorem DateText.date? {cs : List Char} {d : Date} (h : DateText cs d) (r : List Char) :
    date? (cs ++ r) = some (d, r) := by
  obtain @⟨ys, ms, ds, _, year, month, day, valid⟩ := h
  have hsplit : ys ++ '-' :: (ms ++ '-' :: ds) ++ r = ys ++ '-' :: (ms ++ '-' :: (ds ++ r)) := by
    simp only [List.append_assoc, List.cons_append]
  rw [hsplit, Toml.date?, year.number?]
  simp only [Option.bind_eq_bind, Option.bind_some, pairAfter?_of_numeral month,
    pairAfter?_of_numeral day, valid, if_true]

theorem exists_dateText {s r : List Char} {d : Date} (h : date? s = some (d, r)) :
    ∃ cs, s = cs ++ r ∧ DateText cs d := by
  obtain ⟨⟨year, s₁⟩, hyear, h⟩ := Option.bind_eq_some_iff.1 h
  obtain ⟨⟨month, s₂⟩, hmonth, h⟩ := Option.bind_eq_some_iff.1 h
  obtain ⟨⟨day, s₃⟩, hday, h⟩ := Option.bind_eq_some_iff.1 h
  obtain ⟨hvalid, hsome⟩ := Option.ite_none_right_eq_some.1 h
  cases hsome
  obtain ⟨ys, rfl, hys⟩ := exists_numeral hyear
  obtain ⟨ms, rfl, hms⟩ := exists_numeral_of_pairAfter? hmonth
  obtain ⟨ds, rfl, hds⟩ := exists_numeral_of_pairAfter? hday
  refine ⟨ys ++ '-' :: (ms ++ '-' :: ds), ?_, .mk hys hms hds hvalid⟩
  simp only [List.append_assoc, List.cons_append]

theorem DateText.text_self {cs : List Char} {d : Date} (h : DateText cs d) : DateText d.text d := by
  obtain ⟨year, month, day, valid⟩ := h
  have hsplit : d.text = padded 4 d.year ++ '-' :: (padded 2 d.month ++ '-' :: padded 2 d.day) := by
    simp only [Date.text, List.append_assoc, List.cons_append]
  rw [hsplit]
  exact .mk (numeral_padded (by decide) year.lt) (numeral_padded (by decide) month.lt)
    (numeral_padded (by decide) day.lt) valid

/-! ## Parts of a second -/

/-- The part of a second that the digits after the point stand for. -/
def partOf (ds : List Char) : ℚ :=
  (Decimal.value ds : ℚ) / 10 ^ ds.length

/-- How many whole billionths a part of a second has. -/
def billionthsOf (q : ℚ) : Nat :=
  ⌊q * 10 ^ 9⌋₊

theorem billionths_eq {ds : List Char} (h : ∀ d ∈ ds, d.isDigit = true) :
    billionths ds = billionthsOf (partOf ds) := by
  -- With nine zeros more the digits are the nine that count and as many after them as there were.
  let all := ds ++ List.replicate 9 '0'
  have hall : ∀ d ∈ all, d.isDigit = true := by
    intro d hd
    rcases List.mem_append.1 hd with hd | hd
    · exact h d hd
    · rw [List.eq_of_mem_replicate hd]
      rfl
  have hback : (all.drop 9).length = ds.length := by
    rw [List.length_drop, List.length_append, List.length_replicate, Nat.add_sub_cancel]
  have hlt : Decimal.value (all.drop 9) < 10 ^ ds.length := by
    rw [← hback]
    exact Decimal.value_lt fun d hd => hall d (List.mem_of_mem_drop hd)
  have hvalue : Decimal.value ds * 10 ^ 9 =
      Decimal.value (all.take 9) * 10 ^ ds.length + Decimal.value (all.drop 9) := by
    have hzeros : Decimal.value all = Decimal.value ds * 10 ^ 9 + 0 := by
      rw [Decimal.value_append, Decimal.value_replicate_zero, List.length_replicate]
    rw [← hback, ← Decimal.value_append, List.take_append_drop, hzeros, Nat.add_zero]
  have hdiv : Decimal.value ds * 10 ^ 9 / 10 ^ ds.length = Decimal.value (all.take 9) := by
    rw [hvalue, Nat.mul_comm, Nat.mul_add_div (Nat.pow_pos (by decide)), Nat.div_eq_of_lt hlt,
      Nat.add_zero]
  have hfloor : billionthsOf (partOf ds) = Decimal.value ds * 10 ^ 9 / 10 ^ ds.length := by
    rw [billionthsOf, partOf, div_mul_eq_mul_div]
    exact_mod_cast Nat.floor_div_eq_div (K := ℚ) (Decimal.value ds * 10 ^ 9) (10 ^ ds.length)
  rw [hfloor, hdiv]
  exact Decimal.radix_value_eq fun d hd => hall d (List.mem_of_mem_take hd)

theorem billionthsOf_div (n : Nat) : billionthsOf ((n : ℚ) / 10 ^ 9) = n := by
  rw [billionthsOf, div_mul_cancel₀ _ (by positivity), Nat.floor_natCast]

theorem billionthsOf_partOf_lt {ds : List Char} (h : ∀ d ∈ ds, d.isDigit = true) :
    billionthsOf (partOf ds) < 10 ^ 9 := by
  have hlt : (Decimal.value ds : ℚ) < 10 ^ ds.length := by exact_mod_cast Decimal.value_lt h
  have hpart : partOf ds < 1 := by rwa [partOf, div_lt_one (by positivity)]
  have hpos : 0 ≤ partOf ds := by
    unfold partOf
    positivity
  rw [billionthsOf, Nat.floor_lt (by positivity)]
  push_cast
  linarith

/-- The text of a part of a second is a point and digits that stand for this part. -/
theorem exists_fractionText {n : Nat} (h : n < 10 ^ 9) : ∃ ds, fractionText n = '.' :: ds ∧
    ds ≠ [] ∧ (∀ d ∈ ds, d.isDigit = true) ∧ partOf ds = n / 10 ^ 9 := by
  by_cases hzero : n = 0
  · refine ⟨['0'], by rw [fractionText, if_pos hzero], by decide,
      List.forall_mem_singleton.2 rfl, ?_⟩
    rw [hzero, partOf]
    norm_num [Decimal.value, Nat.ofDigitChars_cons]
  -- The nine digits are those that are left and the zeros after them.
  let ds := ((padded 9 n).reverse.dropWhile (· = '0')).reverse
  let zeros := ((padded 9 n).reverse.takeWhile (· = '0')).reverse
  have hnumeral : Numeral 9 (padded 9 n) n := numeral_padded (by decide) h
  have hsplit : padded 9 n = ds ++ zeros := by
    rw [← List.reverse_append, List.takeWhile_append_dropWhile, List.reverse_reverse]
  have hzeros : zeros = List.replicate zeros.length '0' := by
    refine List.eq_replicate_of_mem fun c hc => ?_
    have htaken : c ∈ (padded 9 n).reverse.takeWhile (· = '0') := List.mem_reverse.1 hc
    exact of_decide_eq_true (List.mem_takeWhile_imp (p := fun d => decide (d = '0')) htaken)
  have hlength : ds.length + zeros.length = 9 := by
    rw [← List.length_append, ← hsplit, hnumeral.length_eq]
  have hvalue : Decimal.value ds * 10 ^ zeros.length = n := by
    have hall := hnumeral.value_eq
    rw [hsplit, Decimal.value_append, hzeros, Decimal.value_replicate_zero, Nat.add_zero,
      List.length_replicate] at hall
    exact hall
  refine ⟨ds, by rw [fractionText, if_neg hzero], ?_, ?_, ?_⟩
  · intro hnil
    rw [hnil, Decimal.value, Nat.ofDigitChars_nil, Nat.zero_mul] at hvalue
    exact hzero hvalue.symm
  · exact fun d hd => hnumeral.digits d (hsplit ▸ List.mem_append_left zeros hd)
  · rw [partOf, ← hvalue, ← hlength, pow_add, Nat.cast_mul, Nat.cast_pow, Nat.cast_ofNat]
    field_simp

example : fractionText 0 = ".0".toList ∧ fractionText 100000000 = ".1".toList ∧
    fractionText 1 = ".000000001".toList := by
  decide +kernel

/-! ## Times -/

/-- A second of a minute and, if it is given, the exact part of it. -/
structure ExactSecond where
  whole : Nat
  part : Option ℚ

/-- A time of day, to the minute or closer, with an exact part of a second. -/
structure ExactTime where
  hour : Nat
  minute : Nat
  second : Option ExactSecond

/-- What is kept of a second: no more than billionths. -/
def ExactSecond.kept (s : ExactSecond) : Second :=
  ⟨s.whole, s.part.map billionthsOf⟩

def ExactTime.kept (t : ExactTime) : Time :=
  ⟨t.hour, t.minute, t.second.map ExactSecond.kept⟩

/-- A second with the part of it cut to nine places. -/
def ExactSecond.cut (s : ExactSecond) : ExactSecond :=
  ⟨s.whole, s.part.map fun q => billionthsOf q / 10 ^ 9⟩

def ExactTime.cut (t : ExactTime) : ExactTime :=
  ⟨t.hour, t.minute, t.second.map ExactSecond.cut⟩

theorem ExactTime.kept_cut (t : ExactTime) : t.cut.kept = t.kept := by
  obtain ⟨hour, minute, _ | ⟨whole, _ | q⟩⟩ := t
  · rfl
  · rfl
  · simp only [kept, cut, ExactSecond.kept, ExactSecond.cut, Option.map_some, billionthsOf_div]

/-- The second of a time as it is written after the minute, if it is given. -/
inductive SecondText : List Char → Option ExactSecond → Prop where
  | none : SecondText [] none
  | whole {ss : List Char} {s : Nat} (second : Numeral 2 ss s) (le : s ≤ 60) :
      SecondText (':' :: ss) (some ⟨s, .none⟩)
  | part {ss ds : List Char} {s : Nat} (second : Numeral 2 ss s) (le : s ≤ 60) (ne : ds ≠ [])
      (digits : ∀ d ∈ ds, d.isDigit = true) :
      SecondText (':' :: (ss ++ '.' :: ds)) (some ⟨s, some (partOf ds)⟩)

/-- A time of day as it is written. -/
inductive TimeText : List Char → ExactTime → Prop where
  | mk {hs ms ss : List Char} {t : ExactTime} (hour : Numeral 2 hs t.hour) (hour_le : t.hour ≤ 23)
      (minute : Numeral 2 ms t.minute) (minute_le : t.minute ≤ 59)
      (second : SecondText ss t.second) : TimeText (hs ++ ':' :: (ms ++ ss)) t

/-- A time is over here: nothing that could be more of it follows. -/
def TimeEnds (r : List Char) : Prop :=
  ∀ c, r.head? = some c → c ≠ ':' ∧ c ≠ '.' ∧ c.isDigit = false

theorem fraction?_of_timeEnds {r : List Char} (hr : TimeEnds r) : fraction? r = some (none, r) := by
  unfold fraction?
  split
  · exact absurd rfl (hr '.' rfl).2.1
  · rfl

namespace SecondText

variable {cs r : List Char} {s : Option ExactSecond} (h : SecondText cs s)

include h

theorem second? (hr : TimeEnds r) :
    second? (cs ++ r) = some (s.map ExactSecond.kept, r) := by
  cases h with
  | none =>
    rw [List.nil_append, Toml.second?.eq_def]
    split
    · exact absurd rfl (hr ':' rfl).1
    · rfl
  | whole second le =>
    simp only [Toml.second?, List.cons_append, pairAfter?_of_numeral second,
      fraction?_of_timeEnds hr, Option.bind_eq_bind, Option.bind_some]
    rfl
  | @part ss ds s second le ne digits =>
    obtain ⟨htake, hdrop⟩ := takeWhile_exact digits (r := r) fun c hc => (hr c hc).2.2
    have hfraction : fraction? ('.' :: (ds ++ r)) = some (some (billionths ds), r) := by
      rw [fraction?, htake, if_neg ne, hdrop]
    have hsplit : ':' :: (ss ++ '.' :: ds) ++ r = ':' :: (ss ++ '.' :: (ds ++ r)) := by
      simp only [List.append_assoc, List.cons_append]
    simp only [hsplit, Toml.second?, pairAfter?_of_numeral second, hfraction, billionths_eq digits,
      Option.bind_eq_bind, Option.bind_some]
    rfl

theorem valid : (s.map ExactSecond.kept).all Second.valid = true := by
  cases h with
  | none => rfl
  | whole _ le => exact decide_eq_true le
  | part _ le _ _ => exact decide_eq_true le

theorem text_kept : SecondText (((s.map ExactSecond.kept).map Second.text).getD [])
    (s.map ExactSecond.cut) := by
  cases h with
  | none => exact .none
  | @whole ss s second le =>
    have htext : Second.text (ExactSecond.kept ⟨s, .none⟩) = ':' :: padded 2 s := List.append_nil _
    rw [Option.map_some, Option.map_some, Option.map_some, Option.getD_some, htext]
    exact .whole (numeral_padded (by decide) second.lt) le
  | @part ss ds s second le ne digits =>
    obtain ⟨es, hes, hne, hdigits, hpart⟩ := exists_fractionText (billionthsOf_partOf_lt digits)
    have htext : Second.text (ExactSecond.kept ⟨s, some (partOf ds)⟩) =
        ':' :: (padded 2 s ++ '.' :: es) := by
      rw [← hes]
      rfl
    have hcut : ExactSecond.cut ⟨s, some (partOf ds)⟩ = ⟨s, some (partOf es)⟩ := by
      rw [ExactSecond.cut, Option.map_some, hpart]
    rw [Option.map_some, Option.map_some, Option.map_some, Option.getD_some, htext, hcut]
    exact .part (numeral_padded (by decide) second.lt) le hne hdigits

end SecondText

theorem exists_secondText {s r : List Char} {second : Option Second}
    (h : second? s = some (second, r)) (hvalid : second.all Second.valid = true) :
    ∃ cs e, s = cs ++ r ∧ SecondText cs e := by
  unfold second? at h
  split at h
  · next t =>
    obtain ⟨⟨whole, s₁⟩, hwhole, h⟩ := Option.bind_eq_some_iff.1 h
    obtain ⟨⟨part, s₂⟩, hpart, hsome⟩ := Option.bind_eq_some_iff.1 h
    cases hsome
    obtain ⟨ss, heq, hss⟩ := exists_numeral_of_pairAfter? hwhole
    have hle : whole ≤ 60 := of_decide_eq_true hvalid
    unfold fraction? at hpart
    split at hpart
    · next u =>
      obtain ⟨hne, hsome⟩ := Option.ite_none_left_eq_some.1 hpart
      cases hsome
      refine ⟨_, _, ?_, .part hss hle hne fun d hd => List.mem_takeWhile_imp hd⟩
      rw [heq, List.cons_append, List.append_assoc, List.cons_append, List.takeWhile_append_dropWhile]
    · cases hpart
      exact ⟨_, _, heq, .whole hss hle⟩
  · cases h
    exact ⟨[], _, rfl, .none⟩

namespace TimeText

variable {cs r : List Char} {t : ExactTime} (h : TimeText cs t)

include h

theorem time? (hr : TimeEnds r) : time? (cs ++ r) = some (t.kept, r) := by
  obtain @⟨hs, ms, ss, _, hour, hour_le, minute, minute_le, second⟩ := h
  have hsplit : hs ++ ':' :: (ms ++ ss) ++ r = hs ++ ':' :: (ms ++ (ss ++ r)) := by
    simp only [List.append_assoc, List.cons_append]
  have hvalid : (Time.mk t.hour t.minute (t.second.map ExactSecond.kept)).valid = true :=
    Bool.and_eq_true_iff.2 ⟨decide_eq_true ⟨hour_le, minute_le⟩, second.valid⟩
  rw [hsplit, Toml.time?, hour.number?]
  simp only [Option.bind_eq_bind, Option.bind_some, pairAfter?_of_numeral minute, second.second? hr,
    hvalid, if_true]
  rfl

theorem text_kept : TimeText t.kept.text t.cut := by
  obtain @⟨hs, ms, ss, _, hour, hour_le, minute, minute_le, second⟩ := h
  have hsplit : t.kept.text = padded 2 t.hour ++ ':' :: (padded 2 t.minute ++
      ((t.second.map ExactSecond.kept).map Second.text).getD []) := by
    simp only [Time.text, ExactTime.kept, List.append_assoc, List.cons_append]
  rw [hsplit]
  exact .mk (numeral_padded (by decide) hour.lt) hour_le (numeral_padded (by decide) minute.lt)
    minute_le second.text_kept

/-- A time begins with two digits and a colon, so it does not begin with a date. -/
theorem date?_eq_none (r : List Char) : date? (cs ++ r) = none := by
  obtain @⟨hs, ms, ss, _, hour, -, -, -, -⟩ := h
  obtain ⟨a, b, rfl⟩ := List.length_eq_two.1 hour.length_eq
  have hnumber : number? 4 ([a, b] ++ ':' :: (ms ++ ss) ++ r) = none := by
    refine if_neg ?_
    rintro ⟨-, hall⟩
    have hcolon := List.all_eq_true.1 hall ':' (by simp)
    cases hcolon
  rw [Toml.date?, hnumber]
  rfl

end TimeText

theorem exists_timeText {s r : List Char} {t : Time} (h : time? s = some (t, r)) :
    ∃ cs e, s = cs ++ r ∧ TimeText cs e := by
  obtain ⟨⟨hour, s₁⟩, hhour, h⟩ := Option.bind_eq_some_iff.1 h
  obtain ⟨⟨minute, s₂⟩, hminute, h⟩ := Option.bind_eq_some_iff.1 h
  obtain ⟨⟨second, s₃⟩, hsecond, h⟩ := Option.bind_eq_some_iff.1 h
  obtain ⟨hvalid, hsome⟩ := Option.ite_none_right_eq_some.1 h
  cases hsome
  obtain ⟨hclock, hall⟩ := Bool.and_eq_true_iff.1 hvalid
  obtain ⟨hour_le, minute_le⟩ := of_decide_eq_true hclock
  obtain ⟨hs, rfl, hhs⟩ := exists_numeral hhour
  obtain ⟨ms, rfl, hms⟩ := exists_numeral_of_pairAfter? hminute
  obtain ⟨ss, e, rfl, hss⟩ := exists_secondText hsecond hall
  refine ⟨hs ++ ':' :: (ms ++ ss), ⟨hour, minute, e⟩, ?_, .mk hhs hour_le hms minute_le hss⟩
  simp only [List.append_assoc, List.cons_append]

/-! ## Offsets -/

/-- How far a clock is from universal time: it shows universal time, or it is ahead by so many
minutes, or behind if they are negative. -/
inductive Shift where
  | zulu
  | minutes (n : Int)

/-- An offset as it is kept; one of nothing counts as ahead. -/
def Shift.kept : Shift → Offset
  | zulu => .zulu
  | minutes n =>
    if n < 0 then .behind (n.natAbs / 60) (n.natAbs % 60) else .ahead (n.natAbs / 60) (n.natAbs % 60)

/-- An offset as it is written. -/
inductive ShiftText : List Char → Shift → Prop where
  | capital : ShiftText ['Z'] .zulu
  | small : ShiftText ['z'] .zulu
  | ahead {hs ms : List Char} {h m : Nat} (hour : Numeral 2 hs h) (hour_le : h ≤ 23)
      (minute : Numeral 2 ms m) (minute_le : m ≤ 59) :
      ShiftText ('+' :: (hs ++ ':' :: ms)) (.minutes (60 * h + m))
  | behind {hs ms : List Char} {h m : Nat} (hour : Numeral 2 hs h) (hour_le : h ≤ 23)
      (minute : Numeral 2 ms m) (minute_le : m ≤ 59) :
      ShiftText ('-' :: (hs ++ ':' :: ms)) (.minutes (-(60 * h + m)))

theorem Shift.kept_ahead {h m : Nat} (hm : m ≤ 59) :
    (Shift.minutes (60 * h + m)).kept = .ahead h m := by
  have hhour : (60 * h + m : Int).natAbs / 60 = h := by omega
  have hminute : (60 * h + m : Int).natAbs % 60 = m := by omega
  rw [kept, if_neg (by omega), hhour, hminute]

theorem Shift.kept_behind {h m : Nat} (hm : m ≤ 59) (hne : ¬ (h = 0 ∧ m = 0)) :
    (Shift.minutes (-(60 * h + m))).kept = .behind h m := by
  have hhour : (-(60 * h + m) : Int).natAbs / 60 = h := by omega
  have hminute : (-(60 * h + m) : Int).natAbs % 60 = m := by omega
  rw [kept, if_pos (by omega), hhour, hminute]

theorem offset?_cons {c : Char} {hs ms : List Char} {h m : Nat} {o : Offset}
    (hour : Numeral 2 hs h) (minute : Numeral 2 ms m)
    (hsign : c = '+' ∧ o = .ahead h m ∨ c = '-' ∧ o = .behind h m)
    (hvalid : o.valid = true) : offset? (c :: (hs ++ ':' :: ms)) = some o := by
  have hpair : pairAfter? ':' (':' :: ms) = some (m, []) := by
    have hread := pairAfter?_of_numeral minute ':' []
    rwa [List.append_nil] at hread
  unfold offset?
  split
  · next heq => cases (List.append_eq_nil_iff.1 (List.cons.inj heq).2).2
  · next heq => cases (List.append_eq_nil_iff.1 (List.cons.inj heq).2).2
  · next heq =>
    obtain ⟨rfl, rfl⟩ := List.cons.inj heq
    simp only [Option.bind_eq_bind, hour.number?, Option.bind_some, hpair]
    rcases hsign with ⟨rfl, rfl⟩ | ⟨rfl, rfl⟩
    · simp [hvalid]
    · simp [hvalid]
  · next heq => cases heq

namespace ShiftText

variable {cs : List Char} {s : Shift} (h : ShiftText cs s)

include h

theorem exists_offset? : ∃ o, offset? cs = some o ∧ o.text = s.kept.text := by
  cases h with
  | capital => exact ⟨.zulu, rfl, rfl⟩
  | small => exact ⟨.zulu, rfl, rfl⟩
  | ahead hour hour_le minute minute_le =>
    refine ⟨_, offset?_cons hour minute (.inl ⟨rfl, rfl⟩) (decide_eq_true ⟨hour_le, minute_le⟩), ?_⟩
    rw [Shift.kept_ahead minute_le]
  | @behind hs ms h m hour hour_le minute minute_le =>
    refine ⟨_, offset?_cons hour minute (.inr ⟨rfl, rfl⟩) (decide_eq_true ⟨hour_le, minute_le⟩), ?_⟩
    by_cases hzero : h = 0 ∧ m = 0
    · obtain ⟨rfl, rfl⟩ := hzero
      rfl
    · rw [Shift.kept_behind minute_le hzero]

theorem text_kept : ShiftText s.kept.text s := by
  have hahead : ∀ {h m : Nat}, h < 10 ^ 2 → m < 10 ^ 2 → h ≤ 23 → m ≤ 59 →
      ShiftText (Offset.ahead h m).text (.minutes (60 * h + m)) := by
    intro h m hh hm
    have hsplit : (Offset.ahead h m).text = '+' :: (padded 2 h ++ ':' :: padded 2 m) := by
      simp only [Offset.text, List.cons_append]
    rw [hsplit]
    exact fun hour_le => .ahead (numeral_padded (by decide) hh) hour_le (numeral_padded (by decide) hm)
  cases h with
  | capital => exact .capital
  | small => exact .capital
  | ahead hour hour_le minute minute_le =>
    rw [Shift.kept_ahead minute_le]
    exact hahead hour.lt minute.lt hour_le minute_le
  | @behind hs ms h m hour hour_le minute minute_le =>
    by_cases hzero : h = 0 ∧ m = 0
    · obtain ⟨rfl, rfl⟩ := hzero
      exact hahead hour.lt minute.lt hour_le minute_le
    · have hsplit : (Offset.behind h m).text = '-' :: (padded 2 h ++ ':' :: padded 2 m) := by
        simp only [Offset.text, if_neg hzero, List.cons_append]
      rw [Shift.kept_behind minute_le hzero, hsplit]
      exact .behind (numeral_padded (by decide) hour.lt) hour_le
        (numeral_padded (by decide) minute.lt) minute_le

theorem timeEnds : TimeEnds cs := by
  cases h
  all_goals
    rintro c ⟨⟩
    decide

theorem ne_nil : cs ≠ [] := by
  cases h
  all_goals exact List.cons_ne_nil _ _

end ShiftText

theorem exists_shiftText {s : List Char} {o : Offset} (h : offset? s = some o) :
    ∃ e, ShiftText s e := by
  unfold offset? at h
  split at h
  · exact ⟨_, .capital⟩
  · exact ⟨_, .small⟩
  · obtain ⟨⟨hour, s₁⟩, hhour, h⟩ := Option.bind_eq_some_iff.1 h
    obtain ⟨⟨minute, s₂⟩, hminute, hsign⟩ := Option.bind_eq_some_iff.1 h
    obtain ⟨hs, rfl, hhs⟩ := exists_numeral hhour
    obtain ⟨ms, rfl, hms⟩ := exists_numeral_of_pairAfter? hminute
    dsimp only at hsign
    split at hsign
    · next hc =>
      obtain ⟨⟨rfl, hvalid⟩, -⟩ := Option.ite_none_right_eq_some.1 hsign
      obtain ⟨hour_le, minute_le⟩ := of_decide_eq_true hvalid
      rw [hc, List.append_nil]
      exact ⟨_, .ahead hhs hour_le hms minute_le⟩
    · split at hsign
      · next hc =>
        obtain ⟨⟨rfl, hvalid⟩, -⟩ := Option.ite_none_right_eq_some.1 hsign
        obtain ⟨hour_le, minute_le⟩ := of_decide_eq_true hvalid
        rw [hc, List.append_nil]
        exact ⟨_, .behind hhs hour_le hms minute_le⟩
      · cases hsign
  · cases h

/-! ## Dates and times -/

/-- What a date or time says, with an exact part of a second. -/
inductive Moment where
  | instant (d : Date) (t : ExactTime) (s : Shift)
  | civil (d : Date) (t : ExactTime)
  | date (d : Date)
  | time (t : ExactTime)

namespace Moment

/-- What is kept of a date or time. -/
def kept : Moment → DateTime
  | instant d t s => .instant d t.kept s.kept
  | civil d t => .civil d t.kept
  | date d => .date d
  | time t => .time t.kept

/-- A date or time with the part of a second cut to nine places. -/
def cut : Moment → Moment
  | instant d t s => .instant d t.cut s
  | civil d t => .civil d t.cut
  | date d => .date d
  | time t => .time t.cut

theorem kept_cut (m : Moment) : m.cut.kept = m.kept := by
  cases m with
  | instant d t s => rw [cut, kept, t.kept_cut, kept]
  | civil d t => rw [cut, kept, t.kept_cut, kept]
  | date d => rfl
  | time t => rw [cut, kept, t.kept_cut, kept]

end Moment

/-- A character that may stand between a date and a time. -/
def IsSeparator (c : Char) : Prop :=
  c = 'T' ∨ c = 't' ∨ c = ' '

/-- A date or time as it is written. -/
inductive DateTimeText : List Char → Moment → Prop where
  | instant {ds ts ss : List Char} {c : Char} {d : Date} {t : ExactTime} {s : Shift}
      (date : DateText ds d) (separator : IsSeparator c) (time : TimeText ts t)
      (shift : ShiftText ss s) : DateTimeText (ds ++ c :: (ts ++ ss)) (.instant d t s)
  | civil {ds ts : List Char} {c : Char} {d : Date} {t : ExactTime} (date : DateText ds d)
      (separator : IsSeparator c) (time : TimeText ts t) : DateTimeText (ds ++ c :: ts) (.civil d t)
  | date {ds : List Char} {d : Date} (date : DateText ds d) : DateTimeText ds (.date d)
  | time {ts : List Char} {t : ExactTime} (time : TimeText ts t) : DateTimeText ts (.time t)

theorem timeEnds_nil : TimeEnds [] :=
  nofun

namespace DateTimeText

variable {cs : List Char} {m : Moment} (h : DateTimeText cs m)

include h

/-- What is written as a date or time is read as one, and what is kept of it has its text. -/
theorem exists_parse? : ∃ x, DateTime.parse? cs = some x ∧ x.text = m.kept.text := by
  cases h with
  | @instant ds ts ss c d t s date separator time shift =>
    obtain ⟨o, ho, htext⟩ := shift.exists_offset?
    refine ⟨.instant d t.kept o, ?_, by rw [DateTime.text, htext]; rfl⟩
    have hafter : afterDate? d (ts ++ ss) = some (.instant d t.kept o) := by
      simp only [afterDate?, time.time? shift.timeEnds, Option.bind_eq_bind, Option.bind_some,
        if_neg shift.ne_nil, ho, Option.map_some]
    rw [DateTime.parse?, date.date?]
    exact (if_pos separator).trans hafter
  | @civil ds ts c d t date separator time =>
    refine ⟨.civil d t.kept, ?_, rfl⟩
    have htime := time.time? timeEnds_nil
    rw [List.append_nil] at htime
    have hafter : afterDate? d ts = some (.civil d t.kept) := by
      simp only [afterDate?, htime, Option.bind_eq_bind, Option.bind_some, if_true]
    rw [DateTime.parse?, date.date?]
    exact (if_pos separator).trans hafter
  | @date ds d date =>
    have hdate := date.date? []
    rw [List.append_nil] at hdate
    exact ⟨.date d, by rw [DateTime.parse?, hdate], rfl⟩
  | @time ts t time =>
    have hdate := time.date?_eq_none []
    have htime := time.time? timeEnds_nil
    rw [List.append_nil] at hdate htime
    exact ⟨.time t.kept, by rw [DateTime.parse?, hdate, htime], rfl⟩

/-- The text of what is kept of a date or time is one again, and says the same but for what has
been cut. -/
theorem text_kept : DateTimeText m.kept.text m.cut := by
  cases h with
  | @instant ds ts ss c d t s date separator time shift =>
    have hsplit : (Moment.instant d t s).kept.text =
        d.text ++ 'T' :: (t.kept.text ++ s.kept.text) := List.append_assoc _ _ _
    rw [hsplit]
    exact .instant date.text_self (.inl rfl) time.text_kept shift.text_kept
  | civil date separator time => exact .civil date.text_self (.inl rfl) time.text_kept
  | date date => exact .date date.text_self
  | time time => exact .time time.text_kept

end DateTimeText

/-- What is read as a date or time is written as one. -/
theorem exists_dateTimeText {s : List Char} {x : DateTime} (h : DateTime.parse? s = some x) :
    ∃ m, DateTimeText s m := by
  unfold DateTime.parse? at h
  split at h
  · next d hdate =>
    obtain ⟨ds, rfl, hds⟩ := exists_dateText hdate
    exact ⟨.date d, by rw [List.append_nil]; exact .date hds⟩
  · next d c r hdate =>
    obtain ⟨ds, rfl, hds⟩ := exists_dateText hdate
    obtain ⟨hseparator, hafter⟩ := Option.ite_none_right_eq_some.1 h
    obtain ⟨⟨t, u⟩, htime, hrest⟩ := Option.bind_eq_some_iff.1 hafter
    obtain ⟨ts, e, rfl, hts⟩ := exists_timeText htime
    dsimp only at hrest
    split at hrest
    · next hnil =>
      rw [hnil, List.append_nil]
      exact ⟨_, .civil hds hseparator hts⟩
    · obtain ⟨o, ho, -⟩ := Option.map_eq_some_iff.1 hrest
      obtain ⟨e', hshift⟩ := exists_shiftText ho
      exact ⟨_, .instant hds hseparator hts hshift⟩
  · split at h
    · next t htime =>
      obtain ⟨ts, e, rfl, hts⟩ := exists_timeText htime
      exact ⟨_, by rw [List.append_nil]; exact .time hts⟩
    · cases h

end Toml

end Enrollment
