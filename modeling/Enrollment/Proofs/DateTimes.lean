import Enrollment.Proofs.DateTimeText
import Enrollment.Proofs.WholeNumbers

/-!
# Dates and times in a file

A date or time is a word (`DateTimeText.isWord`), also where a space stands
between its two parts, and it is no number: in front of its first sign or colon
are digits alone, and a number has neither after a digit but in an exponent.  So
its value is the text of what is kept of it (`DateTimeText.wordValue?`).  A
header that a file gives so is loaded as this text, which given in its place is
loaded as itself (`load_dateTime`).
-/

namespace Enrollment

namespace Toml

/-! ## As a word -/

theorem isWordChar_of_isDigit {c : Char} (h : c.isDigit = true) : isWordChar c = true := by
  simp [isWordChar, Char.isAlphanum, h]

theorem Numeral.word {places : Nat} {cs : List Char} {n : Nat} (h : Numeral places cs n) :
    ∀ c ∈ cs, isWordChar c = true :=
  fun c hc => isWordChar_of_isDigit (h.digits c hc)

theorem DateText.word {cs : List Char} {d : Date} (h : DateText cs d) :
    ∀ c ∈ cs, isWordChar c = true := by
  obtain ⟨year, month, day, -⟩ := h
  simp only [List.forall_mem_append, List.forall_mem_cons]
  exact ⟨year.word, rfl, month.word, rfl, day.word⟩

theorem SecondText.word {cs : List Char} {s : Option ExactSecond} (h : SecondText cs s) :
    ∀ c ∈ cs, isWordChar c = true := by
  cases h with
  | none => exact fun c hc => absurd hc List.not_mem_nil
  | whole second _ => exact List.forall_mem_cons.2 ⟨rfl, second.word⟩
  | part second _ _ digits =>
    simp only [List.forall_mem_append, List.forall_mem_cons]
    exact ⟨rfl, second.word, rfl, fun c hc => isWordChar_of_isDigit (digits c hc)⟩

theorem TimeText.word {cs : List Char} {t : ExactTime} (h : TimeText cs t) :
    ∀ c ∈ cs, isWordChar c = true := by
  obtain ⟨hour, -, minute, -, second⟩ := h
  simp only [List.forall_mem_append, List.forall_mem_cons]
  exact ⟨hour.word, rfl, minute.word, second.word⟩

theorem ShiftText.word {cs : List Char} {s : Shift} (h : ShiftText cs s) :
    ∀ c ∈ cs, isWordChar c = true := by
  cases h with
  | capital => exact List.forall_mem_singleton.2 rfl
  | small => exact List.forall_mem_singleton.2 rfl
  | ahead hour _ minute _ =>
    simp only [List.forall_mem_append, List.forall_mem_cons]
    exact ⟨rfl, hour.word, rfl, minute.word⟩
  | behind hour _ minute _ =>
    simp only [List.forall_mem_append, List.forall_mem_cons]
    exact ⟨rfl, hour.word, rfl, minute.word⟩

theorem Numeral.exists_cons {places : Nat} {cs : List Char} {n : Nat}
    (h : Numeral (places + 1) cs n) : ∃ d ds, cs = d :: ds ∧ d.isDigit = true := by
  obtain ⟨d, ds, rfl⟩ := List.exists_cons_of_length_eq_add_one h.length_eq
  exact ⟨d, ds, rfl, h.digits d List.mem_cons_self⟩

theorem TimeText.exists_cons {cs : List Char} {t : ExactTime} (h : TimeText cs t) :
    ∃ d s, cs = d :: s ∧ d.isDigit = true := by
  obtain ⟨hour, -, -, -, -⟩ := h
  obtain ⟨d, ds, rfl, hd⟩ := hour.exists_cons
  exact ⟨d, _, rfl, hd⟩

/-- A date is a word together with what begins with a digit after it, also after a space. -/
theorem DateText.isWord_append {ds rest : List Char} {c : Char} {d : Date} (date : DateText ds d)
    (separator : IsSeparator c) (hfirst : ∃ e s, rest = e :: s ∧ e.isDigit = true)
    (hrest : ∀ e ∈ rest, isWordChar e = true) : IsWord (ds ++ c :: rest) := by
  have hunbroken (hc : isWordChar c = true) : IsWord (ds ++ c :: rest) :=
    .unbroken (List.append_ne_nil_of_right_ne_nil ds (List.cons_ne_nil c rest))
      (List.forall_mem_append.2 ⟨date.word, List.forall_mem_cons.2 ⟨hc, hrest⟩⟩)
  rcases separator with rfl | rfl | rfl
  · exact hunbroken rfl
  · exact hunbroken rfl
  · obtain ⟨e, s, rfl, he⟩ := hfirst
    have hday : isDate ds = true := by
      have hdate := date.date? []
      rw [List.append_nil] at hdate
      rw [isDate, hdate]
    exact .spaced hday date.word he (List.forall_mem_cons.1 hrest).2

theorem DateTimeText.isWord {cs : List Char} {m : Moment} (h : DateTimeText cs m) : IsWord cs := by
  cases h with
  | instant date separator time shift =>
    obtain ⟨e, s, hcs, he⟩ := time.exists_cons
    exact date.isWord_append separator ⟨e, _, congrArg (· ++ _) hcs, he⟩
      (List.forall_mem_append.2 ⟨time.word, shift.word⟩)
  | civil date separator time => exact date.isWord_append separator time.exists_cons time.word
  | date date =>
    have hne := date.word
    obtain ⟨year, -, -, -⟩ := date
    exact .unbroken (List.append_ne_nil_of_right_ne_nil _ (List.cons_ne_nil _ _)) hne
  | time time =>
    obtain ⟨e, s, rfl, -⟩ := time.exists_cons
    exact .unbroken (List.cons_ne_nil e s) time.word

theorem not_isControl_of_isWordChar {c : Char} (h : isWordChar c = true) : ¬ IsControl c := by
  have hall : ∀ n : Fin 128, IsControl (Char.ofNat n) → isWordChar (Char.ofNat n) = false := by
    decide +kernel
  intro hcontrol
  have hlt : c.toNat < 128 := by
    unfold IsControl at hcontrol
    omega
  have hnot := hall ⟨c.toNat, hlt⟩
  rw [Char.ofNat_toNat, h] at hnot
  cases hnot hcontrol

/-- What is a word stands for itself between marks. -/
theorem IsWord.quotable {cs : List Char} (h : IsWord cs) :
    ∀ c ∈ cs, c ≠ '\'' ∧ (IsControl c → c = '\t') := by
  have hspace : ' ' ≠ '\'' ∧ (IsControl ' ' → ' ' = '\t') := by
    decide
  have hword {c : Char} (hc : isWordChar c = true) : c ≠ '\'' ∧ (IsControl c → c = '\t') := by
    refine ⟨?_, fun hcontrol => absurd hcontrol (not_isControl_of_isWordChar hc)⟩
    rintro rfl
    cases hc
  cases h with
  | unbroken _ h => exact fun c hc => hword (h c hc)
  | spaced _ hdate hd h =>
    simp only [List.forall_mem_append, List.forall_mem_cons]
    exact ⟨fun c hc => hword (hdate c hc), hspace, hword (isWordChar_of_isDigit hd),
      fun c hc => hword (h c hc)⟩

/-! ## As nothing else -/

/-- A text begins with digits and then a sign or a colon. -/
inductive Dated : List Char → Prop where
  | mk {d c : Char} {ds : List Char} (first : d.isDigit = true)
      (digits : ∀ e ∈ ds, e.isDigit = true) (sign : c = '-' ∨ c = ':') (r : List Char) :
      Dated (d :: (ds ++ c :: r))

theorem Numeral.dated {places : Nat} {cs : List Char} {n : Nat} (h : Numeral (places + 1) cs n)
    {c : Char} (hc : c = '-' ∨ c = ':') (r : List Char) : Dated (cs ++ c :: r) := by
  obtain ⟨d, ds, rfl, hd⟩ := h.exists_cons
  exact .mk hd (fun e he => h.digits e (List.mem_cons_of_mem d he)) hc r

theorem DateTimeText.dated {cs : List Char} {m : Moment} (h : DateTimeText cs m) : Dated cs := by
  have hdate : ∀ {ds d} (r : List Char), DateText ds d → Dated (ds ++ r) := by
    rintro _ d r ⟨year, -, -, -⟩
    rw [List.append_assoc, List.cons_append]
    exact year.dated (.inl rfl) _
  cases h with
  | instant date _ _ _ => exact hdate _ date
  | civil date _ _ => exact hdate _ date
  | date date =>
    rw [← List.append_nil cs]
    exact hdate [] date
  | time time =>
    obtain ⟨hour, -, -, -, -⟩ := time
    exact hour.dated (.inr rfl) _

theorem decimalDigits?_eq_none_of_mem {cs : List Char} {c : Char} (hmem : c ∈ cs)
    (hc : c = '-' ∨ c = ':') : decimalDigits? cs = none := by
  unfold decimalDigits?
  split
  · next ds hds =>
    have hchar := isDecimalChar_of_grouped (Radix.grouped_of_ungroup? hds) c hmem
    rcases hc with rfl | rfl
    · exact absurd rfl hchar.not_date
    · exact absurd rfl hchar.not_time
  · rfl

namespace Dated

variable {cs : List Char} (h : Dated cs)

include h

theorem head?_ne {c : Char} (hc : c.isDigit = false) : cs.head? ≠ some c := by
  obtain ⟨first, -, -, -⟩ := h
  rintro ⟨⟩
  rw [hc] at first
  cases first

theorem wholeNumber?_eq_none : wholeNumber? cs = none := by
  rw [Option.eq_none_iff_forall_ne_some]
  intro n hn
  obtain ⟨e, s, heq, -, -, -, -, hrest⟩ := (wholeNumber?_eq_some_iff.1 hn).exists_cons
  obtain @⟨d, c, ds, -, -, sign, r⟩ := h
  obtain ⟨-, rfl⟩ := List.cons.inj heq
  have hchar := hrest c (List.mem_append_right ds List.mem_cons_self)
  rcases sign with rfl | rfl
  · exact hchar.not_date rfl
  · exact hchar.not_time rfl

/-- The sign or colon comes before any exponent and any point, among what should be digits. -/
theorem float?_eq_none : float? cs = none := by
  suffices hdigits : decimalDigits? ((cs.takeWhile fun c => !isExponentMark c).takeWhile
      (· ≠ '.')) = none by
    have hnone : Toml.float? ([] ++ cs) = none :=
      Toml.float?_eq_none (h.head?_ne rfl) (h.head?_ne rfl) .none
        ⟨h.head?_ne rfl, h.head?_ne rfl⟩ (fractional?_eq_none_of_digits hdigits)
    exact hnone
  obtain @⟨d, c, ds, first, digits, sign, r⟩ := h
  have hfront {p : Char → Bool} (hdigit : ∀ e : Char, e.isDigit = true → p e = true)
      (hsign : p c = true) (s : List Char) :
      (d :: (ds ++ c :: s)).takeWhile p = d :: (ds ++ c :: s.takeWhile p) := by
    rw [List.takeWhile_cons_of_pos (hdigit d first),
      List.takeWhile_append_of_pos fun e he => hdigit e (digits e he),
      List.takeWhile_cons_of_pos hsign]
  have hpower (e : Char) (he : e.isDigit = true) : (!isExponentMark e) = true := by
    rw [Bool.not_eq_true', ← Bool.not_eq_true]
    intro hmark
    simp only [isExponentMark, Bool.or_eq_true, decide_eq_true_eq] at hmark
    rcases hmark with rfl | rfl
    all_goals cases he
  have hpoint (e : Char) (he : e.isDigit = true) : decide (e ≠ '.') = true := by
    refine decide_eq_true ?_
    rintro rfl
    cases he
  have hsign : (!isExponentMark c) = true ∧ decide (c ≠ '.') = true := by
    rcases sign with rfl | rfl
    all_goals decide
  rw [hfront hpower hsign.1, hfront hpoint hsign.2]
  exact decimalDigits?_eq_none_of_mem
    (List.mem_cons_of_mem d (List.mem_append_right ds List.mem_cons_self)) sign

end Dated

/-- The value of a date or time is the text of what is kept of it. -/
theorem DateTimeText.wordValue? {cs : List Char} {m : Moment} (h : DateTimeText cs m) :
    wordValue? cs = some (.text (String.ofList m.kept.text)) := by
  have htrue : cs ≠ "true".toList := by
    rintro rfl
    exact h.dated.head?_ne (c := 't') rfl rfl
  have hfalse : cs ≠ "false".toList := by
    rintro rfl
    exact h.dated.head?_ne (c := 'f') rfl rfl
  obtain ⟨x, hx, htext⟩ := h.exists_parse?
  rw [Toml.wordValue?, if_neg htrue, if_neg hfalse, integer?, h.dated.wholeNumber?_eq_none,
    h.dated.float?_eq_none, hx, Option.map_some, htext]
  rfl

end Toml

namespace Settings

open Value
open Environment (Garbled Names keyOf)
open Toml (DateTime DateTimeText Literal Moment)

/-! ## Loading -/

section

variable {files : Files} {env : Environment} {path : Option String} {p : String} {closed : Bool}
  {text : List Char}

theorem fileLayer_of_dateTimeText {m : Moment} (h : DateTimeText text m)
    (hs : source? files (pathUsed env path) =
      some ⟨p, Utf8.encode (Setting.header.file closed text)⟩) :
    fileLayer files (pathUsed env path) = .ok [("output", .table (some p)
      [("header", .leaf (some p) (.text (String.ofList m.kept.text)))])] := by
  rw [fileLayer_of_literal (.word text h.isWord) hs, Literal.value?, h.wordValue?]
  rfl

/-- The header may be given as a date or time, and the texts that are read so are those of the
grammar.  Such a header is loaded, if all variables that count have texts and none reaches a
setting, as a text that is a date or time again and says the same but for places of a second past
the ninth.  Whatever the variables are, this text loads as the first did where it is given in its
place, with marks around it or without. -/
theorem load_dateTime
    (hs : source? files (pathUsed env path) =
      some ⟨p, Utf8.encode (Setting.header.file closed text)⟩) :
    ((DateTime.parse? text).isSome = true ↔ ∃ m, DateTimeText text m) ∧
    ∀ m, DateTimeText text m → ∃ header : String, DateTimeText header.toList m.cut ∧
      ((∀ v ∈ env, ¬ Garbled v) → (∀ v ∈ env, ∀ n, Names v.1 n → ¬ IsBelow (keyOf n)) →
        load files env path = .ok { standard with header }) ∧
      ∀ (files' : Files) (closed' : Bool) (given : List Char),
        given = header.toList ∨ given = '\'' :: header.toList ++ ['\''] →
        source? files' (pathUsed env path) =
          some ⟨p, Utf8.encode (Setting.header.file closed' given)⟩ →
        load files' env path = load files env path := by
  refine ⟨⟨fun hsome => ?_, ?_⟩, fun m h => ?_⟩
  · obtain ⟨x, hx⟩ := Option.isSome_iff_exists.1 hsome
    exact Toml.exists_dateTimeText hx
  · rintro ⟨m, h⟩
    obtain ⟨x, hx, -⟩ := h.exists_parse?
    exact Option.isSome_iff_exists.2 ⟨x, hx⟩
  · have hfile := fileLayer_of_dateTimeText h hs
    have hagain := h.text_kept
    refine ⟨String.ofList m.kept.text, ?_, fun hgood hbeside => ?_, ?_⟩
    · rw [String.toList_ofList]
      exact hagain
    · rw [load_of_beside hfile hgood hbeside, layBelow_cons_of_some below?_output]
      rfl
    · rw [String.toList_ofList]
      rintro files' closed' given (rfl | rfl) hs'
      · -- What is kept of what has been cut is what was kept before.
        have hfile' := fileLayer_of_dateTimeText hagain hs'
        rw [m.kept_cut] at hfile'
        apply load_eq_of_fileLayer_eq
        rw [hfile, hfile']
      · have hfile' := fileLayer_of_literal (.literal m.kept.text hagain.isWord.quotable) hs'
        apply load_eq_of_fileLayer_eq
        rw [hfile, hfile']
        rfl

end

/-- A leap second after a space, with ten places and an offset of nothing behind universal time. -/
theorem load_dateTime_leap_second :
    let text := "1979-05-27 23:59:60.1000000009-00:00".toList
    let header := "1979-05-27T23:59:60.1+00:00"
    let content := Utf8.encode (Setting.header.file true text)
    let content' := Utf8.encode (Setting.header.file false header.toList)
    let files := (Files.empty default).write "c.toml" content
    let files' := (Files.empty default).write "c.toml" content'
    let env : Environment := []
    let m := Moment.instant ⟨1979, 5, 27⟩
      ⟨23, 59, some ⟨60, some (Toml.partOf "1000000009".toList)⟩⟩ (.minutes 0)
    source? files (pathUsed env (some "c.toml")) = some ⟨"c.toml", content⟩ ∧
      DateTimeText text m ∧ DateTimeText header.toList m.cut ∧
      load files env (some "c.toml") = .ok { standard with header } ∧
      load files' env (some "c.toml") = .ok { standard with header } := by
  intro text header content content' files files' env m
  have hname : nameOf default "c.toml" = "c.toml" := by decide +kernel
  have hs : source? files (pathUsed env (some "c.toml")) = some ⟨"c.toml", content⟩ :=
    source?_alone hname content
  have hs' : source? files' (pathUsed env (some "c.toml")) = some ⟨"c.toml", content'⟩ :=
    source?_alone hname content'
  have hm : DateTimeText text m := by
    have hnumeral {places n : Nat} {cs : List Char} (h : cs.length = places ∧
        cs.all Char.isDigit = true ∧ Decimal.value cs = n) : Toml.Numeral places cs n :=
      ⟨h.1, List.all_eq_true.1 h.2.1, h.2.2⟩
    have hdate : Toml.DateText "1979-05-27".toList ⟨1979, 5, 27⟩ := by
      have hsplit : "1979-05-27".toList =
          "1979".toList ++ '-' :: ("05".toList ++ '-' :: "27".toList) := by decide +kernel
      rw [hsplit]
      exact .mk (hnumeral (by decide +kernel)) (hnumeral (by decide +kernel))
        (hnumeral (by decide +kernel)) rfl
    have htime : Toml.TimeText "23:59:60.1000000009".toList
        ⟨23, 59, some ⟨60, some (Toml.partOf "1000000009".toList)⟩⟩ := by
      have hsplit : "23:59:60.1000000009".toList = "23".toList ++ ':' :: ("59".toList ++
          ':' :: ("60".toList ++ '.' :: "1000000009".toList)) := by decide +kernel
      rw [hsplit]
      exact .mk (hnumeral (by decide +kernel)) (by decide) (hnumeral (by decide +kernel))
        (by decide) (.part (hnumeral (by decide +kernel)) (by decide) (by decide +kernel)
          (List.all_eq_true.1 (by decide +kernel)))
    have hshift : Toml.ShiftText "-00:00".toList (.minutes 0) := by
      have hsplit : "-00:00".toList = '-' :: ("00".toList ++ ':' :: "00".toList) := by
        decide +kernel
      rw [hsplit]
      exact .behind (h := 0) (m := 0) (hnumeral (by decide +kernel)) (by decide)
        (hnumeral (by decide +kernel)) (by decide)
    have hsplit : text = "1979-05-27".toList ++ ' ' :: ("23:59:60.1000000009".toList ++
        "-00:00".toList) := by decide +kernel
    rw [hsplit]
    exact .instant hdate (.inr (.inr rfl)) htime hshift
  obtain ⟨loaded, hcut, hload, hsame⟩ := (load_dateTime hs).2 m hm
  have hresult : load files env (some "c.toml") = .ok { standard with header } := by
    decide +kernel
  have hloaded : loaded = header := by
    have hok := (hload (fun v hv => absurd hv List.not_mem_nil)
      fun v hv => absurd hv List.not_mem_nil).symm.trans hresult
    exact congrArg Settings.header (Except.ok.inj hok)
  subst hloaded
  exact ⟨hs, hm, hcut, hresult, (hsame files' false _ (.inl rfl) hs').trans hresult⟩

end Settings

end Enrollment
