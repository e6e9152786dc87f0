import Enrollment.Proofs.Quotation

/-!
# Simple values as they are written

A simple value is written as a quotation on one line or as a word, which may be
a boolean, a number of any size, a date or a time.  What a word says is decided
by all of it at once, and it may come to nothing.  The value parser takes
exactly what was written, whatever comes after it that cannot belong to it, and
has no result where there is no value (`Literal.value_run`).
-/

namespace Enrollment.Toml

open Enrollment.Parser

/-! ## Quotations -/

/-- A character of a basic string as it is written: as itself, by a letter after a backslash, or
by its number. -/
inductive Piece where
  | plain (c : Char) (h : isTextual c = true ∧ c ≠ '"' ∧ c ≠ '\\')
  | letter (l c : Char) (h : escapeLetter? l = some c)
  | number (l : Char) (ds : List Char) (places : escapeDigits? l = some ds.length)
      (digits : ∀ d ∈ ds, Radix.isDigit 16 d) (valid : (Radix.value 16 ds).isValidChar)

theorem escapeLetter?_eq_none {l : Char} {n : Nat} (h : escapeDigits? l = some n) :
    escapeLetter? l = none := by
  unfold escapeDigits? at h
  split at h
  · rfl
  · rfl
  · rfl
  · cases h

namespace Piece

def text : Piece → List Char
  | plain c _ => [c]
  | letter l _ _ => ['\\', l]
  | number l ds _ _ _ => '\\' :: l :: ds

def char : Piece → Char
  | plain c _ => c
  | letter _ c _ => c
  | number _ ds _ _ _ => Char.ofNat (Radix.value 16 ds)

theorem readsAs (p : Piece) : basicChar.ReadsAs text char p := by
  intro r
  cases p with
  | plain c h =>
    obtain ⟨htextual, hquote, hslash⟩ := h
    have hescape : escape.run (c :: r) = none := by
      simp [escape, hslash]
    simp [basicChar, orElse, text, char, hescape, satisfy, htextual, hquote, hslash]
  | letter l c h =>
    simp only [basicChar, orElse, escape, text, char, List.cons_append, h, List.nil_append,
      Option.some_or]
  | number l ds places digits valid =>
    simp only [basicChar, orElse, escape, text, char, List.cons_append,
      escapeLetter?_eq_none places, places, Option.bind_some, codePoint?_append digits valid,
      Option.some_or]

end Piece

/-! ## Words -/

/-- A word that may have a value: all of one piece, or a date and then, after a space, what may be
a time. -/
inductive IsWord : List Char → Prop
  | unbroken {cs : List Char} (ne : cs ≠ []) (h : ∀ c ∈ cs, isWordChar c) : IsWord cs
  | spaced {date cs : List Char} {d : Char} (day : isDate date = true)
      (hdate : ∀ c ∈ date, isWordChar c) (hd : d.isDigit = true) (h : ∀ c ∈ cs, isWordChar c) :
      IsWord (date ++ ' ' :: d :: cs)

/-- Whether a name or a simple value may begin with a character. -/
def isOpening (c : Char) : Bool :=
  isWordChar c || c = '"' || c = '\''

/-- A simple value is over here: no mark and no part of a word follows, and no time of day. -/
structure Ends (r : List Char) : Prop where
  not_opening : ∀ c, r.head? = some c → isOpening c = false
  not_time : ∀ d s, r = ' ' :: d :: s → d.isDigit = false

theorem ne_of_isOpening {c d : Char} (hc : isOpening c = true) (hd : isOpening d = false) :
    c ≠ d := by
  rintro rfl
  rw [hc] at hd
  cases hd

theorem takeWhile_exact {p : Char → Bool} {cs r : List Char} (h : ∀ c ∈ cs, p c)
    (hr : ∀ c, r.head? = some c → p c = false) :
    (cs ++ r).takeWhile p = cs ∧ (cs ++ r).dropWhile p = r := by
  rw [List.takeWhile_append_of_pos h, List.dropWhile_append_of_pos h]
  cases r with
  | nil => exact ⟨List.append_nil cs, rfl⟩
  | cons c r =>
    have hc : ¬ p c = true := Bool.eq_false_iff.1 (hr c rfl)
    rw [List.takeWhile_cons_of_neg hc, List.dropWhile_cons_of_neg hc, List.append_nil]
    exact ⟨rfl, rfl⟩

theorem Ends.nil : Ends [] :=
  ⟨nofun, nofun⟩

theorem Ends.cons {c : Char} (hc : isOpening c = false) (hspace : c ≠ ' ') (r : List Char) :
    Ends (c :: r) := by
  refine ⟨fun d hd => ?_, fun d s h => absurd (List.cons.inj h).1 hspace⟩
  cases hd
  exact hc

theorem Ends.head?_ne {r : List Char} (h : Ends r) {q : Char} (hq : isOpening q = true) :
    r.head? ≠ some q := by
  intro hhead
  rw [h.not_opening q hhead] at hq
  cases hq

theorem Ends.not_word {r : List Char} (h : Ends r) {c : Char} (hc : r.head? = some c) :
    isWordChar c = false := by
  have hnot := h.not_opening c hc
  simp only [isOpening, Bool.or_eq_false_iff] at hnot
  exact hnot.1.1

theorem IsWord.splitWord_append {cs r : List Char} (h : IsWord cs) (hr : Ends r) :
    splitWord (cs ++ r) = (cs, r) := by
  cases h with
  | unbroken ne h =>
    obtain ⟨htake, hdrop⟩ := takeWhile_exact h fun c => hr.not_word
    unfold splitWord
    dsimp only
    rw [htake, hdrop]
    split
    · next c s =>
      rw [hr.not_time c s rfl, Bool.and_false, if_neg Bool.false_ne_true]
    · rfl
  | @spaced date cs d day hdate hd h =>
    -- The space ends the date, and what follows it is gathered a second time up to the end.
    have hdigit : isWordChar d = true := by
      simp [isWordChar, Char.isAlphanum, hd]
    obtain ⟨htake, hdrop⟩ := takeWhile_exact hdate (r := ' ' :: d :: (cs ++ r))
      fun c hc => by cases hc; rfl
    obtain ⟨htake', hdrop'⟩ := takeWhile_exact (List.forall_mem_cons.2 ⟨hdigit, h⟩)
      fun c => hr.not_word
    rw [List.cons_append] at htake' hdrop'
    rw [List.append_assoc, List.cons_append, List.cons_append]
    unfold splitWord
    dsimp only
    rw [htake, hdrop]
    simp only [day, hd, Bool.and_self, if_true, htake', hdrop']

theorem IsWord.exists_cons {cs : List Char} (h : IsWord cs) :
    ∃ c s, cs = c :: s ∧ isWordChar c = true := by
  cases h with
  | unbroken ne h =>
    obtain ⟨c, s, rfl⟩ := List.exists_cons_of_ne_nil ne
    exact ⟨c, s, rfl, h c List.mem_cons_self⟩
  | @spaced date cs d day hdate hd h =>
    cases date with
    | nil => cases day
    | cons c s => exact ⟨c, _, rfl, hdate c List.mem_cons_self⟩

theorem IsWord.word_run {cs r : List Char} (h : IsWord cs) (hr : Ends r) :
    word.run (cs ++ r) = (wordValue? cs).map fun x => (x, r) := by
  obtain ⟨c, s, rfl, -⟩ := h.exists_cons
  simp only [word, h.splitWord_append hr, if_neg (List.cons_ne_nil c s)]

/-! ## Values -/

/-- A simple value as it is written. -/
inductive Literal where
  | basic (pieces : List Piece)
  | literal (cs : List Char) (h : ∀ c ∈ cs, c ≠ '\'' ∧ (IsControl c → c = '\t'))
  | word (cs : List Char) (h : IsWord cs)

theorem quotation_run_eq_none {c : Char} (hbasic : c ≠ '"') (hliteral : c ≠ '\'') (s : List Char) :
    quotation.run (c :: s) = none := by
  simp [quotation, orElse, multilineBasic, multilineLiteral, surroundedThrice, basic, Toml.literal,
    surrounded, hbasic, hliteral]

/-- What begins as a simple value is a simple value or none. -/
theorem value_run_of_isOpening {c : Char} (h : isOpening c = true) (s : List Char) (depth : Nat) :
    (value depth).run (c :: s) = simpleValue.run (c :: s) := by
  have hlist : c ≠ '[' := ne_of_isOpening h (by decide)
  have htable : c ≠ '\x7b' := ne_of_isOpening h (by decide)
  cases depth with
  | zero => rfl
  | succ depth =>
    simp only [value, orElse, map, mapOption, enclosed, takeEnclosed, if_neg hlist, if_neg htable,
      Option.map_none, Option.bind_none, Option.or_none]

namespace Literal

def text : Literal → List Char
  | basic pieces => '"' :: pieces.flatMap Piece.text ++ ['"']
  | literal cs _ => '\'' :: cs ++ ['\'']
  | word cs _ => cs

/-- The value that is written, if there is one. -/
def value? : Literal → Option Scalar
  | basic pieces => some (.text (String.ofList (pieces.map Piece.char)))
  | literal cs _ => some (.text (String.ofList cs))
  | word cs _ => wordValue? cs

variable (l : Literal)

theorem exists_cons : ∃ c s, l.text = c :: s ∧ isOpening c = true := by
  cases l with
  | basic pieces => exact ⟨'"', _, rfl, rfl⟩
  | literal cs h => exact ⟨'\'', _, rfl, rfl⟩
  | word cs h =>
    obtain ⟨c, s, hcs, hc⟩ := h.exists_cons
    refine ⟨c, s, hcs, ?_⟩
    rw [isOpening, hc]
    rfl

theorem simpleValue_run {r : List Char} (hr : Ends r) :
    simpleValue.run (l.text ++ r) = l.value?.map fun x => (.leaf .value x, r) := by
  cases l with
  | basic pieces =>
    have hrun := quotation_run_basic (fun p (_ : p ∈ pieces) => p.readsAs) (hr.head?_ne rfl)
    simp only [simpleValue, map, orElse, text, hrun, value?, Option.map_some, Option.some_or]
  | literal cs h =>
    have hrun := quotation_run_literal h (hr.head?_ne rfl)
    simp only [simpleValue, map, orElse, text, hrun, value?, Option.map_some, Option.some_or]
  | word cs h =>
    have hword := h.word_run hr
    obtain ⟨c, s, rfl, hc⟩ := h.exists_cons
    have hquote : quotation.run (c :: s ++ r) = none := by
      refine quotation_run_eq_none ?_ ?_ (s ++ r)
      · rintro rfl
        cases hc
      · rintro rfl
        cases hc
    simp only [simpleValue, map, orElse, text, hquote, hword, value?, Option.map_none,
      Option.none_or, Option.map_map]
    rfl

/-- A simple value is read as what it says, however deep values may go, and where it says nothing
nothing else is read in its place. -/
theorem value_run {r : List Char} (hr : Ends r) (depth : Nat) :
    (value depth).run (l.text ++ r) = l.value?.map fun x => (.leaf .value x, r) := by
  rw [← l.simpleValue_run hr]
  obtain ⟨c, s, hs, hc⟩ := l.exists_cons
  rw [hs]
  exact value_run_of_isOpening hc (s ++ r) depth

end Literal

end Enrollment.Toml
