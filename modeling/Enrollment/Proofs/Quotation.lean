import Enrollment.Toml.Value
import Mathlib.Algebra.Group.Nat.Defs

/-!
# Writing a text in quotation marks

Every text has quotations that are read as it.  In a basic string each character
may be given by its number (`numbered`), or stand for itself where it is neither
a mark nor a control character (`escaped`); a literal string takes characters
only as they are.  That a character is read back is shown whatever comes after
it (`readsBack_escaped`, `readsBack_numbered`), so all between the marks are
(`many_flatMap`), and a quotation of a text is read as the value that the text
is (`Quotes.value_run`).
-/

namespace Enrollment

/-! ## Hexadecimal numbers -/

namespace Radix

/-- A hexadecimal digit, as a capital or a small letter from ten on. -/
def hexDigit (capital : Bool) (d : Nat) : Char :=
  if d < 10 then Char.ofNat ('0'.toNat + d)
  else Char.ofNat ((if capital then 'A' else 'a').toNat + (d - 10))

/-- The last so many hexadecimal digits of a number.  Each place has its own kind of letters. -/
def hexDigits (capital : Nat → Bool) : Nat → Nat → List Char
  | 0, _ => []
  | places + 1, n => hexDigits capital places (n / 16) ++ [hexDigit (capital places) (n % 16)]

theorem hexDigit_spec (capital : Bool) (d : Fin 16) :
    digitValue (hexDigit capital d) = d ∧ isDigit 16 (hexDigit capital d) := by
  revert capital d
  decide +kernel

theorem digitValue_hexDigit (capital : Bool) {d : Nat} (h : d < 16) :
    digitValue (hexDigit capital d) = d :=
  (hexDigit_spec capital ⟨d, h⟩).1

theorem isDigit_hexDigit (capital : Bool) {d : Nat} (h : d < 16) :
    isDigit 16 (hexDigit capital d) :=
  (hexDigit_spec capital ⟨d, h⟩).2

variable (capital : Nat → Bool)

theorem length_hexDigits (places n : Nat) : (hexDigits capital places n).length = places := by
  induction places generalizing n with
  | zero => rfl
  | succ places ih => rw [hexDigits, List.length_append, ih, List.length_singleton]

theorem isDigit_of_mem_hexDigits {places n : Nat} {c : Char} (h : c ∈ hexDigits capital places n) :
    isDigit 16 c := by
  induction places generalizing n with
  | zero => cases h
  | succ places ih =>
    rcases List.mem_append.1 h with h | h
    · exact ih h
    · rw [List.mem_singleton.1 h]
      exact isDigit_hexDigit _ (Nat.mod_lt n (by decide))

/-- The digits say which number it is, if there are enough of them. -/
theorem value_hexDigits {places n : Nat} (h : n < 16 ^ places) :
    value 16 (hexDigits capital places n) = n := by
  induction places generalizing n with
  | zero =>
    rw [pow_zero, Nat.lt_one_iff] at h
    rw [h]
    rfl
  | succ places ih =>
    have hhigh : n / 16 < 16 ^ places := Nat.div_lt_of_lt_mul (by rwa [pow_succ'] at h)
    have hlow : n % 16 < 16 := Nat.mod_lt n (by decide)
    have hvalue : value 16 (hexDigits capital places (n / 16)) * 16 + n % 16 = n := by
      rw [ih hhigh, Nat.div_add_mod']
    rw [hexDigits, value, List.foldl_append, List.foldl_cons, List.foldl_nil,
      digitValue_hexDigit _ hlow]
    exact hvalue

end Radix

/-! ## Repetition -/

namespace Parser

variable {α ι : Type} {p : Parser α} {spell : ι → List Char} {value : ι → α}

/-- What spells something is read as its value, whatever comes after it. -/
def ReadsAs (p : Parser α) (spell : ι → List Char) (value : ι → α) (i : ι) : Prop :=
  ∀ r, p.run (spell i ++ r) = some (value i, r)

/-- What spells a value is read as this value, whatever comes after it. -/
abbrev ReadsBack (p : Parser α) (spell : α → List Char) (a : α) : Prop :=
  p.ReadsAs spell id a

/-- What is read piece by piece is read as all its values, one after another. -/
theorem many_flatMap {is : List ι} (h : ∀ i ∈ is, p.ReadsAs spell value i) {r : List Char}
    (hr : p.run r = none) : p.many (is.flatMap spell ++ r) = (is.map value, r) := by
  induction is with
  | nil => exact many_of_none hr
  | cons i is ih =>
    have hhead := h i List.mem_cons_self (is.flatMap spell ++ r)
    have hrest := ih fun j hj => h j (List.mem_cons_of_mem _ hj)
    rw [List.flatMap_cons, List.append_assoc, many_of_some hhead, hrest, List.map_cons]

end Parser

namespace Toml

open Enrollment.Parser

/-! ## Characters -/

/-- A control character. -/
def IsControl (c : Char) : Prop :=
  c.toNat < 0x20 ∨ c.toNat = 0x7F

instance (c : Char) : Decidable (IsControl c) :=
  inferInstanceAs (Decidable (_ ∨ _))

/-- A character by so many digits of its number, after a backslash and a letter. -/
def numbered (letter : Char) (places : Nat) (capital : Char → Nat → Bool) (c : Char) : List Char :=
  '\\' :: letter :: Radix.hexDigits (capital c) places c.toNat

/-- A mark with a backslash before it, a control character by four digits of its number, and any
other character as it is. -/
def escaped (capital : Char → Nat → Bool) (c : Char) : List Char :=
  if c = '"' ∨ c = '\\' then ['\\', c]
  else if IsControl c then numbered 'u' 4 capital c
  else [c]

theorem isTextual_iff {c : Char} : isTextual c ↔ c = '\t' ∨ ¬ IsControl c := by
  simp only [isTextual, IsControl, Bool.or_eq_true, decide_eq_true_eq, not_or, Nat.not_lt]

theorem codePoint?_append {ds : List Char} (hdigits : ∀ d ∈ ds, Radix.isDigit 16 d)
    (hvalid : (Radix.value 16 ds).isValidChar) (r : List Char) :
    codePoint? ds.length (ds ++ r) = some (Char.ofNat (Radix.value 16 ds), r) := by
  unfold codePoint?
  dsimp only
  rw [List.take_left, List.drop_left, if_pos ⟨rfl, List.all_eq_true.2 hdigits, hvalid⟩]

theorem codePoint?_hexDigits (capital : Nat → Bool) {c : Char} {places : Nat}
    (h : c.toNat < 16 ^ places) (r : List Char) :
    codePoint? places (Radix.hexDigits capital places c.toNat ++ r) = some (c, r) := by
  have hvalue := Radix.value_hexDigits capital h
  have hvalid : (Radix.value 16 (Radix.hexDigits capital places c.toNat)).isValidChar := by
    rw [hvalue]
    exact c.valid
  have hpoint := codePoint?_append
    (fun d hd => Radix.isDigit_of_mem_hexDigits capital hd) hvalid r
  rwa [Radix.length_hexDigits, hvalue, Char.ofNat_toNat] at hpoint

theorem readsBack_numbered {letter : Char} {places : Nat} (hletter : escapeLetter? letter = none)
    (hplaces : escapeDigits? letter = some places) (capital : Char → Nat → Bool) {c : Char}
    (h : c.toNat < 16 ^ places) : basicChar.ReadsBack (numbered letter places capital) c := by
  intro r
  have hescape : escape.run (numbered letter places capital c ++ r) = some (c, r) := by
    simp only [escape, numbered, List.cons_append, hletter, hplaces, Option.bind_some]
    exact codePoint?_hexDigits (capital c) h r
  simp only [basicChar, orElse, hescape, Option.some_or, id_eq]

theorem readsBack_escaped (capital : Char → Nat → Bool) (c : Char) :
    basicChar.ReadsBack (escaped capital) c := by
  intro r
  unfold escaped
  split
  · next hmark =>
    rcases hmark with rfl | rfl <;> rfl
  · next hmark =>
    obtain ⟨hquote, hslash⟩ := not_or.1 hmark
    split
    · next hcontrol =>
      have hlt : c.toNat < 16 ^ 4 := by
        unfold IsControl at hcontrol
        omega
      exact readsBack_numbered rfl rfl capital hlt r
    · next hcontrol =>
      have hescape : escape.run (c :: r) = none := by
        simp [escape, hslash]
      have htextual : isTextual c := isTextual_iff.2 (.inr hcontrol)
      simp [basicChar, orElse, hescape, satisfy, htextual, hquote, hslash]

/-! ## Quotations -/

/-- A text is written as a quotation: a basic string in which its characters are escaped, or all
given by eight digits of their numbers, or a literal string if it has no control character but the
tab and no single mark. -/
inductive Quotes (cs : List Char) : List Char → Prop where
  | escaped (capital : Char → Nat → Bool) :
      Quotes cs ('"' :: cs.flatMap (escaped capital) ++ ['"'])
  | numbered (capital : Char → Nat → Bool) :
      Quotes cs ('"' :: cs.flatMap (numbered 'U' 8 capital) ++ ['"'])
  | literal (h : ∀ c ∈ cs, c ≠ '\'' ∧ (IsControl c → c = '\t')) :
      Quotes cs ('\'' :: cs ++ ['\''])

section Marks

variable {ι : Type} {q : Char} {p : Parser Char} {spell : ι → List Char} {value : ι → Char}
  {is : List ι} (h : ∀ i ∈ is, p.ReadsAs spell value i) (hq : ∀ r, p.run (q :: r) = none)

include h hq

theorem surrounded_run (r : List Char) :
    (surrounded q p).run (q :: is.flatMap spell ++ [q] ++ r) = some (is.map value, r) := by
  simp only [surrounded, List.cons_append, List.append_assoc, List.nil_append]
  rw [if_pos trivial, many_flatMap h (hq r), closeWith, if_pos rfl]

/-- A quotation on one line does not begin with three marks, unless one comes right after it. -/
theorem take_three_ne {r : List Char} (hr : r.head? ≠ some q) (d : Char) :
    (q :: is.flatMap spell ++ [q] ++ r).take 3 ≠ [d, d, d] := by
  intro htake
  obtain ⟨rfl, hrest⟩ : q = d ∧ (is.flatMap spell ++ q :: r).take 2 = [d, d] := by
    simpa using htake
  cases is with
  | nil =>
    cases r with
    | nil => cases hrest
    | cons d r =>
      obtain rfl : d = q := by simpa using hrest
      exact hr rfl
  | cons i is =>
    -- The first piece is read, so what spells it does not begin with a mark.
    have hrun := h i List.mem_cons_self (is.flatMap spell ++ q :: r)
    rw [List.flatMap_cons, List.append_assoc] at hrest
    generalize spell i ++ (is.flatMap spell ++ q :: r) = s at hrest hrun
    cases s with
    | nil => cases hrest
    | cons d s =>
      obtain rfl : d = q := (List.cons.inj hrest).1
      rw [hq] at hrun
      cases hrun

theorem surroundedThrice_run_eq_none {r : List Char} (hr : r.head? ≠ some q) (d : Char)
    (pieces : Parser (List Char)) :
    (surroundedThrice d pieces).run (q :: is.flatMap spell ++ [q] ++ r) = none :=
  if_neg (take_three_ne h hq hr d)

end Marks

theorem quotation_run_basic {ι : Type} {spell : ι → List Char} {value : ι → Char} {is : List ι}
    (h : ∀ i ∈ is, basicChar.ReadsAs spell value i) {r : List Char} (hr : r.head? ≠ some '"') :
    quotation.run ('"' :: is.flatMap spell ++ ['"'] ++ r) = some (is.map value, r) := by
  have hmark : ∀ r, basicChar.run ('"' :: r) = none := fun _ => rfl
  have hmultiline := surroundedThrice_run_eq_none h hmark hr
  have hbasic : basic.run ('"' :: is.flatMap spell ++ ['"'] ++ r) = some (is.map value, r) :=
    surrounded_run h hmark r
  simp only [quotation, orElse, multilineBasic, multilineLiteral, hmultiline, hbasic,
    Option.none_or, Option.some_or]

section Plain

theorem plain_run_mark (r : List Char) :
    (satisfy fun c => isTextual c && c ≠ '\'').run ('\'' :: r) = none :=
  rfl

variable {cs : List Char} (h : ∀ c ∈ cs, c ≠ '\'' ∧ (IsControl c → c = '\t'))

include h

theorem readsBack_plain : ∀ c ∈ cs,
    (satisfy fun c => isTextual c && c ≠ '\'').ReadsBack (fun c => [c]) c := by
  intro c hc r
  obtain ⟨hmark, hcontrol⟩ := h c hc
  have htextual : isTextual c := isTextual_iff.2 (Decidable.not_or_of_imp hcontrol).symm
  simp [satisfy, htextual, hmark]

theorem literal_run (r : List Char) : literal.run ('\'' :: cs ++ ['\''] ++ r) = some (cs, r) := by
  have hrun := surrounded_run (readsBack_plain h) plain_run_mark r
  rwa [List.flatMap_singleton', List.map_id] at hrun

theorem quotation_run_literal {r : List Char} (hr : r.head? ≠ some '\'') :
    quotation.run ('\'' :: cs ++ ['\''] ++ r) = some (cs, r) := by
  have hmultiline := surroundedThrice_run_eq_none (readsBack_plain h) plain_run_mark hr
  rw [List.flatMap_singleton' cs] at hmultiline
  have hbasic : basic.run ('\'' :: cs ++ ['\''] ++ r) = none := rfl
  simp only [quotation, orElse, multilineBasic, multilineLiteral, hmultiline, hbasic,
    literal_run h r, Option.none_or]

end Plain

/-- A quotation of a text is read as the text, unless a mark comes right after it. -/
theorem Quotes.quotation_run {cs quoted : List Char} (h : Quotes cs quoted) {r : List Char}
    (hbasic : r.head? ≠ some '"') (hliteral : r.head? ≠ some '\'') :
    quotation.run (quoted ++ r) = some (cs, r) := by
  cases h with
  | escaped capital =>
    have hspell : ∀ c ∈ cs, basicChar.ReadsBack (Toml.escaped capital) c :=
      fun c _ => readsBack_escaped capital c
    have hrun := quotation_run_basic hspell hbasic
    rwa [List.map_id] at hrun
  | numbered capital =>
    have hspell : ∀ c ∈ cs, basicChar.ReadsBack (Toml.numbered 'U' 8 capital) c := by
      intro c _
      have hvalid : c.toNat < 0xD800 ∨ 0xDFFF < c.toNat ∧ c.toNat < 0x110000 := c.valid
      have hlt : c.toNat < 16 ^ 8 := by omega
      exact readsBack_numbered rfl rfl capital hlt
    have hrun := quotation_run_basic hspell hbasic
    rwa [List.map_id] at hrun
  | literal hplain => exact quotation_run_literal hplain hliteral

/-- A quotation of a text is read as the value that the text is, however deep values may go. -/
theorem Quotes.value_run {cs quoted : List Char} (h : Quotes cs quoted) {r : List Char}
    (hbasic : r.head? ≠ some '"') (hliteral : r.head? ≠ some '\'') (depth : Nat) :
    (value depth).run (quoted ++ r) = some (.leaf .value (.text (String.ofList cs)), r) := by
  have hsimple : simpleValue.run (quoted ++ r) =
      some (.leaf .value (.text (String.ofList cs)), r) := by
    simp only [simpleValue, map, orElse, h.quotation_run hbasic hliteral, Option.map_some,
      Option.some_or]
  cases depth with
  | zero => exact hsimple
  | succ depth => simp only [value, orElse, hsimple, Option.some_or]

end Toml

end Enrollment
