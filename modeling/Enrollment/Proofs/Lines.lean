import Enrollment.Proofs.Literal
import Enrollment.Toml.Document

/-!
# Names, entries and lines as they are written

A name is written bare or as a quotation, a key as a name or as two with a dot
between them, and an entry as a key and a value with a sign between them.
Each is taken back by its parser (`NameText.name_run`, `KeyText.key_run`,
`entry_run`), so what a line says is known from how it is written (`Says`), and
so are the statements of a document, line by line (`Says.statements?_append`).
Where a value comes to nothing its line holds no statement, and there is no
document with such a line.
-/

namespace Enrollment.Toml

open Enrollment.Parser

/-! ## What is passed over -/

/-- Whether a character is never passed over: it is no blank, ends no line and begins no comment. -/
def isSolid (c : Char) : Bool :=
  !isBlank c && c ≠ '\n' && c ≠ '\r' && c ≠ '#'

theorem isSolid_of_isOpening {c : Char} (h : isOpening c = true) : isSolid c = true := by
  have hspace : c ≠ ' ' := ne_of_isOpening h (by decide)
  have htab : c ≠ '\t' := ne_of_isOpening h (by decide)
  have hnewline : c ≠ '\n' := ne_of_isOpening h (by decide)
  have hreturn : c ≠ '\r' := ne_of_isOpening h (by decide)
  have hcomment : c ≠ '#' := ne_of_isOpening h (by decide)
  simp [isSolid, isBlank, hspace, htab, hnewline, hreturn, hcomment]

theorem exists_cons_isSolid {cs : List Char} (h : ∃ c s, cs = c :: s ∧ isOpening c = true) :
    ∃ c s, cs = c :: s ∧ isSolid c = true := by
  obtain ⟨c, s, hs, hc⟩ := h
  exact ⟨c, s, hs, isSolid_of_isOpening hc⟩

theorem toNat_le_of_isAlphanum {c : Char} (h : c.isAlphanum = true) : c.toNat ≤ 0x7F := by
  have hle : ∀ d : Char, c.val ≤ d.val → d.toNat ≤ 0x7F → c.toNat ≤ 0x7F := fun d hd =>
    Nat.le_trans (UInt32.le_iff_toNat_le.1 hd)
  rcases Bool.or_eq_true_iff.1 h with h | hdigit
  · rcases Bool.or_eq_true_iff.1 h with hupper | hlower
    · exact hle 'Z' (of_decide_eq_true hupper).2 (by decide)
    · exact hle 'z' (of_decide_eq_true (Bool.and_eq_true_iff.1 hlower).2) (by decide)
  · exact hle '9' (of_decide_eq_true (Bool.and_eq_true_iff.1 hdigit).2) (by decide)

theorem toNat_le_of_isOpening {c : Char} (h : isOpening c = true) : c.toNat ≤ 0x7F := by
  simp only [isOpening, isWordChar, Bool.or_eq_true, decide_eq_true_eq] at h
  rcases h with ((((((h | rfl) | rfl) | rfl) | rfl) | rfl) | rfl) | rfl
  · exact toNat_le_of_isAlphanum h
  all_goals decide

theorem isOpening_of_isBare {c : Char} (h : isBare c = true) : isOpening c = true := by
  simp only [isBare, Bool.or_eq_true, decide_eq_true_eq] at h
  rcases h with (h | rfl) | rfl
  · simp [isOpening, isWordChar, h]
  · rfl
  · rfl

section Solid

variable {c : Char} (h : isSolid c = true) (s : List Char)

include h

theorem isBlank_of_isSolid : isBlank c = false := by
  simp only [isSolid, Bool.and_eq_true, Bool.not_eq_true'] at h
  exact h.1.1.1

theorem newline_run_of_isSolid : newline.run (c :: s) = none := by
  simp only [isSolid, Bool.and_eq_true, decide_eq_true_eq] at h
  obtain ⟨⟨⟨-, hnewline⟩, hreturn⟩, -⟩ := h
  simp [newline, hnewline, hreturn]

theorem comment_run_of_isSolid : comment.run (c :: s) = none := by
  simp only [isSolid, Bool.and_eq_true, decide_eq_true_eq] at h
  simp [comment, h.2]

theorem skipBlanks_of_isSolid : skipBlanks (c :: s) = c :: s :=
  List.dropWhile_cons_of_neg (Bool.eq_false_iff.1 (isBlank_of_isSolid h))

theorem filler_run_of_isSolid : filler.run (c :: s) = none := by
  have hblank := isBlank_of_isSolid h
  simp [filler, space, orElse, map, satisfy, hblank, newline_run_of_isSolid h s,
    comment_run_of_isSolid h s]

theorem skipFiller_of_isSolid : skipFiller (c :: s) = c :: s := by
  rw [skipFiller, many_of_none (filler_run_of_isSolid h s)]

theorem skipLineEnd_of_isSolid : skipLineEnd (c :: s) = c :: s := by
  rw [skipLineEnd, skipBlanks_of_isSolid h, skipComment, comment_run_of_isSolid h s]

end Solid

theorem skipBlanks_append_of_isOpening {cs : List Char}
    (h : ∃ c s, cs = c :: s ∧ isOpening c = true) (r : List Char) :
    skipBlanks (cs ++ r) = cs ++ r := by
  obtain ⟨c, s, rfl, hc⟩ := exists_cons_isSolid h
  exact skipBlanks_of_isSolid hc (s ++ r)

theorem isSolid_eq_false_of_isBlank {c : Char} (h : isBlank c = true) : isSolid c = false := by
  rw [isSolid, h]
  rfl

theorem isOpening_eq_false_of_not_isSolid {c : Char} (h : isSolid c = false) :
    isOpening c = false := by
  cases hc : isOpening c with
  | false => rfl
  | true =>
    rw [isSolid_of_isOpening hc] at h
    cases h

/-- Spaces and tabs, or nothing. -/
structure Blanks where
  text : List Char
  blank : ∀ c ∈ text, isBlank c = true

namespace Blanks

def empty : Blanks :=
  ⟨[], fun _ hc => absurd hc List.not_mem_nil⟩

def single : Blanks :=
  ⟨[' '], List.forall_mem_singleton.2 rfl⟩

variable (b : Blanks)

theorem skipBlanks_append (s : List Char) : skipBlanks (b.text ++ s) = skipBlanks s :=
  List.dropWhile_append_of_pos b.blank

/-- What begins with blanks and no part of a bare name after them begins with no part of one. -/
theorem not_bare {c : Char} (hc : isBare c = false) (s : List Char) :
    ∀ d, (b.text ++ c :: s).head? = some d → isBare d = false := by
  obtain ⟨_ | ⟨e, es⟩, hblank⟩ := b
  · rintro d ⟨⟩
    exact hc
  · rintro d ⟨⟩
    cases hbare : isBare e with
    | false => rfl
    | true =>
      have hsolid := isSolid_of_isOpening (isOpening_of_isBare hbare)
      rw [isSolid_eq_false_of_isBlank (hblank e List.mem_cons_self)] at hsolid
      cases hsolid

/-- No further name of a key follows where something solid that is no dot comes next. -/
theorem dottedName_run {c : Char} (hc : isSolid c = true) (hdot : c ≠ '.') (s : List Char) :
    dottedName.run (b.text ++ c :: s) = none := by
  simp only [dottedName, b.skipBlanks_append, skipBlanks_of_isSolid hc]
  split
  · next h => exact absurd (List.cons.inj h).1 hdot
  · rfl

/-- A simple value that is over before something is over before blanks in front of that. -/
theorem ends_append {s : List Char} (hs : Ends s) : Ends (b.text ++ s) := by
  obtain ⟨text, hblank⟩ := b
  induction text with
  | nil => exact hs
  | cons c text ih =>
    obtain ⟨hc, htext⟩ := List.forall_mem_cons.1 hblank
    refine ⟨?_, fun d r h => ?_⟩
    · rintro _ ⟨⟩
      exact isOpening_eq_false_of_not_isSolid (isSolid_eq_false_of_isBlank hc)
    · have hrest : text ++ s = d :: r := (List.cons.inj h).2
      have hd := (ih htext).not_opening d (congrArg List.head? hrest)
      simp only [isOpening, isWordChar, Char.isAlphanum, Bool.or_eq_false_iff] at hd
      exact hd.1.1.1.1.1.1.1.2

end Blanks

/-- A gap in which blanks are passed over and nothing that is solid. -/
structure Gap.Ordinary (gap : Gap) : Prop where
  blank : ∀ {c}, isBlank c = true → ∀ s, gap.skip (c :: s) = gap.skip s
  solid : ∀ {c}, isSolid c = true → ∀ s, gap.skip (c :: s) = c :: s

theorem Gap.ordinary_blanks : Gap.blanks.Ordinary :=
  ⟨fun hc _ => List.dropWhile_cons_of_pos hc, skipBlanks_of_isSolid⟩

theorem skipFiller_blank {c : Char} (hc : isBlank c = true) (s : List Char) :
    skipFiller (c :: s) = skipFiller s := by
  have hrun : Toml.filler.run (c :: s) = some ((), s) := by
    simp [filler, space, orElse, map, satisfy, hc]
  rw [skipFiller, many_of_some hrun, skipFiller]

theorem Gap.ordinary_filler : Gap.filler.Ordinary :=
  ⟨skipFiller_blank, skipFiller_of_isSolid⟩

theorem Gap.Ordinary.skip_append {gap : Gap} (hgap : gap.Ordinary) (b : Blanks) (s : List Char) :
    gap.skip (b.text ++ s) = gap.skip s := by
  obtain ⟨text, hblank⟩ := b
  induction text with
  | nil => rfl
  | cons c text ih =>
    obtain ⟨hc, htext⟩ := List.forall_mem_cons.1 hblank
    exact (hgap.blank hc (text ++ s)).trans (ih htext)

/-! ## Names -/

/-- A text can be written as a name without marks. -/
structure IsBareName (cs : List Char) : Prop where
  ne_nil : cs ≠ []
  bare : ∀ c ∈ cs, isBare c

/-- A name is written as it is or as a quotation on one line. -/
inductive NameText : List Char → String → Prop
  | bare {cs : List Char} (h : IsBareName cs) : NameText cs (String.ofList cs)
  | basic (pieces : List Piece) :
      NameText ('"' :: pieces.flatMap Piece.text ++ ['"']) (String.ofList (pieces.map Piece.char))
  | literal {cs : List Char} (h : ∀ c ∈ cs, c ≠ '\'' ∧ (IsControl c → c = '\t')) :
      NameText ('\'' :: cs ++ ['\'']) (String.ofList cs)

theorem bareName_run {cs r : List Char} (h : IsBareName cs)
    (hr : ∀ c, r.head? = some c → isBare c = false) : bareName.run (cs ++ r) = some (cs, r) := by
  obtain ⟨htake, hdrop⟩ := takeWhile_exact h.bare hr
  simp only [bareName, htake, hdrop, if_neg h.ne_nil]

namespace NameText

variable {cs : List Char} {n : String}

theorem exists_cons (h : NameText cs n) : ∃ c s, cs = c :: s ∧ isOpening c = true := by
  cases h with
  | bare h =>
    obtain ⟨c, s, rfl⟩ := List.exists_cons_of_ne_nil h.ne_nil
    exact ⟨c, s, rfl, isOpening_of_isBare (h.bare c List.mem_cons_self)⟩
  | basic pieces => exact ⟨'"', _, rfl, rfl⟩
  | literal h => exact ⟨'\'', _, rfl, rfl⟩

theorem name_run (h : NameText cs n) {r : List Char}
    (hr : ∀ c, r.head? = some c → isBare c = false) : name.run (cs ++ r) = some (n, r) := by
  cases h with
  | bare h => simp only [name, map, orElse, bareName_run h hr, Option.some_or, Option.map_some]
  | basic pieces =>
    have hbare : bareName.run ('"' :: pieces.flatMap Piece.text ++ ['"'] ++ r) = none := rfl
    have hbasic : Toml.basic.run ('"' :: pieces.flatMap Piece.text ++ ['"'] ++ r) = _ :=
      surrounded_run (fun p (_ : p ∈ pieces) => p.readsAs) (fun _ => rfl) r
    simp only [name, map, orElse, hbare, hbasic, Option.none_or, Option.some_or, Option.map_some]
  | @literal cs h =>
    have hbare : bareName.run ('\'' :: cs ++ ['\''] ++ r) = none := rfl
    have hbasic : Toml.basic.run ('\'' :: cs ++ ['\''] ++ r) = none := rfl
    simp only [name, map, orElse, hbare, hbasic, literal_run h r, Option.none_or, Option.map_some]

/-- A text without marks, backslashes and control characters is a name in marks as it is. -/
theorem plain (h : ∀ c ∈ cs, isTextual c = true ∧ c ≠ '"' ∧ c ≠ '\\') :
    NameText ('"' :: cs ++ ['"']) (String.ofList cs) := by
  have hpieces : (cs.pmap Piece.plain h).flatMap Piece.text = cs ∧
      (cs.pmap Piece.plain h).map Piece.char = cs := by
    induction cs with
    | nil => exact ⟨rfl, rfl⟩
    | cons c cs ih =>
      obtain ⟨htext, hchar⟩ := ih fun d hd => h d (List.mem_cons_of_mem _ hd)
      exact ⟨congrArg (c :: ·) htext, congrArg (c :: ·) hchar⟩
  have hname := NameText.basic (cs.pmap Piece.plain h)
  rwa [hpieces.1, hpieces.2] at hname

end NameText

/-! ## Keys -/

/-- A key is written as one name, or as two with a dot between them. -/
inductive KeyText : List Char → Key → Prop
  | single {cs : List Char} {n : String} (h : NameText cs n) : KeyText cs ⟨[], n⟩
  | double {ds cs : List Char} {m n : String} (first : NameText ds m) (last : NameText cs n) :
      KeyText (ds ++ '.' :: cs) ⟨[m], n⟩

namespace KeyText

variable {cs : List Char} {k : Key}

theorem exists_cons (h : KeyText cs k) : ∃ c s, cs = c :: s ∧ isOpening c = true := by
  cases h with
  | single h => exact h.exists_cons
  | double first last =>
    obtain ⟨c, s, rfl, hc⟩ := first.exists_cons
    exact ⟨c, _, rfl, hc⟩

/-- A key is taken as it is written, unless more of its last name or a further name follows. -/
theorem key_run (h : KeyText cs k) {r : List Char}
    (hr : ∀ c, r.head? = some c → isBare c = false) (hdot : dottedName.run r = none) :
    key.run (cs ++ r) = some (k, r) := by
  cases h with
  | single h =>
    simp only [key, h.name_run hr, Option.bind_some, many_of_none hdot]
    rfl
  | @double ds cs m n first last =>
    have hfirst : name.run (ds ++ '.' :: cs ++ r) = some (m, '.' :: (cs ++ r)) := by
      rw [List.append_assoc, List.cons_append]
      exact first.name_run fun c hc => by cases hc; rfl
    have hlast : dottedName.run ('.' :: (cs ++ r)) = some (n, r) := by
      have hrun := last.name_run hr
      rw [← skipBlanks_append_of_isOpening last.exists_cons r] at hrun
      exact hrun
    simp only [key, hfirst, Option.bind_some, many_of_some hlast, many_of_none hdot]
    rfl

end KeyText

/-! ## Entries -/

/-- An entry as it is written. -/
def entryText (ks vs : List Char) : List Char :=
  ks ++ ' ' :: '=' :: ' ' :: vs

/-- An entry with blanks around its sign. -/
def spacedEntry (left right : Blanks) (ks vs : List Char) : List Char :=
  ks ++ (left.text ++ '=' :: (right.text ++ vs))

theorem entryText_eq (ks vs : List Char) : entryText ks vs = spacedEntry .single .single ks vs :=
  rfl

theorem spacedEntry_append (left right : Blanks) (ks vs r : List Char) :
    spacedEntry left right ks vs ++ r = spacedEntry left right ks (vs ++ r) := by
  simp only [spacedEntry, List.append_assoc, List.cons_append]

theorem entryText_append (ks vs r : List Char) : entryText ks vs ++ r = entryText ks (vs ++ r) :=
  spacedEntry_append .single .single ks vs r

section Entry

variable {ks : List Char} {k : Key} (hk : KeyText ks k)

include hk

theorem entryText_exists_cons (vs : List Char) :
    ∃ c s, entryText ks vs = c :: s ∧ isOpening c = true := by
  obtain ⟨c, s, rfl, hc⟩ := hk.exists_cons
  exact ⟨c, _, rfl, hc⟩

theorem skipFiller_entryText (vs : List Char) : skipFiller (entryText ks vs) = entryText ks vs := by
  obtain ⟨c, s, hs, hc⟩ := entryText_exists_cons hk vs
  rw [hs, skipFiller_of_isSolid (isSolid_of_isOpening hc)]

/-- An entry does not begin with the brace that ends a table. -/
theorem closeWith_entryText {α : Type} (as : List α) (vs : List Char) :
    closeWith '\x7d' (as, entryText ks vs) = none := by
  obtain ⟨c, s, hs, hc⟩ := entryText_exists_cons hk vs
  rw [hs]
  exact if_neg (ne_of_isOpening hc (by decide))

/-- An entry is taken with what is taken as its value, and it is not where nothing is. -/
theorem entry_run {α : Type} {p : Parser α} {gap : Gap} (hgap : gap.Ordinary) (left right : Blanks)
    {vs r : List Char} (hvs : ∃ c s, vs = c :: s ∧ isSolid c = true) {w : Option α}
    (hrun : p.run (vs ++ r) = w.map fun a => (a, r)) :
    (entry gap p).run (spacedEntry left right ks vs ++ r) = w.map fun a => ((k, a), r) := by
  obtain ⟨c, s, rfl, hc⟩ := hvs
  rw [List.cons_append] at hrun
  have hkey := hk.key_run (left.not_bare rfl (right.text ++ c :: (s ++ r)))
    (left.dottedName_run (c := '=') rfl (by decide) (right.text ++ c :: (s ++ r)))
  rw [spacedEntry_append, List.cons_append]
  simp only [entry, spacedEntry, hkey, Option.bind_some, hgap.skip_append,
    hgap.solid (c := '=') rfl, hgap.solid hc, hrun, Option.map_map]
  rfl

theorem entry_run_literal {gap : Gap} (hgap : gap.Ordinary) (l : Literal) {r : List Char}
    (hr : Ends r) (depth : Nat) : (entry gap (value depth)).run (entryText ks l.text ++ r) =
      l.value?.map fun x => ((k, .leaf .value x), r) := by
  have hvalue : (value depth).run (l.text ++ r) =
      (l.value?.map (.leaf .value)).map fun v => (v, r) := by
    rw [l.value_run hr, Option.map_map]
    rfl
  rw [entryText_eq, entry_run hk hgap _ _ (exists_cons_isSolid l.exists_cons) hvalue,
    Option.map_map]
  rfl

end Entry

/-- An inline table of two entries as it is written. -/
def bracesText (first second : List Char) : List Char :=
  '\x7b' :: (first ++ ',' :: ' ' :: (second ++ ['\x7d']))

/-- The value of an inline table of two entries. -/
def bracesValue? (k₁ k₂ : Key) (x y : Option Scalar) : Option Node :=
  x.bind fun x => y.bind fun y =>
    (insertAll [(k₁, .leaf .value x), (k₂, .leaf .value y)] []).map (.table .value)

theorem simpleValue_run_eq_none {c : Char} (hc : isOpening c = false) (s : List Char) :
    simpleValue.run (c :: s) = none := by
  simp only [isOpening, Bool.or_eq_false_iff, decide_eq_false_iff_not] at hc
  obtain ⟨⟨hword, hbasic⟩, hliteral⟩ := hc
  have hquote := quotation_run_eq_none hbasic hliteral s
  have hnil : (c :: s).takeWhile isWordChar = [] :=
    List.takeWhile_cons_of_neg (Bool.eq_false_iff.1 hword)
  have hdate : isDate [] = false := rfl
  have hsplit : (splitWord (c :: s)).1 = [] := by
    unfold splitWord
    dsimp only
    rw [hnil]
    split
    · rw [hdate, Bool.false_and, if_neg Bool.false_ne_true]
    · rfl
  simp only [simpleValue, map, orElse, hquote, word, hsplit, if_true, Option.map_none,
    Option.none_or]

theorem takeEnclosed_of_ne {α : Type} {opening closing c : Char} (hc : c ≠ opening) (p : Parser α)
    (s : List Char) : takeEnclosed opening closing p (c :: s) = none :=
  if_neg hc

/-- A list is what stands between its brackets. -/
theorem value_run_bracket (s : List Char) (depth : Nat) : (value (depth + 1)).run ('[' :: s) =
    (takeEnclosed '[' ']' (value depth) ('[' :: s)).map fun (vs, r) => (.list .value vs, r) := by
  have hsimple : simpleValue.run ('[' :: s) = none := simpleValue_run_eq_none rfl s
  have hbrace : takeEnclosed '\x7b' '\x7d' (entry .filler (value depth)) ('[' :: s) = none :=
    takeEnclosed_of_ne (by decide) _ s
  simp only [value, orElse, map, mapOption, hsimple, enclosed, hbrace, Option.none_or,
    Option.bind_none, Option.or_none]

/-- An inline table is made of what stands between its braces. -/
theorem value_run_brace (s : List Char) (depth : Nat) : (value (depth + 1)).run ('\x7b' :: s) =
    (takeEnclosed '\x7b' '\x7d' (entry .filler (value depth)) ('\x7b' :: s)).bind
      fun (kvs, r) => (insertAll kvs []).map fun es => (.table .value es, r) := by
  have hsimple : simpleValue.run ('\x7b' :: s) = none := simpleValue_run_eq_none rfl s
  have hbracket : takeEnclosed '[' ']' (value depth) ('\x7b' :: s) = none :=
    takeEnclosed_of_ne (by decide) _ s
  simp only [value, orElse, map, mapOption, hsimple, enclosed, hbracket, Option.none_or,
    Option.map_none, Option.map_map]
  rfl

section Braces

variable {ks₁ ks₂ : List Char} {k₁ k₂ : Key} (hk₁ : KeyText ks₁ k₁) (hk₂ : KeyText ks₂ k₂)
  (l₁ l₂ : Literal) (r : List Char) (depth : Nat)

include hk₂ in
theorem skipFiller_space_entryText :
    skipFiller (' ' :: (entryText ks₂ l₂.text ++ '\x7d' :: r)) =
      entryText ks₂ (l₂.text ++ '\x7d' :: r) := by
  rw [skipFiller_blank rfl, entryText_append, skipFiller_entryText hk₂]

include hk₂ in
theorem furtherItem_run_entry :
    (furtherItem (entry .filler (value depth))).run
        (',' :: ' ' :: (entryText ks₂ l₂.text ++ '\x7d' :: r)) =
      l₂.value?.map fun y => ((k₂, .leaf .value y), '\x7d' :: r) := by
  have hends : Ends ('\x7d' :: r) := .cons rfl (by decide) r
  simp only [furtherItem, skipFiller_space_entryText hk₂, ← entryText_append,
    entry_run_literal hk₂ Gap.ordinary_filler l₂ hends, Option.map_map, Function.comp_def,
    skipFiller_of_isSolid (c := '\x7d') rfl]

include hk₁ hk₂ in
/-- Entries between braces are taken one after another, and one without a value spoils the table. -/
theorem braces_run :
    (value (depth + 1)).run (bracesText (entryText ks₁ l₁.text) (entryText ks₂ l₂.text) ++ r) =
      (bracesValue? k₁ k₂ l₁.value? l₂.value?).map fun v => (v, r) := by
  let t := ',' :: ' ' :: (entryText ks₂ l₂.text ++ '\x7d' :: r)
  have hsplit : bracesText (entryText ks₁ l₁.text) (entryText ks₂ l₂.text) ++ r =
      '\x7b' :: (entryText ks₁ l₁.text ++ t) := by
    simp only [bracesText, List.cons_append, List.append_assoc, List.nil_append, t]
  have hends : Ends t := .cons rfl (by decide) _
  have hfirst := entry_run_literal hk₁ Gap.ordinary_filler l₁ hends depth
  have hskip : skipFiller (entryText ks₁ l₁.text ++ t) = entryText ks₁ l₁.text ++ t := by
    rw [entryText_append, skipFiller_entryText hk₁]
  rw [hsplit, value_run_brace, takeEnclosed, if_pos rfl, hskip, Toml.itemList, hfirst]
  -- An entry without a value is not taken, and then it stands where the brace should be.
  cases l₁.value? with
  | none =>
    rw [Option.map_none, entryText_append]
    simp only [closeWith_entryText hk₁, Option.bind_none]
    rfl
  | some x =>
    have hcomma : skipFiller t = t := skipFiller_of_isSolid rfl _
    have hsecond : (furtherItem (Toml.entry .filler (value depth))).run t = _ :=
      furtherItem_run_entry hk₂ l₂ r depth
    simp only [Option.map_some, hcomma]
    cases hy : l₂.value? with
    | none =>
      rw [hy] at hsecond
      have hrest : skipComma t = entryText ks₂ (l₂.text ++ '\x7d' :: r) :=
        skipFiller_space_entryText hk₂ l₂ r
      simp only [many_of_none hsecond, hrest, closeWith_entryText hk₂, Option.bind_none]
      rfl
    | some y =>
      rw [hy] at hsecond
      rw [many_of_some hsecond, many_of_none rfl, bracesValue?, Option.bind_some, Option.bind_some,
        Option.map_map]
      rfl

end Braces

/-! ## Statements -/

/-- The heading of a table as it is written. -/
def headingText (ts : List Char) : List Char :=
  '[' :: (ts ++ [']'])

/-- The heading of a table with blanks around its name. -/
def spacedHeading (left right : Blanks) (ts : List Char) : List Char :=
  '[' :: (left.text ++ (ts ++ (right.text ++ [']'])))

section Statement

variable {ks : List Char} {k : Key} (hk : KeyText ks k) (left right : Blanks)

include hk

theorem statement_run_entry {vs r : List Char} (hvs : ∃ c s, vs = c :: s ∧ isSolid c = true)
    {v : Option Node} (hrun : (value maxDepth).run (vs ++ r) = v.map fun v => (v, r)) :
    statement.run (spacedEntry left right ks vs ++ r) = v.map fun v => (.entry k v, r) := by
  have hentry := entry_run hk Gap.ordinary_blanks left right hvs hrun
  obtain ⟨d, ds, rfl, hd⟩ := hk.exists_cons
  have hbracket : d ≠ '[' := ne_of_isOpening hd (by decide)
  have helement : elementHeading.run (spacedEntry left right (d :: ds) vs ++ r) = none := by
    simp [elementHeading, spacedEntry, hbracket]
  have htable : tableHeading.run (spacedEntry left right (d :: ds) vs ++ r) = none := by
    simp [tableHeading, spacedEntry, hbracket]
  simp only [statement, orElse, map, helement, htable, hentry, Option.map_none, Option.none_or,
    Option.map_map]
  rfl

theorem statement_run_heading (r : List Char) :
    statement.run (spacedHeading left right ks ++ r) = some (.table k, r) := by
  have hsplit : spacedHeading left right ks ++ r =
      '[' :: (left.text ++ (ks ++ (right.text ++ ']' :: r))) := by
    simp only [spacedHeading, List.cons_append, List.append_assoc, List.nil_append]
  have hkey := hk.key_run (right.not_bare rfl r) (right.dottedName_run (c := ']') rfl (by decide) r)
  have htable : tableHeading.run (spacedHeading left right ks ++ r) = some (k, r) := by
    rw [hsplit]
    simp only [tableHeading, left.skipBlanks_append, skipBlanks_append_of_isOpening hk.exists_cons,
      hkey, Option.bind_some, right.skipBlanks_append, skipBlanks_of_isSolid (c := ']') rfl]
  -- A second bracket does not follow, only blanks or the name.
  have helement : elementHeading.run (spacedHeading left right ks ++ r) = none := by
    rw [hsplit]
    obtain ⟨_ | ⟨b, bs⟩, hblank⟩ := left
    · obtain ⟨c, s, rfl, hc⟩ := hk.exists_cons
      have hbracket : c ≠ '[' := ne_of_isOpening hc (by decide)
      simp [elementHeading, hbracket]
    · have hbracket : b ≠ '[' := by
        rintro rfl
        cases hblank '[' List.mem_cons_self
      simp [elementHeading, hbracket]
  simp only [statement, orElse, map, helement, htable, Option.map_none, Option.map_some,
    Option.none_or, Option.some_or]

end Statement

/-- No statement begins with what is neither a bracket nor the beginning of a name. -/
theorem statement_run_eq_none {c : Char} (hbracket : c ≠ '[') {s : List Char}
    (hname : name.run (c :: s) = none) : statement.run (c :: s) = none := by
  have helement : elementHeading.run (c :: s) = none := by
    simp [elementHeading, hbracket]
  have htable : tableHeading.run (c :: s) = none := by
    simp [tableHeading, hbracket]
  have hentry : (entry .blanks (value maxDepth)).run (c :: s) = none := by
    simp only [entry, key, hname, Option.bind_none]
  simp only [statement, orElse, map, helement, htable, hentry, Option.map_none, Option.or_none]

theorem skipMark_of_ascii {c : Char} (hc : c.toNat ≤ 0x7F) (s : List Char) :
    skipMark (c :: s) = c :: s := by
  have hmark : c ≠ '\uFEFF' := by
    rintro rfl
    exact absurd hc (by decide)
  simp [skipMark, hmark]

/-! ## Lines -/

theorem statements?_nil : statements? [] = some [] := by
  rw [statements?, many_of_none rfl]
  rfl

/-- A document that begins with a line has its statement and those of the lines after it, and none
if the line cannot be read. -/
theorem statements?_of_line_run {s t : List Char} {st : Option Statement} (hne : s ≠ [])
    (hrun : line.run s = st.map fun st => (some st, t)) :
    statements? s = st.bind fun st => (statements? t).map (st :: ·) := by
  cases st with
  | none => rw [statements?, many_of_none hrun, if_neg hne, Option.bind_none]
  | some st =>
    rw [statements?, many_of_some hrun, Option.bind_some, statements?]
    split
    · rfl
    · rfl

/-- A line ends here, and this is what comes after it. -/
inductive EndsLine : List Char → List Char → Prop
  | newline (t : List Char) : EndsLine ('\n' :: t) t
  | crlf (t : List Char) : EndsLine ('\r' :: '\n' :: t) t
  | document : EndsLine [] []

theorem EndsLine.ends {r t : List Char} (h : EndsLine r t) : Ends r := by
  cases h with
  | newline => exact .cons rfl (by decide) _
  | crlf => exact .cons rfl (by decide) _
  | document => exact .nil

/-- A line holds a statement up to where it ends, or what is none. -/
structure Says (l : List Char) (st : Option Statement) : Prop where
  exists_cons : ∃ c s, l = c :: s ∧ isSolid c = true
  statement_run : ∀ {r t}, EndsLine r t → statement.run (l ++ r) = st.map fun st => (st, r)

namespace Says

theorem heading {ks : List Char} {k : Key} (hk : KeyText ks k) :
    Says ('[' :: (ks ++ [']'])) (some (.table k)) :=
  ⟨⟨'[', _, rfl, rfl⟩, fun {r _} _ => statement_run_heading hk .empty .empty r⟩

section Entry

variable {ks vs : List Char} {k : Key} (hk : KeyText ks k) {v : Option Node}
  (hvs : ∃ c s, vs = c :: s ∧ isSolid c = true)
  (hv : ∀ {r t}, EndsLine r t → (value maxDepth).run (vs ++ r) = v.map fun v => (v, r))

include hk hvs hv

theorem spaced (left right : Blanks) : Says (spacedEntry left right ks vs) (v.map (.entry k)) := by
  obtain ⟨d, ds, hds, hd⟩ := hk.exists_cons
  refine ⟨⟨d, _, congrArg (· ++ _) hds, isSolid_of_isOpening hd⟩, fun {r t} hr => ?_⟩
  rw [statement_run_entry hk left right hvs (hv hr), Option.map_map]
  rfl

theorem entry : Says (entryText ks vs) (v.map (.entry k)) :=
  spaced hk hvs hv .single .single

end Entry

theorem literal {ks : List Char} {k : Key} (hk : KeyText ks k) (l : Literal) :
    Says (entryText ks l.text) (l.value?.map fun x => .entry k (.leaf .value x)) := by
  have hsays := entry hk (exists_cons_isSolid l.exists_cons) (v := l.value?.map (.leaf .value))
    fun hr => by
      rw [l.value_run hr.ends, Option.map_map]
      rfl
  rwa [Option.map_map] at hsays

theorem braces {ks ks₁ ks₂ : List Char} {k k₁ k₂ : Key} (hk : KeyText ks k) (hk₁ : KeyText ks₁ k₁)
    (hk₂ : KeyText ks₂ k₂) (l₁ l₂ : Literal) :
    Says (entryText ks (bracesText (entryText ks₁ l₁.text) (entryText ks₂ l₂.text)))
      ((bracesValue? k₁ k₂ l₁.value? l₂.value?).map (.entry k)) :=
  entry hk ⟨'\x7b', _, rfl, rfl⟩ fun {r _} _ => braces_run hk₁ hk₂ l₁ l₂ r (maxDepth - 1)

variable {l r t : List Char}

theorem line_run {st : Option Statement} (h : Says l st) (hr : EndsLine r t) :
    line.run (l ++ r) = st.map fun st => (some st, t) := by
  obtain ⟨c, s, rfl, hc⟩ := h.exists_cons
  have hrun := h.statement_run hr
  rw [List.cons_append] at hrun ⊢
  simp only [line, skipBlanks_of_isSolid hc, statementIn, hrun]
  cases st with
  | none =>
    simp only [Option.map_none, skipLineEnd_of_isSolid hc, newline_run_of_isSolid hc]
  | some st => cases hr <;> rfl

/-- The statements of a document are that of its first line and those of the others, if all of
its lines can be read. -/
theorem statements?_append {st : Option Statement} (h : Says l st) (hr : EndsLine r t) :
    statements? (l ++ r) = st.bind fun st => (statements? t).map (st :: ·) := by
  have hne : l ++ r ≠ [] := by
    obtain ⟨c, s, rfl, -⟩ := h.exists_cons
    exact List.cons_ne_nil _ _
  exact statements?_of_line_run hne (h.line_run hr)

end Says

end Enrollment.Toml
