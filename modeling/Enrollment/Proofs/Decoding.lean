import Enrollment.Proofs.Spacing

/-!
# The text of a file

A file is read as text whatever its bytes are.  A byte below `0x80` never belongs
to a character that has been begun, because only continuation bytes go on with one
(`Pending.continues_of_lead`).  So it ends what is ill-formed before it, it is read
as itself, and what comes after it is read afresh (`parts_append_ascii`).  A byte
order mark in front is passed over twice: by the reader of the file as bytes and by
that of the document as a character (`documentIn?_marked`).  No line begins
with a third one, so there is no document behind it (`document?_marks`).
-/

namespace Enrollment

namespace Utf8

/-! ## ASCII bytes -/

theorem Pending.continues_of_lead {b : UInt8} {p : Pending} (h : lead b = some p) :
    p.Continues := by
  have hrange : ∃ q, lead b = some q ∧ q.Continues := by
    rcases lead_cases h with ⟨n, hn, hn', rfl⟩ | ⟨n, hn, rfl⟩ | ⟨n, hn, rfl⟩
    · obtain ⟨q, hq⟩ := leads_two hn hn'
      exact ⟨q, hq.lead, hq.range⟩
    · obtain ⟨q, hq⟩ := leads_three hn
      exact ⟨q, hq.lead, hq.range⟩
    · obtain ⟨q, hq⟩ := leads_four hn
      exact ⟨q, hq.lead, hq.range⟩
  obtain ⟨q, hq, hcontinues⟩ := hrange
  rw [h] at hq
  cases hq
  exact hcontinues

/-- If a character has been begun, only continuation bytes go on with it. -/
def Resumable (s : Option Pending) : Prop :=
  ∀ p, s = some p → p.Continues

theorem resumable_none : Resumable none :=
  nofun

theorem resumable_start (b : UInt8) : Resumable (start b).2 := by
  intro p hp
  unfold start at hp
  split at hp
  · cases hp
  · split at hp
    · next q hlead =>
      cases hp
      exact Pending.continues_of_lead hlead
    · cases hp

theorem Resumable.step {s : Option Pending} (h : Resumable s) (b : UInt8) :
    Resumable (step s b).2 := by
  cases s with
  | none => exact resumable_start b
  | some p =>
    unfold Utf8.step
    dsimp only
    split
    · split
      · exact resumable_none
      · next n _ =>
        rintro q ⟨⟩
        exact Pending.next_continues p b n
    · exact resumable_start b

/-- An ASCII byte ends what has been begun and is read as itself. -/
theorem Resumable.step_ascii {s : Option Pending} (h : Resumable s) {c : UInt8} (hc : c < 0x80) :
    Utf8.step s c = (partsFrom s [] ++ [.char (Char.ofNat c.toNat)], none) := by
  cases s with
  | none => simp only [Utf8.step, start, if_pos hc, partsFrom, List.nil_append]
  | some p =>
    have hout : ¬ (p.low ≤ c ∧ c ≤ p.high) := by
      rintro ⟨hlow, -⟩
      have hlow := UInt8.le_iff_toNat_le.1 hlow
      have hcontinues := (h p rfl).1
      have hc : c.toNat < 0x80 := UInt8.lt_iff_toNat_lt.1 hc
      omega
    simp only [Utf8.step, if_neg hout, start, if_pos hc, partsFrom, List.singleton_append]

theorem partsFrom_cons (s : Option Pending) (b : UInt8) (bs : Bytes) :
    partsFrom s (b :: bs) = (step s b).1 ++ partsFrom (step s b).2 bs := by
  cases s <;> rfl

theorem Resumable.partsFrom_append {s : Option Pending} (h : Resumable s) (x : Bytes) {c : UInt8}
    (hc : c < 0x80) (y : Bytes) :
    partsFrom s (x ++ c :: y) = partsFrom s x ++ .char (Char.ofNat c.toNat) :: parts y := by
  induction x generalizing s with
  | nil =>
    rw [List.nil_append, partsFrom_cons, h.step_ascii hc, List.append_assoc, List.singleton_append,
      parts]
  | cons b x ih =>
    rw [List.cons_append, partsFrom_cons, partsFrom_cons, ih (h.step b), List.append_assoc]

/-- Around an ASCII byte, what comes before and what comes after fall into parts by themselves. -/
theorem parts_append_ascii (x : Bytes) {c : UInt8} (hc : c < 0x80) (y : Bytes) :
    parts (x ++ c :: y) = parts x ++ .char (Char.ofNat c.toNat) :: parts y :=
  resumable_none.partsFrom_append x hc y

theorem decodeLossy_append_ascii (x : Bytes) {c : UInt8} (hc : c < 0x80) (y : Bytes) :
    decodeLossy (x ++ c :: y) = decodeLossy x ++ Char.ofNat c.toNat :: decodeLossy y := by
  rw [decodeLossy, parts_append_ascii x hc, List.map_append, List.map_cons]
  rfl

end Utf8

namespace Toml

open Enrollment.Parser

/-! ## Byte order marks in a document -/

theorem skipMark_of_head?_ne {s : List Char} (h : s.head? ≠ some '\uFEFF') : skipMark s = s := by
  unfold skipMark
  split
  · exact absurd rfl h
  · rfl

/-- No line begins with a byte order mark. -/
theorem statements?_mark (s : List Char) : statements? ('\uFEFF' :: s) = none := by
  have hstatement : statement.run ('\uFEFF' :: s) = none := statement_run_eq_none (by decide) rfl
  have hsolid : isSolid '\uFEFF' = true := by decide
  have hline : line.run ('\uFEFF' :: s) = none := by
    simp only [line, skipBlanks_of_isSolid hsolid, statementIn, hstatement,
      skipLineEnd_of_isSolid hsolid, newline_run_of_isSolid hsolid, Option.map_none]
  rw [statements?, many_of_none hline, if_neg (List.cons_ne_nil _ _)]

/-- A document may have a byte order mark in front of it and no more. -/
theorem document?_marks {t : List Char} (ht : t.head? ≠ some '\uFEFF') (n : Nat) :
    document? (List.replicate n '\uFEFF' ++ t) = if n ≤ 1 then document? t else none := by
  match n with
  | 0 => rfl
  | 1 =>
    have hskip : skipMark ('\uFEFF' :: t) = skipMark t := (skipMark_of_head?_ne ht).symm
    exact congrArg (fun s => (statements? s).bind assemble?) hskip
  | n + 2 =>
    have hskip : skipMark (List.replicate (n + 2) '\uFEFF' ++ t) =
        '\uFEFF' :: (List.replicate n '\uFEFF' ++ t) := rfl
    rw [document?, hskip, statements?_mark, Option.bind_none, if_neg (by omega)]

end Toml

namespace Settings

/-! ## Byte order marks in a file -/

/-- The bytes of a byte order mark. -/
def mark : Bytes :=
  Utf8.encode ['\uFEFF']

theorem withoutMark_of_not_prefix {bs : Bytes} (h : ¬ mark <+: bs) : withoutMark bs = bs := by
  unfold withoutMark
  split
  · next r => exact absurd ⟨r, rfl⟩ h
  · rfl

/-- A mark in front reaches into nothing that begins with an ASCII byte. -/
theorem not_mark_prefix_append {x : Bytes} (hx : ¬ mark <+: x) {c : UInt8} (hc : c < 0x80)
    (y : Bytes) : ¬ mark <+: x ++ c :: y := by
  intro h
  rcases Nat.lt_or_ge x.length mark.length with hlength | hlength
  · have hprefix : x ++ [c] <+: x ++ c :: y := ⟨y, by simp⟩
    have hmem : c ∈ mark := by
      refine (List.prefix_of_prefix_length_le hprefix h ?_).subset (by simp)
      rw [List.length_append, List.length_singleton]
      exact hlength
    have hmark : ∀ b ∈ mark, ¬ b < 0x80 := by decide +kernel
    exact hmark c hmem hc
  · exact hx (List.prefix_of_prefix_length_le h (List.prefix_append _ _) hlength)

/-- The bytes of a text begin with a mark only if the text does. -/
theorem not_mark_prefix_encode {t : List Char} (ht : t.head? ≠ some '\uFEFF') :
    ¬ mark <+: Utf8.encode t := by
  rintro ⟨bs, hbs⟩
  have hparts : Utf8.parts (mark ++ bs) = .char '\uFEFF' :: Utf8.parts bs :=
    Utf8.parts_utf8EncodeChar_append '\uFEFF' bs
  rw [hbs, Utf8.parts_encode] at hparts
  cases t with
  | nil => cases hparts
  | cons c t =>
    obtain ⟨hc, -⟩ := List.cons.inj hparts
    cases hc
    exact ht rfl

/-- The bytes of a text with marks in front. -/
def marked (n : Nat) (t : List Char) : Bytes :=
  Utf8.encode (List.replicate n '\uFEFF' ++ t)

theorem documentIn?_marked {t : List Char} (ht : t.head? ≠ some '\uFEFF') (n : Nat) :
    documentIn? (marked n t) = if n ≤ 2 then Toml.document? t else none := by
  cases n with
  | zero =>
    rw [documentIn?, marked, List.replicate_zero, List.nil_append,
      withoutMark_of_not_prefix (not_mark_prefix_encode ht), Utf8.decodeLossy_encode, if_pos]
    exact Nat.zero_le 2
  | succ n =>
    have hwithout : withoutMark (marked (n + 1) t) =
        Utf8.encode (List.replicate n '\uFEFF' ++ t) := rfl
    rw [documentIn?, hwithout, Utf8.decodeLossy_encode, Toml.document?_marks ht]
    simp only [Nat.reduceLeDiff]

/-! ## Loading -/

/-- The bytes of a text without a mark in front are read as this text, and an ASCII byte is read as
itself between what the bytes on either side of it are read as.  One or two marks in front of a text
change nothing in what is loaded, and with more of them the file is no document. -/
theorem text_content (p : String) :
    (∀ t : List Char, t.head? ≠ some '\uFEFF' → Source.text ⟨p, Utf8.encode t⟩ = t) ∧
    (∀ x y : Bytes, ¬ mark <+: x → ¬ mark <+: y → ∀ c : UInt8, c < 0x80 →
      Source.text ⟨p, x ++ c :: y⟩ =
        Source.text ⟨p, x⟩ ++ Char.ofNat c.toNat :: Source.text ⟨p, y⟩) ∧
    ∀ t : List Char, t.head? ≠ some '\uFEFF' →
      ∀ (files : Files) (env : Environment) (path : Option String) (n : Nat),
        (n ≤ 2 → ∀ place, load (files.write place (marked n t)) env path =
          load (files.write place (Utf8.encode t)) env path) ∧
        (3 ≤ n → source? files (pathUsed env path) = some ⟨p, marked n t⟩ →
          load files env path = .error (.unparsed p)) := by
  refine ⟨fun t ht => ?_, fun x y hx hy c hc => ?_, fun t ht files env path n => ⟨?_, ?_⟩⟩
  · rw [Source.text, withoutMark_of_not_prefix (not_mark_prefix_encode ht), Utf8.decodeLossy_encode]
  · simp only [Source.text, withoutMark_of_not_prefix hx, withoutMark_of_not_prefix hy,
      withoutMark_of_not_prefix (not_mark_prefix_append hx hc y), Utf8.decodeLossy_append_ascii x hc]
  · intro hn place
    apply load_write_of_documentIn?_eq
    have hplain : documentIn? (Utf8.encode t) = _ := documentIn?_marked ht 0
    rw [documentIn?_marked ht, if_pos hn, hplain, if_pos (Nat.zero_le 2)]
  · intro hn hs
    have hdocument := documentIn?_marked ht n
    rw [if_neg (Nat.not_le.2 hn)] at hdocument
    exact load_of_documentIn?_eq_none hs hdocument

/-- A quote after a character that is cut short and before a byte that begins none, and a header with
two and with three marks in front of its file. -/
theorem text_content_cut_short :
    let x : Bytes := bytesOf "a" ++ [0xF0, 0x9F, 0x98]
    let y : Bytes := [0xFF] ++ bytesOf "é\n"
    let t := "[output]\nheader = 'é'\n".toList
    let files (n : Nat) := (Files.empty default).write "c.toml" (marked n t)
    Source.text ⟨"c.toml", x ++ 0x22 :: y⟩ = "a\uFFFD\"\uFFFDé\n".toList ∧
      Source.text ⟨"c.toml", Utf8.encode t⟩ = t ∧
      load (files 2) [] (some "c.toml") = .ok { standard with header := "é" } ∧
      load (files 3) [] (some "c.toml") = .error (.unparsed "c.toml") := by
  intro x y t files
  obtain ⟨hself, hascii, hmarks⟩ := text_content "c.toml"
  have ht : t.head? ≠ some '\uFEFF' := by decide +kernel
  have hname : nameOf default "c.toml" = "c.toml" := by decide +kernel
  refine ⟨?_, hself t ht, ?_, ?_⟩
  · rw [hascii x y (by decide +kernel) (by decide +kernel) 0x22 (by decide)]
    decide +kernel
  · have htwo := (hmarks t ht (.empty default) [] (some "c.toml") 2).1 (Nat.le_refl 2) "c.toml"
    refine htwo.trans ?_
    decide +kernel
  · exact (hmarks t ht (files 3) [] (some "c.toml") 3).2 (Nat.le_refl 3) (source?_alone hname _)

end Settings

end Enrollment
