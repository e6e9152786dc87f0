import Enrollment.Proofs.Lines

/-!
# Lines that say nothing

After what it says a line may hold blanks and a comment.  These are passed over
up to the end of the line (`Trail.skipLineEnd_append`), and a simple value is over
where they come next (`Trail.ends`).  A line that holds nothing else has no
statement (`Trail.statements?_append`), and neither has any number of such lines
(`statements?_append_fill`).
-/

namespace Enrollment.Toml

open Enrollment.Parser

/-! ## How they are written -/

/-- A comment, without the mark in front. -/
structure Remark where
  text : List Char
  textual : ∀ c ∈ text, isTextual c = true

/-- What a line may hold after what it says: blanks and perhaps a comment. -/
structure Trail where
  blanks : Blanks
  remark : Option Remark

/-- A way to end a line. -/
inductive Break where
  | lf
  | crlf

namespace Trail

/-- What is left of a trail after its blanks. -/
def remarkText (t : Trail) : List Char :=
  t.remark.elim [] fun remark => '#' :: remark.text

def text (t : Trail) : List Char :=
  t.blanks.text ++ t.remarkText

end Trail

def Break.text : Break → List Char
  | lf => ['\n']
  | crlf => ['\r', '\n']

/-- Lines that say nothing. -/
def fillText (ls : List (Trail × Break)) : List Char :=
  ls.flatMap fun l => l.1.text ++ l.2.text

/-! ## How they are passed over -/

theorem Break.endsLine (b : Break) (s : List Char) : EndsLine (b.text ++ s) s := by
  cases b with
  | lf => exact .newline s
  | crlf => exact .crlf s

theorem toNat_le_of_not_isSolid {c : Char} (h : isSolid c = false) : c.toNat ≤ 0x7F := by
  simp only [isSolid, isBlank, Bool.and_eq_false_iff, Bool.not_eq_false', Bool.or_eq_true,
    decide_eq_true_eq, decide_eq_false_iff_not, ne_eq, Decidable.not_not] at h
  rcases h with (((rfl | rfl) | rfl) | rfl) | rfl
  all_goals decide

namespace Trail

variable (t : Trail) {r u : List Char} (hr : EndsLine r u)

theorem text_append (s : List Char) : t.text ++ s = t.blanks.text ++ (t.remarkText ++ s) :=
  List.append_assoc _ _ _

include hr

/-- What is left of a trail after its blanks is passed over as a comment. -/
theorem skipComment_remarkText : skipComment (t.remarkText ++ r) = r := by
  have htextual : ∀ c, r.head? = some c → isTextual c = false := by
    intro c hc
    cases hr <;> cases hc <;> rfl
  obtain ⟨blanks, _ | remark⟩ := t
  · cases hr <;> rfl
  · obtain ⟨htake, hdrop⟩ := takeWhile_exact remark.textual htextual
    simp only [remarkText, Option.elim_some, List.cons_append, skipComment, comment, htake, hdrop]

theorem skipBlanks_remarkText : skipBlanks (t.remarkText ++ r) = t.remarkText ++ r := by
  obtain ⟨blanks, _ | remark⟩ := t
  · cases hr <;> rfl
  · exact List.dropWhile_cons_of_neg (by decide)

theorem statement_run_remarkText : statement.run (t.remarkText ++ r) = none := by
  obtain ⟨blanks, _ | remark⟩ := t
  · cases hr <;> rfl
  · exact statement_run_eq_none (by decide) rfl

/-- A trail is passed over up to the end of its line. -/
theorem skipLineEnd_append : skipLineEnd (t.text ++ r) = r := by
  rw [skipLineEnd, text_append, t.blanks.skipBlanks_append, t.skipBlanks_remarkText hr,
    t.skipComment_remarkText hr]

/-- Nothing that is solid comes next. -/
theorem not_solid : ∀ c, (t.text ++ r).head? = some c → isSolid c = false := by
  obtain ⟨⟨_ | ⟨b, bs⟩, hblank⟩, _ | remark⟩ := t
  · intro c hc
    cases hr <;> cases hc <;> rfl
  · rintro c ⟨⟩
    rfl
  all_goals
    rintro c ⟨⟩
    exact isSolid_eq_false_of_isBlank (hblank b List.mem_cons_self)

/-- A simple value is over where a trail comes next. -/
theorem ends : Ends (t.text ++ r) := by
  rw [text_append]
  apply t.blanks.ends_append
  obtain ⟨blanks, _ | remark⟩ := t
  · exact hr.ends
  · exact .cons rfl (by decide) _

/-- A line that holds a trail and nothing else has no statement. -/
theorem statements?_append : statements? (t.text ++ r) = statements? u := by
  cases hs : t.text ++ r with
  | nil =>
    obtain ⟨-, rfl⟩ := List.append_eq_nil_iff.1 hs
    cases hr
    rfl
  | cons c s =>
    have hrun : line.run (c :: s) = some (none, u) := by
      have hblanks : skipBlanks (c :: s) = t.remarkText ++ r := by
        rw [← hs, text_append, t.blanks.skipBlanks_append, t.skipBlanks_remarkText hr]
      have hend : skipLineEnd (t.remarkText ++ r) = r := by
        rw [skipLineEnd, t.skipBlanks_remarkText hr, t.skipComment_remarkText hr]
      simp only [line, hblanks, statementIn, t.statement_run_remarkText hr, hend]
      cases hr <;> rfl
    rw [statements?, many_of_some hrun, statements?]
    rfl

end Trail

theorem statements?_append_fill (ls : List (Trail × Break)) (s : List Char) :
    statements? (fillText ls ++ s) = statements? s := by
  induction ls with
  | nil => rfl
  | cons l ls ih =>
    have hline := l.1.statements?_append (l.2.endsLine (fillText ls ++ s))
    rw [fillText, List.flatMap_cons, ← fillText, List.append_assoc, List.append_assoc, hline, ih]

/-- Lines that say nothing, and then what begins with an ASCII character, begin with one. -/
theorem exists_fillText_append {s : List Char} (hs : ∃ c t, s = c :: t ∧ c.toNat ≤ 0x7F)
    (ls : List (Trail × Break)) : ∃ c t, fillText ls ++ s = c :: t ∧ c.toNat ≤ 0x7F := by
  cases ls with
  | nil => exact hs
  | cons l ls =>
    have hsplit : fillText (l :: ls) ++ s = l.1.text ++ (l.2.text ++ (fillText ls ++ s)) := by
      rw [fillText, List.flatMap_cons, ← fillText, List.append_assoc, List.append_assoc]
    have hsolid := l.1.not_solid (l.2.endsLine (fillText ls ++ s))
    rw [hsplit]
    cases hall : l.1.text ++ (l.2.text ++ (fillText ls ++ s)) with
    | nil =>
      have hbreak : l.2.text = [] :=
        (List.append_eq_nil_iff.1 (List.append_eq_nil_iff.1 hall).2).1
      cases hl : l.2 <;> rw [hl] at hbreak <;> cases hbreak
    | cons c t => exact ⟨c, t, rfl, toNat_le_of_not_isSolid (hsolid c (by rw [hall]; rfl))⟩

end Enrollment.Toml
