import Enrollment.Proofs.Lines

/-!
# One value in brackets or braces

A list of one item and an inline table of one entry are taken alike: what stands
between the marks is taken if it can be, and otherwise the closing mark is missing
(`Takes.takeEnclosed_single`).  So a list of one item is a value exactly if the item
is one at the depth below (`Takes.singleList`), and so is an inline table of one
entry (`Takes.singleTable`).
-/

namespace Enrollment.Toml

open Enrollment.Parser

/-- A text is taken by a parser as one value, or not at all, whatever ends it. -/
structure Takes {α : Type} (p : Parser α) (s : List Char) (w : Option α) : Prop where
  exists_cons : ∃ c t, s = c :: t ∧ isSolid c = true ∧ c ≠ ']' ∧ c ≠ '\x7d'
  run : ∀ {r}, Ends r → p.run (s ++ r) = w.map fun a => (a, r)

/-- What begins as a name or a simple value does begins with neither closing mark. -/
theorem Takes.of_isOpening {α : Type} {p : Parser α} {s : List Char} {w : Option α}
    (hs : ∃ c t, s = c :: t ∧ isOpening c = true)
    (hrun : ∀ {r}, Ends r → p.run (s ++ r) = w.map fun a => (a, r)) : Takes p s w where
  exists_cons := by
    obtain ⟨c, t, rfl, hc⟩ := hs
    exact ⟨c, t, rfl, isSolid_of_isOpening hc, ne_of_isOpening hc rfl, ne_of_isOpening hc rfl⟩
  run := hrun

/-- A mark that comes after a list or an inline table. -/
inductive IsClosing : Char → Prop
  | bracket : IsClosing ']'
  | brace : IsClosing '\x7d'

/-- A text between two marks, with blanks before and after it. -/
def enclosedText (opening closing : Char) (left right : Blanks) (s : List Char) : List Char :=
  opening :: (left.text ++ (s ++ (right.text ++ [closing])))

/-- Between two marks one item is taken if it can be, and then nothing else stands there. -/
theorem Takes.takeEnclosed_single {α : Type} {p : Parser α} {s : List Char} {w : Option α}
    (h : Takes p s w) (opening : Char) {closing : Char} (hclosing : IsClosing closing)
    (left right : Blanks) (r : List Char) :
    takeEnclosed opening closing p (enclosedText opening closing left right s ++ r) =
      w.map fun a => ([a], r) := by
  have hsolid : isSolid closing = true := by cases hclosing <;> rfl
  have hends : Ends (right.text ++ closing :: r) := by
    apply right.ends_append
    cases hclosing <;> exact .cons rfl (by decide) r
  have hsplit : enclosedText opening closing left right s ++ r =
      opening :: (left.text ++ (s ++ (right.text ++ closing :: r))) := by
    simp only [enclosedText, List.cons_append, List.append_assoc, List.nil_append]
  have hrun := h.run hends
  obtain ⟨c, t, rfl, hc, hbracket, hbrace⟩ := h.exists_cons
  have hskip : skipFiller (left.text ++ (c :: t ++ (right.text ++ closing :: r))) =
      c :: t ++ (right.text ++ closing :: r) :=
    (Gap.ordinary_filler.skip_append left _).trans (skipFiller_of_isSolid hc _)
  rw [hsplit, takeEnclosed, if_pos rfl, hskip, Toml.itemList, hrun]
  cases w with
  | none =>
    -- Nothing is taken, and what stands there is not the closing mark.
    have hne : c ≠ closing := by cases hclosing <;> assumption
    exact if_neg hne
  | some a =>
    have hrest : skipFiller (right.text ++ closing :: r) = closing :: r :=
      (Gap.ordinary_filler.skip_append right _).trans (skipFiller_of_isSolid hsolid r)
    have hmore : (furtherItem p).run (closing :: r) = none := by cases hclosing <;> rfl
    simp only [Option.map_some, hrest, many_of_none hmore]
    cases hclosing <;> rfl

theorem Takes.entry {α : Type} {p : Parser α} {s ks : List Char} {w : Option α} {k : Key}
    (h : Takes p s w) (hk : KeyText ks k) (left right : Blanks) :
    Takes (entry .filler p) (spacedEntry left right ks s) (w.map fun a => (k, a)) := by
  have hopening : ∃ c t, spacedEntry left right ks s = c :: t ∧ isOpening c = true := by
    obtain ⟨c, t, rfl, hc⟩ := hk.exists_cons
    exact ⟨c, _, rfl, hc⟩
  refine .of_isOpening hopening fun hr => ?_
  obtain ⟨c, t, hs, hc, -, -⟩ := h.exists_cons
  rw [entry_run hk Gap.ordinary_filler left right ⟨c, t, hs, hc⟩ (h.run hr), Option.map_map]
  rfl

section Value

variable {s : List Char} {w : Option Node} {depth : Nat} (h : Takes (value depth) s w)
  (left right : Blanks)

include h

/-- A list of one item is one value deeper than the item. -/
theorem Takes.singleList : Takes (value (depth + 1)) (enclosedText '[' ']' left right s)
    (w.map fun v => .list .value [v]) where
  exists_cons := ⟨'[', _, rfl, rfl, by decide, by decide⟩
  run {r} _ := by
    have htake := h.takeEnclosed_single '[' .bracket left right r
    rw [enclosedText, List.cons_append] at htake ⊢
    rw [value_run_bracket, htake, Option.map_map, Option.map_map]
    rfl

/-- An inline table of one entry is one value deeper than the value in it. -/
theorem Takes.singleTable {ks : List Char} {n : String} (hk : NameText ks n)
    (before after : Blanks) :
    Takes (value (depth + 1))
      (enclosedText '\x7b' '\x7d' left right (spacedEntry before after ks s))
      (w.map fun v => .table .value [(n, v)]) where
  exists_cons := ⟨'\x7b', _, rfl, rfl, by decide, by decide⟩
  run {r} _ := by
    have hentry := h.entry (.single hk) before after
    have htake := hentry.takeEnclosed_single '\x7b' .brace left right r
    rw [enclosedText, List.cons_append] at htake ⊢
    rw [value_run_brace, htake]
    cases w <;> rfl

end Value

end Enrollment.Toml
