import Enrollment.Proofs.Literal

/-!
# Simple values with something after them

A text that is a simple value is read as this value whatever comes after it,
unless that could belong to it (`SimpleText.run`).  For quotations the reason is
that they end with a mark: what a parser takes of a text before its last mark
is settled by then (`Settled`).  This passes from the parsers of characters to
their repetition (`Settled.many`) and so to quotations on one line and on
several.
-/

namespace Enrollment

namespace Parser

variable {α β : Type} {q : Char} {r : List Char}

/-- What a parser takes off the front of a text, short of the mark at its end, is the same if more
comes after the mark. -/
structure Settled (q : Char) (r : List Char) (p : Parser α) : Prop where
  suffix : ∀ {s a t}, p.run s = some (a, t) → t <:+ s
  takes : ∀ {s a t}, p.run (s ++ [q]) = some (a, t ++ [q]) →
    p.run (s ++ q :: r) = some (a, t ++ q :: r)
  declines : ∀ {s}, p.run (s ++ [q]) = none → p.run (s ++ q :: r) = none

/-- A parser that takes certain texts, whatever comes after them, is settled by a mark that stands
in none of them but at the end. -/
theorem settled_of_spelled {p : Parser α} {P : List Char → α → Prop}
    (hrun : ∀ {s a t}, p.run s = some (a, t) ↔ ∃ e, s = e ++ t ∧ P e a)
    (hmark : ∀ {e a}, P e a → q ∉ e.dropLast) : Settled q r p where
  suffix h := by
    obtain ⟨e, rfl, -⟩ := hrun.1 h
    exact List.suffix_append e _
  takes h := by
    obtain ⟨e, hs, he⟩ := hrun.1 h
    rw [← List.append_assoc] at hs
    rw [List.append_cancel_right hs, List.append_assoc]
    exact hrun.2 ⟨e, rfl, he⟩
  declines {s} h := by
    rw [Option.eq_none_iff_forall_ne_some] at h ⊢
    rintro ⟨a, u⟩ hsome
    obtain ⟨e, hs, he⟩ := hrun.1 hsome
    -- Without what comes after the mark the same would be taken, as it ends at the mark at the latest.
    rcases List.append_eq_append_iff.1 hs with ⟨_ | ⟨d, e'⟩, rfl, hr⟩ | ⟨e', rfl, -⟩
    · refine h (a, [q]) (hrun.2 ⟨s, rfl, ?_⟩)
      rwa [List.append_nil] at he
    · obtain ⟨rfl, -⟩ := List.cons.inj hr
      cases e' with
      | nil => exact h (a, []) (hrun.2 ⟨_, (List.append_nil _).symm, he⟩)
      | cons c e' => exact hmark he (by simp)
    · exact h (a, e' ++ [q]) (hrun.2 ⟨e, List.append_assoc _ _ _, he⟩)

theorem settled_satisfy (f : Char → Bool) : Settled q r (satisfy f) := by
  refine settled_of_spelled (P := fun e c => e = [c] ∧ f c = true) ?_ ?_
  · intro s c t
    cases s with
    | nil => simp [satisfy]
    | cons d s =>
      simp only [satisfy, Option.ite_none_right_eq_some, Option.some.injEq, Prod.mk.injEq]
      constructor
      · rintro ⟨hd, rfl, rfl⟩
        exact ⟨[d], rfl, rfl, hd⟩
      · rintro ⟨e, hs, rfl, hd⟩
        obtain ⟨rfl, rfl⟩ := List.cons.inj hs
        exact ⟨hd, rfl, rfl⟩
  · rintro e c ⟨rfl, -⟩
    exact List.not_mem_nil

theorem Settled.orElse {p p' : Parser α} (h : Settled q r p) (h' : Settled q r p') :
    Settled q r (p.orElse p') where
  suffix hrun := by
    rcases Option.or_eq_some_iff.1 hrun with hrun | ⟨-, hrun⟩
    · exact h.suffix hrun
    · exact h'.suffix hrun
  takes hrun := by
    rcases Option.or_eq_some_iff.1 hrun with hrun | ⟨hnone, hrun⟩
    · exact Option.or_eq_some_iff.2 (.inl (h.takes hrun))
    · exact Option.or_eq_some_iff.2 (.inr ⟨h.declines hnone, h'.takes hrun⟩)
  declines hrun := by
    obtain ⟨hnone, hnone'⟩ := Option.or_eq_none_iff.1 hrun
    exact Option.or_eq_none_iff.2 ⟨h.declines hnone, h'.declines hnone'⟩

theorem Settled.map {p : Parser α} (h : Settled q r p) (f : α → β) : Settled q r (p.map f) where
  suffix hrun := by
    obtain ⟨⟨a, t⟩, hrun, heq⟩ := Option.map_eq_some_iff.1 hrun
    cases heq
    exact h.suffix hrun
  takes hrun := by
    obtain ⟨⟨a, t⟩, hrun, heq⟩ := Option.map_eq_some_iff.1 hrun
    cases heq
    exact Option.map_eq_some_iff.2 ⟨_, h.takes hrun, rfl⟩
  declines hrun := by
    exact Option.map_eq_none_iff.2 (h.declines (Option.map_eq_none_iff.1 hrun))

section Many

variable {p : Parser α} (h : Settled q r p)

include h

theorem Settled.many_suffix (s : List Char) : (p.many s).2 <:+ s := by
  fun_induction many p s with
  | case1 => exact List.suffix_rfl
  | case2 s a t hrun _ rest ih => exact ih.trans (h.suffix hrun)

/-- What is left before the mark is taken or not taken, as the case may be. -/
theorem Settled.remainder_cases {s : List Char} {a : α} {u : List Char}
    (hrun : p.run (s ++ [q]) = some (a, u)) :
    u = [] ∨ ∃ t, u = t ++ [q] ∧ t.length < s.length := by
  rcases List.suffix_concat_iff.1 (h.suffix hrun) with rfl | ⟨t, rfl, ht⟩
  · exact .inl rfl
  · refine .inr ⟨t, rfl, ?_⟩
    have hshorter := p.shorter hrun
    simpa using hshorter

/-- A repetition that stops short of the mark stops there whatever comes after the mark. -/
theorem Settled.many {s t : List Char} (hleft : (p.many (s ++ [q])).2 = t ++ [q]) :
    p.many (s ++ q :: r) = ((p.many (s ++ [q])).1, t ++ q :: r) := by
  induction hn : s.length using Nat.strongRecOn generalizing s with
  | _ n ih =>
    cases hrun : p.run (s ++ [q]) with
    | none =>
      rw [many_of_none hrun] at hleft ⊢
      rw [many_of_none (h.declines hrun), List.append_cancel_right hleft]
    | some x =>
      obtain ⟨a, u⟩ := x
      rw [many_of_some hrun] at hleft ⊢
      rcases h.remainder_cases hrun with rfl | ⟨v, rfl, hv⟩
      · have hempty := p.many_length_le []
        rw [hleft] at hempty
        simp at hempty
      · rw [many_of_some (h.takes hrun), ih v.length (hn ▸ hv) hleft rfl]

end Many

end Parser

namespace Toml

open Enrollment.Parser

/-! ## Characters of quotations -/

section Characters

variable {q : Char} (r : List Char)

/-- A parser that passes over blanks and ends of lines stops before the mark. -/
theorem skipBlanks_append_mark (hq : isBlank q = false) (s : List Char) :
    skipBlanks (s ++ q :: r) = skipBlanks s ++ q :: r := by
  induction s with
  | nil => exact List.dropWhile_cons_of_neg (Bool.eq_false_iff.1 hq)
  | cons c s ih =>
    unfold skipBlanks at ih ⊢
    rw [List.cons_append, List.dropWhile_cons, List.dropWhile_cons, ih]
    split <;> rfl

theorem settled_newline (hreturn : q ≠ '\r') : Settled q r newline := by
  refine settled_of_spelled (P := fun e x => x = e ∧ (e = ['\n'] ∨ e = ['\r', '\n'])) ?_ ?_
  · intro s x t
    constructor
    · intro h
      unfold newline at h
      dsimp only at h
      split at h
      · cases h
        exact ⟨_, rfl, rfl, .inl rfl⟩
      · cases h
        exact ⟨_, rfl, rfl, .inr rfl⟩
      · cases h
    · rintro ⟨e, rfl, rfl, rfl | rfl⟩ <;> rfl
  · rintro e x ⟨rfl, rfl | rfl⟩
    · exact List.not_mem_nil
    · exact fun h => hreturn (List.mem_singleton.1 h)

/-- What an escape is written as. -/
inductive SpellsEscape : List Char → Char → Prop
  | letter {l c : Char} (h : escapeLetter? l = some c) : SpellsEscape ['\\', l] c
  | number {l : Char} {ds : List Char} (places : escapeDigits? l = some ds.length)
      (digits : ∀ d ∈ ds, Radix.isDigit 16 d) (valid : (Radix.value 16 ds).isValidChar) :
      SpellsEscape ('\\' :: l :: ds) (Char.ofNat (Radix.value 16 ds))

theorem escape_run_eq_some_iff {s t : List Char} {c : Char} :
    escape.run s = some (c, t) ↔ ∃ e, s = e ++ t ∧ SpellsEscape e c := by
  constructor
  · intro h
    unfold escape at h
    dsimp only at h
    split at h
    · next l u =>
      split at h
      · next d hl =>
        cases h
        exact ⟨['\\', l], rfl, .letter hl⟩
      · obtain ⟨n, hn, h⟩ := Option.bind_eq_some_iff.1 h
        unfold codePoint? at h
        dsimp only at h
        obtain ⟨⟨hlength, hdigits, hvalid⟩, h⟩ := Option.ite_none_right_eq_some.1 h
        cases h
        refine ⟨'\\' :: l :: u.take n, ?_, .number (hlength.symm ▸ hn) ?_ hvalid⟩
        · rw [List.cons_append, List.cons_append, List.take_append_drop]
        · exact List.all_eq_true.1 hdigits
    · cases h
  · rintro ⟨e, rfl, he⟩
    cases he with
    | letter hl => simp only [escape, List.cons_append, List.nil_append, hl]
    | number places digits valid =>
      simp only [escape, List.cons_append, escapeLetter?_eq_none places, places, Option.bind_some,
        codePoint?_append digits valid]

theorem settled_escape : Settled '"' r escape := by
  refine settled_of_spelled escape_run_eq_some_iff ?_
  intro e c he hmem
  have hmem' := List.dropLast_subset _ hmem
  cases he with
  | @letter l c hl => exact absurd (List.mem_singleton.1 hmem) (by decide)
  | @number l ds places digits valid =>
    rcases List.mem_cons.1 hmem' with h | h
    · exact absurd h (by decide)
    rcases List.mem_cons.1 h with rfl | h
    · cases places
    · exact absurd (digits _ h) (by decide)

theorem takeWhile_append_mark (hr : r.head? ≠ some q) (s : List Char) :
    (s ++ q :: r).takeWhile (· = q) = (s ++ [q]).takeWhile (· = q) := by
  induction s with
  | nil =>
    have hnone : r.takeWhile (· = q) = [] := by
      cases r with
      | nil => rfl
      | cons c r => exact List.takeWhile_cons_of_neg fun h => hr (congrArg some (of_decide_eq_true h))
    rw [List.nil_append, List.nil_append, List.takeWhile_cons, hnone, List.takeWhile_cons,
      List.takeWhile_nil]
  | cons c s ih => rw [List.cons_append, List.cons_append, List.takeWhile_cons, List.takeWhile_cons, ih]

/-- Whether a mark stands alone shows in the marks after it, so none may follow the last. -/
theorem settled_loneMark (hr : r.head? ≠ some q) : Settled q r (loneMark q) where
  suffix {s c t} h := by
    obtain ⟨-, h⟩ := Option.ite_none_right_eq_some.1 h
    cases h
    exact List.drop_suffix 1 s
  takes {s c t} h := by
    obtain ⟨hn, h⟩ := Option.ite_none_right_eq_some.1 h
    obtain ⟨rfl, ht⟩ := Prod.mk.inj (Option.some.inj h)
    rw [← takeWhile_append_mark r hr] at hn
    refine (if_pos hn).trans ?_
    cases s with
    | nil => simp at ht
    | cons d s =>
      have hs : s ++ [q] = t ++ [q] := ht
      rw [← List.append_cancel_right hs, List.cons_append, List.drop_succ_cons, List.drop_zero]
  declines {s} h := by
    refine if_neg fun hn => ?_
    rw [takeWhile_append_mark r hr] at hn
    have hsome : (loneMark q).run (s ++ [q]) = some (q, (s ++ [q]).drop 1) := if_pos hn
    rw [hsome] at h
    cases h

theorem settled_space (hreturn : q ≠ '\r') : Settled q r space :=
  ((settled_satisfy isBlank).map _).orElse ((settled_newline r hreturn).map _)

theorem lineJoin_run_eq_none {c : Char} (hc : c ≠ '\\') (s : List Char) :
    lineJoin.run (c :: s) = none := by
  simp [lineJoin, hc]

theorem lineJoin_run (s : List Char) : lineJoin.run ('\\' :: s) =
    (newline.run (skipBlanks s)).map fun x => ([], (space.many x.2).2) :=
  rfl

theorem settled_lineJoin : Settled '"' r lineJoin := by
  have hnewline : Settled '"' r newline := settled_newline r (by decide)
  have hspace : Settled '"' r space := settled_space r (by decide)
  have hskip : ∀ s r, skipBlanks (s ++ '"' :: r) = skipBlanks s ++ '"' :: r :=
    fun s r => skipBlanks_append_mark r rfl s
  constructor
  · intro s a t h
    cases s with
    | nil => cases h
    | cons c s =>
      by_cases hc : c = '\\'
      · subst hc
        rw [lineJoin_run] at h
        obtain ⟨⟨e, u⟩, hu, h⟩ := Option.map_eq_some_iff.1 h
        cases h
        have hblanks : skipBlanks s <:+ s := List.dropWhile_suffix _
        exact (hspace.many_suffix u).trans ((hnewline.suffix hu).trans
          (hblanks.trans (List.suffix_cons _ _)))
      · rw [lineJoin_run_eq_none hc] at h
        cases h
  · intro s a t h
    cases s with
    | nil => cases h
    | cons c s =>
      by_cases hc : c = '\\'
      · subst hc
        rw [List.cons_append, lineJoin_run, hskip] at h
        obtain ⟨⟨e, u⟩, hu, h⟩ := Option.map_eq_some_iff.1 h
        obtain ⟨rfl, hleft⟩ := Prod.mk.inj h
        rw [List.cons_append, lineJoin_run, hskip]
        rcases hnewline.remainder_cases hu with rfl | ⟨v, rfl, -⟩
        · rw [many_of_none rfl] at hleft
          simp at hleft
        · rw [hnewline.takes hu, Option.map_some, hspace.many hleft]
      · rw [List.cons_append, lineJoin_run_eq_none hc] at h
        cases h
  · intro s h
    cases s with
    | nil => rfl
    | cons c s =>
      by_cases hc : c = '\\'
      · subst hc
        rw [List.cons_append, lineJoin_run, hskip] at h ⊢
        rw [hnewline.declines (Option.map_eq_none_iff.1 h), Option.map_none]
      · rw [List.cons_append, lineJoin_run_eq_none hc]

end Characters

/-! ## Quotations -/

section Marks

variable {α : Type} {q : Char} {r s : List Char}

theorem closeWith_eq_some_iff {x : List α × List Char} {as : List α} :
    closeWith q x = some (as, r) ↔ x = (as, q :: r) := by
  obtain ⟨bs, _ | ⟨c, t⟩⟩ := x
  · simp [closeWith]
  · simp only [closeWith, Option.ite_none_right_eq_some, Option.some.injEq, Prod.mk.injEq,
      List.cons.injEq]
    exact and_left_comm

theorem exists_eq_append_mark {t : List Char} (h : t ++ [q] <:+ s) : ∃ s', s = s' ++ [q] := by
  obtain ⟨u, rfl⟩ := h
  exact ⟨u ++ t, (List.append_assoc _ _ _).symm⟩

/-- A quotation on one line that is all of a text begins and ends with a mark, and the characters
between them are taken as far as the second mark. -/
theorem exists_of_surrounded_run {p : Parser α} (h : Settled q r p) {as : List α}
    (hrun : (surrounded q p).run s = some (as, [])) :
    ∃ t, s = q :: (t ++ [q]) ∧ p.many (t ++ [q]) = (as, [q]) := by
  cases s with
  | nil => cases hrun
  | cons c s =>
    obtain ⟨rfl, hclose⟩ := Option.ite_none_right_eq_some.1 hrun
    have hmany := closeWith_eq_some_iff.1 hclose
    have hsuffix := h.many_suffix s
    rw [hmany] at hsuffix
    obtain ⟨t, rfl⟩ := exists_eq_append_mark (t := []) hsuffix
    exact ⟨t, rfl, hmany⟩

theorem surrounded_run_append {p : Parser α} (h : Settled q r p) {as : List α}
    (hrun : (surrounded q p).run s = some (as, [])) :
    (surrounded q p).run (s ++ r) = some (as, r) := by
  obtain ⟨t, rfl, hmany⟩ := exists_of_surrounded_run h hrun
  have hlater := h.many (t := []) (congrArg Prod.snd hmany)
  rw [hmany, List.nil_append] at hlater
  rw [List.cons_append, List.append_assoc, List.singleton_append]
  refine (if_pos rfl).trans ?_
  rw [hlater, closeWith_eq_some_iff]

theorem skipNewline_append_mark (hreturn : q ≠ '\r') {t : List Char}
    (h : skipNewline (s ++ [q]) = t ++ [q]) : skipNewline (s ++ q :: r) = t ++ q :: r := by
  have hnewline : Settled q r newline := settled_newline r hreturn
  unfold skipNewline at h ⊢
  cases hrun : newline.run (s ++ [q]) with
  | none =>
    rw [hrun] at h
    rw [hnewline.declines hrun, List.append_cancel_right h]
  | some x =>
    obtain ⟨e, u⟩ := x
    rw [hrun] at h
    subst h
    rw [hnewline.takes hrun]

theorem skipNewline_suffix (s : List Char) : skipNewline s <:+ s := by
  unfold skipNewline
  cases hrun : newline.run s with
  | none => exact List.suffix_rfl
  | some x => exact (settled_newline (q := '"') [] (by decide)).suffix hrun

theorem surroundedThrice_run_append {p : Parser (List Char)} (h : Settled q r p)
    (hreturn : q ≠ '\r') {cs : List Char} (hrun : (surroundedThrice q p).run s = some (cs, [])) :
    (surroundedThrice q p).run (s ++ r) = some (cs, r) := by
  obtain ⟨hopen, hrun⟩ := Option.ite_none_right_eq_some.1 hrun
  obtain ⟨hclose, hrun⟩ := Option.ite_none_right_eq_some.1 hrun
  obtain ⟨rfl, hnil⟩ := Prod.mk.inj (Option.some.inj hrun)
  have hleft : (p.many (skipNewline (s.drop 3))).2 = [q, q] ++ [q] := by
    rw [← List.take_append_drop 3 (p.many (skipNewline (s.drop 3))).2, hclose, hnil]
    rfl
  -- What is left in the end is left on the way there too, so each part ends with the mark.
  have hsuffix := h.many_suffix (skipNewline (s.drop 3))
  rw [hleft] at hsuffix
  obtain ⟨t, ht⟩ := exists_eq_append_mark hsuffix
  obtain ⟨u, hu⟩ := exists_eq_append_mark (ht ▸ skipNewline_suffix (s.drop 3))
  have hs : s = [q, q, q] ++ (u ++ [q]) := by
    rw [← hopen, ← hu, List.take_append_drop]
  rw [hu] at ht
  rw [hu, ht] at hleft ⊢
  have hlater := h.many hleft
  have hnewline := skipNewline_append_mark (r := r) hreturn ht
  have hdrop : (s ++ r).drop 3 = u ++ q :: r := by
    rw [hs, List.append_assoc, List.append_assoc]
    rfl
  have htake : (s ++ r).take 3 = [q, q, q] := by
    rw [hs, List.append_assoc]
    rfl
  refine (if_pos htake).trans ?_
  rw [hdrop, hnewline, hlater]
  exact if_pos rfl

theorem surroundedThrice_run_eq_none_of_ne {p : Parser (List Char)} {c : Char} (hc : c ≠ q)
    (s : List Char) : (surroundedThrice q p).run (c :: s) = none :=
  if_neg fun h => hc (List.cons.inj h).1

/-- A quotation on one line does not begin with three marks, unless one comes right after it. -/
theorem surroundedThrice_run_append_eq_none {p : Parser α} (h : Settled q r p)
    (hq : ∀ u, p.run (q :: u) = none) (hr : r.head? ≠ some q) {as : List α}
    (hrun : (surrounded q p).run s = some (as, [])) (pieces : Parser (List Char)) :
    (surroundedThrice q pieces).run (s ++ r) = none := by
  obtain ⟨t, rfl, hmany⟩ := exists_of_surrounded_run h hrun
  refine if_neg fun htake => ?_
  cases t with
  | nil =>
    cases r with
    | nil => cases htake
    | cons c r =>
      obtain rfl : c = q := by simpa using htake
      exact hr rfl
  | cons c t =>
    -- A second mark right after the first ends the quotation there.
    obtain ⟨rfl, -⟩ : c = q ∧ _ := by simpa using htake
    rw [List.cons_append, many_of_none (hq _)] at hmany
    have hlength := congrArg (fun x => x.2.length) hmany
    simp at hlength

end Marks

theorem surrounded_run_eq_none {α : Type} {p : Parser α} {q c : Char} (hc : c ≠ q) (s : List Char) :
    (surrounded q p).run (c :: s) = none :=
  if_neg hc

theorem settled_basicChar (r : List Char) : Settled '"' r basicChar :=
  (settled_escape r).orElse (settled_satisfy _)

theorem exists_cons_of_surroundedThrice_run {p : Parser (List Char)} {q : Char} {s : List Char}
    {x : List Char × List Char} (h : (surroundedThrice q p).run s = some x) : ∃ t, s = q :: t := by
  obtain ⟨hopen, -⟩ := Option.ite_none_right_eq_some.1 h
  cases s with
  | nil => cases hopen
  | cons c s =>
    obtain ⟨rfl, -⟩ := List.cons.inj hopen
    exact ⟨s, rfl⟩

/-- A quotation of any kind is read the same, unless a mark comes right after it. -/
theorem quotation_run_append {s r cs : List Char} (hbasic : r.head? ≠ some '"')
    (hliteral : r.head? ≠ some '\'') (hrun : quotation.run s = some (cs, [])) :
    quotation.run (s ++ r) = some (cs, r) := by
  have hescapedPieces := (settled_lineJoin r).orElse (((settled_escape r).map fun c => [c]).orElse
    ((settled_newline r (by decide)).orElse (((settled_loneMark r hbasic).orElse
      (settled_satisfy fun c => isTextual c && c ≠ '"' && c ≠ '\\')).map fun c => [c])))
  have hplainPieces := (settled_newline r (by decide)).orElse (((settled_loneMark r hliteral).orElse
    (settled_satisfy fun c => isTextual c && c ≠ '\'')).map fun c => [c])
  have hplainChar : Settled '\'' r (satisfy fun c => isTextual c && c ≠ '\'') := settled_satisfy _
  rcases Option.or_eq_some_iff.1 hrun with hrun | ⟨-, hrun⟩
  · rcases Option.or_eq_some_iff.1 hrun with hrun | ⟨-, hrun⟩
    · have hmore : multilineBasic.run (s ++ r) = some (cs, r) :=
        surroundedThrice_run_append hescapedPieces (by decide) hrun
      simp only [quotation, orElse, hmore, Option.some_or]
    · have hmore : multilineLiteral.run (s ++ r) = some (cs, r) :=
        surroundedThrice_run_append hplainPieces (by decide) hrun
      obtain ⟨t, rfl⟩ := exists_cons_of_surroundedThrice_run hrun
      have hother : multilineBasic.run ('\'' :: t ++ r) = none :=
        surroundedThrice_run_eq_none_of_ne (by decide) _
      simp only [quotation, orElse, hother, hmore, Option.none_or, Option.some_or]
  · rcases Option.or_eq_some_iff.1 hrun with hrun | ⟨-, hrun⟩
    · have hmore : basic.run (s ++ r) = some (cs, r) :=
        surrounded_run_append (settled_basicChar r) hrun
      have hthrice : multilineBasic.run (s ++ r) = none :=
        surroundedThrice_run_append_eq_none (settled_basicChar r) (fun _ => rfl) hbasic hrun _
      obtain ⟨t, rfl, -⟩ := exists_of_surrounded_run (settled_basicChar r) hrun
      have hother : multilineLiteral.run ('"' :: (t ++ ['"']) ++ r) = none :=
        surroundedThrice_run_eq_none_of_ne (by decide) _
      simp only [quotation, orElse, hthrice, hother, hmore, Option.none_or, Option.some_or]
    · have hmore : literal.run (s ++ r) = some (cs, r) := surrounded_run_append hplainChar hrun
      have hthrice : multilineLiteral.run (s ++ r) = none :=
        surroundedThrice_run_append_eq_none hplainChar (fun _ => rfl) hliteral hrun _
      obtain ⟨t, rfl, -⟩ := exists_of_surrounded_run hplainChar hrun
      have hother : multilineBasic.run ('\'' :: (t ++ ['\'']) ++ r) = none :=
        surroundedThrice_run_eq_none_of_ne (by decide) _
      have hother' : basic.run ('\'' :: (t ++ ['\'']) ++ r) = none :=
        surrounded_run_eq_none (by decide) _
      simp only [quotation, orElse, hother, hthrice, hother', hmore, Option.none_or]

/-! ## Simple values -/

theorem splitWord_cases (s : List Char) :
    splitWord s = (s.takeWhile isWordChar, s.dropWhile isWordChar) ∨
      ∃ d t, isDate (s.takeWhile isWordChar) = true ∧ d.isDigit = true ∧
        splitWord s = (s.takeWhile isWordChar ++ ' ' :: (d :: t).takeWhile isWordChar,
          (d :: t).dropWhile isWordChar) := by
  unfold splitWord
  dsimp only
  split
  · next d t hdrop =>
    by_cases hdate : (isDate (s.takeWhile isWordChar) && d.isDigit) = true
    · rw [if_pos hdate]
      obtain ⟨hday, hdigit⟩ := Bool.and_eq_true_iff.1 hdate
      exact .inr ⟨d, t, hday, hdigit, rfl⟩
    · rw [if_neg hdate, hdrop]
      exact .inl rfl
  · exact .inl rfl

/-- What is taken as a word is one. -/
theorem isWord_splitWord {s : List Char} (hne : (splitWord s).1 ≠ []) : IsWord (splitWord s).1 := by
  have hword : ∀ u : List Char, ∀ c ∈ u.takeWhile isWordChar, isWordChar c :=
    fun u => List.all_eq_true.1 List.all_takeWhile
  rcases splitWord_cases s with h | ⟨d, t, hday, hdigit, h⟩
  · rw [h] at hne ⊢
    exact .unbroken hne (hword s)
  · have hd : isWordChar d = true := by
      simp [isWordChar, Char.isAlphanum, hdigit]
    rw [h, List.takeWhile_cons_of_pos hd]
    exact .spaced hday (hword s) hdigit (hword t)

theorem word_run_append {s r : List Char} {x : Scalar} (hr : Ends r)
    (hrun : word.run s = some (x, [])) :
    word.run (s ++ r) = some (x, r) ∧ ∃ c t, s = c :: t ∧ isWordChar c = true := by
  obtain ⟨hne, hrun⟩ := Option.ite_none_left_eq_some.1 hrun
  obtain ⟨y, hy, hx⟩ := Option.map_eq_some_iff.1 hrun
  obtain ⟨rfl, hall⟩ := Prod.mk.inj hx
  have happend := splitWord_append s
  rw [hall, List.append_nil] at happend
  have hword := isWord_splitWord hne
  rw [happend] at hword hy
  refine ⟨?_, hword.exists_cons⟩
  rw [hword.word_run hr, hy, Option.map_some]

/-- A text is a simple value from end to end. -/
def SimpleText (s : List Char) (x : Scalar) : Prop :=
  simpleValue.run s = some (.leaf .value x, [])

instance (s : List Char) (x : Scalar) : Decidable (SimpleText s x) :=
  inferInstanceAs (Decidable (_ = _))

namespace SimpleText

variable {s : List Char} {x : Scalar}

theorem cases (h : SimpleText s x) :
    (∃ cs, quotation.run s = some (cs, []) ∧ x = .text (String.ofList cs)) ∨
      word.run s = some (x, []) := by
  obtain ⟨⟨y, u⟩, hy, hx⟩ := Option.map_eq_some_iff.1 h
  cases hx
  rcases Option.or_eq_some_iff.1 hy with hy | ⟨-, hy⟩
  · obtain ⟨⟨cs, t⟩, hcs, heq⟩ := Option.map_eq_some_iff.1 hy
    cases heq
    exact .inl ⟨cs, hcs, rfl⟩
  · exact .inr hy

/-- A simple value is read the same whatever comes after it that cannot belong to it. -/
theorem simpleValue_run (h : SimpleText s x) {r : List Char} (hr : Ends r) :
    simpleValue.run (s ++ r) = some (.leaf .value x, r) := by
  rcases h.cases with ⟨cs, hcs, rfl⟩ | hx
  · have hmore := quotation_run_append (hr.head?_ne rfl) (hr.head?_ne rfl) hcs
    simp only [simpleValue, map, orElse, hmore, Option.map_some, Option.some_or]
  · obtain ⟨hmore, c, t, rfl, hc⟩ := word_run_append hr hx
    have hquote : quotation.run (c :: t ++ r) = none := by
      refine quotation_run_eq_none ?_ ?_ (t ++ r)
      · rintro rfl
        cases hc
      · rintro rfl
        cases hc
    simp only [simpleValue, map, orElse, hquote, hmore, Option.map_none, Option.map_some,
      Option.none_or]

theorem exists_cons (h : SimpleText s x) : ∃ c t, s = c :: t ∧ isOpening c = true := by
  rcases h.cases with ⟨cs, hcs, -⟩ | hx
  · cases s with
    | nil => cases hcs
    | cons c t =>
      refine ⟨c, t, rfl, ?_⟩
      by_cases hbasic : c = '"'
      · rw [hbasic]
        rfl
      · by_cases hliteral : c = '\''
        · rw [hliteral]
          rfl
        · rw [quotation_run_eq_none hbasic hliteral] at hcs
          cases hcs
  · obtain ⟨-, c, t, rfl, hc⟩ := word_run_append Ends.nil hx
    exact ⟨c, t, rfl, by rw [isOpening, hc]; rfl⟩

theorem value_run (h : SimpleText s x) {r : List Char} (hr : Ends r) (depth : Nat) :
    (value depth).run (s ++ r) = some (.leaf .value x, r) := by
  obtain ⟨c, t, hs, hc⟩ := h.exists_cons
  rw [← h.simpleValue_run hr, hs]
  exact value_run_of_isOpening hc (t ++ r) depth

end SimpleText

example : SimpleText "'''\n'a\n\t'b'''''".toList (.text "'a\n\t'b''") := by
  decide +kernel

end Toml

end Enrollment
