import Enrollment.Proofs.Enclosure
import Enrollment.Proofs.IdleLines
import Enrollment.Proofs.Layout
import Enrollment.Proofs.SimpleText
import Mathlib.Data.List.Forall2

/-!
# What a file gives twice

Nothing that a document has given is ever replaced.  Statements that give a name
twice below one heading, or open a table again that has a heading, stands under
a dotted key or is written in braces, therefore do not make a document, and it
does not help to put other entries between them (`Repetition.assemble?_eq_none`).
The lines that say so may be written in many ways and have comments and entries
between them, of which nothing is left but what they say
(`exists_statements?_joinLines`).  So loading a file with such lines fails
(`load_repetition`).
-/

namespace Enrollment

/-- The members of a list with others among them that have a property. -/
inductive Among {α : Type} (P : α → Prop) : List α → List α → Prop where
  | nil : Among P [] []
  | keep (a : α) {l m : List α} (h : Among P l m) : Among P (a :: l) (a :: m)
  | extra {a : α} (ha : P a) {l m : List α} (h : Among P l m) : Among P l (a :: m)

theorem Among.exists_append {α : Type} {P : α → Prop} {a : α} {l m : List α}
    (h : Among P (a :: l) m) :
    ∃ extras m', (∀ x ∈ extras, P x) ∧ m = extras ++ a :: m' ∧ Among P l m' := by
  generalize hl : a :: l = l' at h
  induction h with
  | nil => cases hl
  | keep b h _ =>
    cases hl
    exact ⟨[], _, fun x hx => absurd hx List.not_mem_nil, rfl, h⟩
  | @extra b hb _ m _ ih =>
    obtain ⟨extras, m', hextras, rfl, hm'⟩ := ih hl
    exact ⟨b :: extras, m', List.forall_mem_cons.2 ⟨hb, hextras⟩, rfl, hm'⟩

theorem Among.forall_mem {α : Type} {P : α → Prop} {m : List α} (h : Among P [] m) :
    ∀ x ∈ m, P x := by
  generalize hl : [] = l' at h
  induction h with
  | nil => exact fun x hx => absurd hx List.not_mem_nil
  | keep b h _ => cases hl
  | extra hb _ ih => exact List.forall_mem_cons.2 ⟨hb, ih hl⟩

namespace Toml

open Enrollment.Parser

/-! ## Building a document -/

/-- A table that only longer headings have passed through may still be given a heading. -/
def IsImplied : Node → Prop
  | .table .implied _ => True
  | _ => False

theorem insertAll_append (kvs lvs : List (Key × Node)) (es : Entries Node) :
    insertAll (kvs ++ lvs) es = (insertAll kvs es).bind (insertAll lvs) := by
  induction kvs generalizing es with
  | nil => rfl
  | cons kv kvs ih =>
    obtain ⟨k, v⟩ := kv
    rw [List.cons_append, insertAll, insertAll, Option.bind_assoc]
    exact congrArg (Option.bind (insert k v es)) (funext fun es' => ih es')

theorem insert_single (n : String) (v : Node) (es : Entries Node) :
    insert ⟨[], n⟩ v es = add n v es := by
  rw [insert, within]
  exact if_pos (.inl rfl)

theorem add_eq_none {n : String} {es : Entries Node} {v : Node} (h : Entries.get? n es = some v)
    (w : Node) : add n w es = none := by
  rw [add, h]

theorem get?_of_add {n : String} {v : Node} {es es' : Entries Node} (h : add n v es = some es') :
    Entries.get? n es' = some v := by
  unfold add at h
  split at h
  · cases h
    exact Entries.get?_put_self n v es
  · cases h

/-- What stands under a name stays there whatever is added under other names. -/
theorem get?_add_of_eq_some {n t : String} {v w : Node} {es es' : Entries Node}
    (h : add n v es = some es') (ht : Entries.get? t es = some w) : Entries.get? t es' = some w := by
  unfold add at h
  split at h
  · next hnone =>
    cases h
    have hne : t ≠ n := by
      rintro rfl
      rw [ht] at hnone
      cases hnone
    rw [Entries.get?_put_of_ne hne, ht]
  · cases h

/-- An entry under a single name. -/
def IsSingle (kv : Key × Node) : Prop :=
  kv.1.parents = []

theorem get?_insertAll_of_eq_some {kvs : List (Key × Node)} (hkvs : ∀ kv ∈ kvs, IsSingle kv)
    {t : String} {w : Node} {es es' : Entries Node} (h : insertAll kvs es = some es')
    (ht : Entries.get? t es = some w) : Entries.get? t es' = some w := by
  induction kvs generalizing es with
  | nil =>
    cases h
    exact ht
  | cons kv kvs ih =>
    obtain ⟨⟨parents, n⟩, v⟩ := kv
    obtain ⟨hsingle, hrest⟩ := List.forall_mem_cons.1 hkvs
    obtain rfl : parents = [] := hsingle
    obtain ⟨mid, hmid, h⟩ := Option.bind_eq_some_iff.1 h
    rw [insert_single] at hmid
    exact ih hrest h (get?_add_of_eq_some hmid ht)

section Tables

variable {t : String} {es es' : Entries Node}

/-- A heading for what is there already, unless it is a table that is only implied. -/
theorem insertTable_eq_none {v : Node} (ht : Entries.get? t es = some v) (hv : ¬ IsImplied v)
    (kvs : List (Key × Node)) : insertTable ⟨[], t⟩ kvs es = none := by
  unfold insertTable within
  dsimp only
  rw [ht]
  split
  · next h => cases h
  · next h =>
    cases h
    exact absurd trivial hv
  · rfl

theorem insertTable_eq_none_of_forall {kvs : List (Key × Node)}
    (h : ∀ es, insertAll kvs es = none) (es : Entries Node) :
    insertTable ⟨[], t⟩ kvs es = none := by
  unfold insertTable within
  dsimp only
  split
  · rw [h, Option.map_none]
  · rw [h, Option.map_none]
  · rfl

theorem get?_of_insertTable {kvs : List (Key × Node)}
    (h : insertTable ⟨[], t⟩ kvs es = some es') :
    ∃ u, Entries.get? t es' = some (.table .heading u) := by
  unfold insertTable within at h
  dsimp only at h
  split at h
  · obtain ⟨u, -, rfl⟩ := Option.map_eq_some_iff.1 h
    exact ⟨u, Entries.get?_put_self _ _ _⟩
  · obtain ⟨u, -, rfl⟩ := Option.map_eq_some_iff.1 h
    exact ⟨u, Entries.get?_put_self _ _ _⟩
  · cases h

/-- What stands under the first name of a dotted key once a value has been added under it. -/
theorem exists_get?_of_insert {n : String} {v : Node} (h : insert ⟨[t], n⟩ v es = some es') :
    ∃ w, Entries.get? t es' = some w ∧ ¬ IsImplied w := by
  unfold insert within at h
  dsimp only at h
  split at h
  · obtain ⟨u, -, rfl⟩ := Option.map_eq_some_iff.1 h
    exact ⟨_, Entries.get?_put_self _ _ _, id⟩
  · obtain ⟨-, h⟩ := Option.ite_none_right_eq_some.1 h
    obtain ⟨u, -, rfl⟩ := Option.map_eq_some_iff.1 h
    exact ⟨_, Entries.get?_put_self _ _ _, id⟩
  · split at h
    · obtain ⟨u, -, rfl⟩ := Option.map_eq_some_iff.1 h
      exact ⟨_, Entries.get?_put_self _ _ _, id⟩
    · cases h
  · cases h

/-- A table in braces is complete. -/
theorem insert_eq_none_of_value {u : Entries Node}
    (ht : Entries.get? t es = some (.table .value u)) (n : String) (v : Node) :
    insert ⟨[t], n⟩ v es = none := by
  unfold insert within
  dsimp only
  rw [ht]
  rfl

end Tables

/-! ## Statements that make no document -/

/-- Statements of which a later one gives again what an earlier one has given. -/
inductive Repetition : List Statement → Prop
  /-- Two entries under one name below a heading. -/
  | entry (t n : String) (v w : Node) :
      Repetition [.table ⟨[], t⟩, .entry ⟨[], n⟩ v, .entry ⟨[], n⟩ w]
  /-- Two headings for one table. -/
  | heading (t : String) : Repetition [.table ⟨[], t⟩, .table ⟨[], t⟩]
  /-- A dotted key and a heading for the table that it leads through. -/
  | dotted (t n : String) (v : Node) : Repetition [.entry ⟨[t], n⟩ v, .table ⟨[], t⟩]
  /-- A table in braces and a heading for it. -/
  | braces (t : String) (es : Entries Node) :
      Repetition [.entry ⟨[], t⟩ (.table .value es), .table ⟨[], t⟩]
  /-- A table in braces and a dotted key that leads through it. -/
  | bracesDotted (t n : String) (es : Entries Node) (w : Node) :
      Repetition [.entry ⟨[], t⟩ (.table .value es), .entry ⟨[t], n⟩ w]

/-- An entry under a single name, which may stand anywhere. -/
def IsExtra : Statement → Prop
  | .entry k _ => k.parents = []
  | _ => False

theorem exists_sections_append {sts : List Statement} (h : ∀ st ∈ sts, IsExtra st) :
    ∃ kvs, (∀ kv ∈ kvs, IsSingle kv) ∧
      ∀ rest, sections (sts ++ rest) = (kvs ++ (sections rest).1, (sections rest).2) := by
  induction sts with
  | nil => exact ⟨[], fun kv hkv => absurd hkv List.not_mem_nil, fun rest => rfl⟩
  | cons st sts ih =>
    obtain ⟨hst, hsts⟩ := List.forall_mem_cons.1 h
    obtain ⟨kvs, hkvs, hsections⟩ := ih hsts
    cases st with
    | table k => exact hst.elim
    | element k => exact hst.elim
    | entry k v =>
      refine ⟨(k, v) :: kvs, List.forall_mem_cons.2 ⟨hst, hkvs⟩, fun rest => ?_⟩
      rw [List.cons_append, sections, hsections]
      rfl

/-- Entries under one name are not added to a table, whatever comes before, between and after
them. -/
theorem insertAll_eq_none_of_twice (kvs₁ kvs₃ : List (Key × Node)) {kvs₂ : List (Key × Node)}
    (hkvs : ∀ kv ∈ kvs₂, IsSingle kv) (n : String) (v w : Node) (es : Entries Node) :
    insertAll (kvs₁ ++ (⟨[], n⟩, v) :: (kvs₂ ++ (⟨[], n⟩, w) :: kvs₃)) es = none := by
  rw [insertAll_append, Option.bind_eq_none_iff]
  intro es₁ _
  rw [insertAll, Option.bind_eq_none_iff]
  intro es₂ hv
  rw [insert_single] at hv
  rw [insertAll_append, Option.bind_eq_none_iff]
  intro es₃ hmore
  have htaken := get?_insertAll_of_eq_some hkvs hmore (get?_of_add hv)
  rw [insertAll, insert_single, add_eq_none htaken, Option.bind_none]

/-- Where something other than an implied table stands under a name, the document cannot go on to
give it a heading. -/
theorem insertSections_eq_none {t : String} {v : Node} (hv : ¬ IsImplied v) {es : Entries Node}
    (ht : Entries.get? t es = some v) (kvs : List (Key × Node)) (ss : List Section) :
    insertSections (⟨.table ⟨[], t⟩, kvs⟩ :: ss) es = none := by
  rw [insertSections, Section.insert]
  dsimp only
  rw [insertTable_eq_none ht hv, Option.bind_none]

/-- A document does not go on with a statement which does not go with what an entry before it has
put under a name, whatever entries stand among the two. -/
theorem assemble?_eq_none_of_entry {k : Key} {v : Node} {t : String} {Q : Node → Prop}
    (hput : ∀ es es', insert k v es = some es' → ∃ w, Entries.get? t es' = some w ∧ Q w)
    {st : Statement} (hnone : ∀ es w later, Entries.get? t es = some w → Q w →
      (insertAll (sections (st :: later)).1 es).bind
        (insertSections (sections (st :: later)).2) = none)
    {all : List Statement} (hall : Among IsExtra [.entry k v, st] all) : assemble? all = none := by
  obtain ⟨e₀, m₁, he₀, rfl, hm₁⟩ := hall.exists_append
  obtain ⟨e₁, m₂, he₁, rfl, -⟩ := hm₁.exists_append
  obtain ⟨kvs₀, -, h₀⟩ := exists_sections_append he₀
  obtain ⟨kvs₁, hkvs₁, h₁⟩ := exists_sections_append he₁
  rw [assemble?, h₀, sections, h₁, insertAll_append, Option.bind_assoc, Option.bind_eq_none_iff]
  intro es _
  rw [insertAll, Option.bind_assoc, Option.bind_eq_none_iff]
  intro es₁ hv
  obtain ⟨w, hw, hQ⟩ := hput es es₁ hv
  rw [insertAll_append, Option.bind_assoc, Option.bind_eq_none_iff]
  intro es₂ hmore
  exact hnone es₂ w m₂ (get?_insertAll_of_eq_some hkvs₁ hmore hw) hQ

theorem assemble?_eq_none_of_heading {k : Key} {v : Node} {t : String}
    (hput : ∀ es es', insert k v es = some es' → ∃ w, Entries.get? t es' = some w ∧ ¬ IsImplied w)
    {all : List Statement} (hall : Among IsExtra [.entry k v, .table ⟨[], t⟩] all) :
    assemble? all = none := by
  refine assemble?_eq_none_of_entry hput ?_ hall
  intro es w later ht hv
  exact insertSections_eq_none hv ht _ _

theorem get?_of_insert_single {t : String} {v : Node} {es es' : Entries Node}
    (h : insert ⟨[], t⟩ v es = some es') : Entries.get? t es' = some v := by
  rw [insert_single] at h
  exact get?_of_add h

/-- What has been given once is not given again in a document, whatever entries stand among. -/
theorem Repetition.assemble?_eq_none {sts all : List Statement} (h : Repetition sts)
    (hall : Among IsExtra sts all) : assemble? all = none := by
  cases h with
  | entry t n v w =>
    obtain ⟨e₀, m₁, he₀, rfl, hm₁⟩ := hall.exists_append
    obtain ⟨e₁, m₂, he₁, rfl, hm₂⟩ := hm₁.exists_append
    obtain ⟨e₂, m₃, he₂, rfl, -⟩ := hm₂.exists_append
    obtain ⟨kvs₀, -, h₀⟩ := exists_sections_append he₀
    obtain ⟨kvs₁, -, h₁⟩ := exists_sections_append he₁
    obtain ⟨kvs₂, hkvs₂, h₂⟩ := exists_sections_append he₂
    rw [assemble?, h₀, Option.bind_eq_none_iff]
    intro es _
    rw [sections, h₁, sections, h₂, sections, insertSections, Section.insert]
    dsimp only
    rw [insertTable_eq_none_of_forall (insertAll_eq_none_of_twice kvs₁ _ hkvs₂ n v w),
      Option.bind_none]
  | heading t =>
    obtain ⟨e₀, m₁, he₀, rfl, hm₁⟩ := hall.exists_append
    obtain ⟨e₁, m₂, he₁, rfl, -⟩ := hm₁.exists_append
    obtain ⟨kvs₀, -, h₀⟩ := exists_sections_append he₀
    obtain ⟨kvs₁, -, h₁⟩ := exists_sections_append he₁
    rw [assemble?, h₀, Option.bind_eq_none_iff]
    intro es _
    rw [sections, h₁, sections, insertSections, Option.bind_eq_none_iff]
    intro es₁ hfirst
    obtain ⟨u, hu⟩ := get?_of_insertTable hfirst
    exact insertSections_eq_none id hu _ _
  | dotted t n v =>
    exact assemble?_eq_none_of_heading (fun _ _ hput => exists_get?_of_insert hput) hall
  | braces t u =>
    exact assemble?_eq_none_of_heading
      (fun _ _ hput => ⟨_, get?_of_insert_single hput, id⟩) hall
  | bracesDotted t n u w =>
    refine assemble?_eq_none_of_entry (Q := (· = .table .value u))
      (fun _ _ hput => ⟨_, get?_of_insert_single hput, rfl⟩) ?_ hall
    rintro es _ later ht rfl
    rw [sections, insertAll, insert_eq_none_of_value ht, Option.bind_none, Option.bind_none]

/-! ## Lines that say it -/

/-- A comment says nothing. -/
theorem statements?_comment {cs r t : List Char} (hcs : ∀ c ∈ cs, isTextual c = true)
    (hr : EndsLine r t) : statements? ('#' :: cs ++ r) = statements? t :=
  (⟨.empty, some ⟨cs, hcs⟩⟩ : Trail).statements?_append hr

theorem Says.simple {ks vs : List Char} {k : Key} (hk : KeyText ks k) {x : Scalar}
    (hv : SimpleText vs x) : Says (entryText ks vs) (some (.entry k (.leaf .value x))) :=
  Says.entry hk (v := some _) (exists_cons_isSolid hv.exists_cons) fun hr =>
    hv.value_run hr.ends maxDepth

/-- A table in braces that holds one entry, as it is written. -/
def bracedText (e : List Char) : List Char :=
  '\x7b' :: (e ++ ['\x7d'])

theorem SimpleText.takes {vs : List Char} {x : Scalar} (hv : SimpleText vs x) (depth : Nat) :
    Takes (value depth) vs (some (.leaf .value x)) :=
  .of_isOpening hv.exists_cons fun hr => hv.value_run hr depth

theorem Says.braced {ts ks vs : List Char} {k : Key} {n : String} (ht : KeyText ts k)
    (hk : NameText ks n) {x : Scalar} (hv : SimpleText vs x) :
    Says (entryText ts (bracedText (entryText ks vs)))
      (some (.entry k (.table .value [(n, .leaf .value x)]))) := by
  have htable := (hv.takes (maxDepth - 1)).singleTable .empty .empty hk .single .single
  exact Says.entry ht (v := some _) ⟨'\x7b', _, rfl, rfl⟩ fun hr => htable.run hr.ends

/-- A line that may stand among others: a comment, or a simple value under a name. -/
inductive IsFiller : List Char → Prop
  | comment {cs : List Char} (h : ∀ c ∈ cs, isTextual c = true) : IsFiller ('#' :: cs)
  | entry {ks vs : List Char} {n : String} {x : Scalar} (hk : NameText ks n)
      (hv : SimpleText vs x) : IsFiller (entryText ks vs)

/-- Lines of which a later one gives again what an earlier one has given.  Names may be written in
different ways each time. -/
inductive Repeats : List (List Char) → Prop
  | entry {t n : String} {ts ks ls vs ws : List Char} {x y : Scalar} (ht : NameText ts t)
      (hk : NameText ks n) (hl : NameText ls n) (hv : SimpleText vs x) (hw : SimpleText ws y) :
      Repeats [headingText ts, entryText ks vs, entryText ls ws]
  | heading {t : String} {ts us : List Char} (ht : NameText ts t) (hu : NameText us t) :
      Repeats [headingText ts, headingText us]
  | dotted {t n : String} {ts us ks vs : List Char} {x : Scalar} (ht : NameText ts t)
      (hk : NameText ks n) (hv : SimpleText vs x) (hu : NameText us t) :
      Repeats [entryText (ts ++ '.' :: ks) vs, headingText us]
  | braces {t n : String} {ts us ks vs : List Char} {x : Scalar} (ht : NameText ts t)
      (hk : NameText ks n) (hv : SimpleText vs x) (hu : NameText us t) :
      Repeats [entryText ts (bracedText (entryText ks vs)), headingText us]
  | bracesDotted {t n m : String} {ts us ks ls vs ws : List Char} {x y : Scalar}
      (ht : NameText ts t) (hk : NameText ks n) (hv : SimpleText vs x) (hu : NameText us t)
      (hl : NameText ls m) (hw : SimpleText ws y) :
      Repeats [entryText ts (bracedText (entryText ks vs)), entryText (us ++ '.' :: ls) ws]

theorem Repeats.exists_repetition {ls : List (List Char)} (h : Repeats ls) :
    ∃ sts, Repetition sts ∧ List.Forall₂ (fun l st => Says l (some st)) ls sts := by
  cases h with
  | entry ht hk hl hv hw =>
    exact ⟨_, .entry _ _ _ _, .cons (Says.heading (.single ht)) (.cons (Says.simple (.single hk) hv)
      (.cons (Says.simple (.single hl) hw) .nil))⟩
  | heading ht hu =>
    exact ⟨_, .heading _, .cons (Says.heading (.single ht)) (.cons (Says.heading (.single hu)) .nil)⟩
  | dotted ht hk hv hu =>
    exact ⟨_, .dotted _ _ _, .cons (Says.simple (.double ht hk) hv)
      (.cons (Says.heading (.single hu)) .nil)⟩
  | braces ht hk hv hu =>
    exact ⟨_, .braces _ _, .cons (Says.braced (.single ht) hk hv)
      (.cons (Says.heading (.single hu)) .nil)⟩
  | bracesDotted ht hk hv hu hl hw =>
    exact ⟨_, .bracesDotted _ _ _ _, .cons (Says.braced (.single ht) hk hv)
      (.cons (Says.simple (.double hu hl) hw) .nil)⟩

theorem Repeats.exists_cons {ls : List (List Char)} (h : Repeats ls) :
    ∃ c s ls', ls = (c :: s) :: ls' ∧ c.toNat ≤ 0x7F := by
  cases h with
  | entry | heading => exact ⟨'[', _, _, rfl, by decide⟩
  | dotted ht =>
    obtain ⟨c, s, rfl, hc⟩ := ht.exists_cons
    exact ⟨c, _, _, rfl, toNat_le_of_isOpening hc⟩
  | braces ht | bracesDotted ht =>
    obtain ⟨c, s, rfl, hc⟩ := ht.exists_cons
    exact ⟨c, _, _, rfl, toNat_le_of_isOpening hc⟩

theorem IsFiller.exists_cons {l : List Char} (h : IsFiller l) :
    ∃ c s, l = c :: s ∧ c.toNat ≤ 0x7F := by
  cases h with
  | comment h => exact ⟨'#', _, rfl, by decide⟩
  | entry hk hv =>
    obtain ⟨c, s, rfl, hc⟩ := hk.exists_cons
    exact ⟨c, _, rfl, toNat_le_of_isOpening hc⟩

end Toml

namespace Settings

open Toml (Repeats IsFiller IsExtra Says Statement NameText SimpleText entryText)

/-! ## Loading -/

/-- Comments and entries among lines leave what the lines say, with entries among it. -/
theorem exists_statements?_joinLines {ls ms : List (List Char)} {sts : List Statement}
    (hlines : List.Forall₂ (fun l st => Says l (some st)) ls sts) (hall : Among IsFiller ls ms)
    (closed : Bool) :
    ∃ all, Among IsExtra sts all ∧ Toml.statements? (joinLines closed ms) = some all := by
  induction hall generalizing sts with
  | nil =>
    cases hlines
    exact ⟨[], .nil, Toml.statements?_nil⟩
  | @keep l ls ms _ ih =>
    obtain ⟨r, hr, hends⟩ := exists_joinLines_cons closed l ms
    cases hlines with
    | @cons _ st _ sts hl hlines =>
      obtain ⟨all, hamong, hstatements⟩ := ih hlines
      refine ⟨st :: all, .keep st hamong, ?_⟩
      rw [hr, hl.statements?_append hends, Option.bind_some, hstatements, Option.map_some]
  | @extra l hl ls ms _ ih =>
    obtain ⟨r, hr, hends⟩ := exists_joinLines_cons closed l ms
    obtain ⟨all, hamong, hstatements⟩ := ih hlines
    cases hl with
    | comment hcs =>
      exact ⟨all, hamong, by rw [hr, Toml.statements?_comment hcs hends, hstatements]⟩
    | @entry ks vs n x hk hv =>
      have hextra : IsExtra (.entry ⟨[], n⟩ (.leaf .value x)) := rfl
      refine ⟨_ :: all, .extra hextra hamong, ?_⟩
      rw [hr, (Says.simple (.single hk) hv).statements?_append hends, Option.bind_some, hstatements,
        Option.map_some]

theorem exists_joinLines_eq_cons {ls ms : List (List Char)} (h : Repeats ls)
    (hall : Among IsFiller ls ms) (closed : Bool) :
    ∃ c s, joinLines closed ms = c :: s ∧ c.toNat ≤ 0x7F := by
  have hfirst : ∃ c s ms', ms = (c :: s) :: ms' ∧ c.toNat ≤ 0x7F := by
    obtain ⟨c, s, ls', rfl, hc⟩ := h.exists_cons
    cases hall with
    | keep _ _ => exact ⟨c, s, _, rfl, hc⟩
    | extra hl _ =>
      obtain ⟨d, t, rfl, hd⟩ := hl.exists_cons
      exact ⟨d, t, _, rfl, hd⟩
  obtain ⟨c, s, ms', rfl, hc⟩ := hfirst
  obtain ⟨r, hr, -⟩ := exists_joinLines_cons closed (c :: s) ms'
  exact ⟨c, s ++ r, hr, hc⟩

/-- A file that gives again what it has given, with comments and entries anywhere among its lines,
makes loading fail as no document, whatever the environment holds. -/
theorem load_repetition {files : Files} {env : Environment} {path : Option String} {p : String}
    {ls ms : List (List Char)} {closed : Bool} (h : Repeats ls) (hall : Among IsFiller ls ms)
    (hs : source? files (pathUsed env path) = some ⟨p, Utf8.encode (joinLines closed ms)⟩) :
    load files env path = .error (.unparsed p) := by
  obtain ⟨sts, hrepetition, hlines⟩ := h.exists_repetition
  obtain ⟨all, hamong, hstatements⟩ := exists_statements?_joinLines hlines hall closed
  have hdocument : documentIn? (Utf8.encode (joinLines closed ms)) = none := by
    rw [documentIn?_encode_ascii (exists_joinLines_eq_cons h hall closed), hstatements,
      Option.bind_some, hrepetition.assemble?_eq_none hamong]
  exact load_of_documentIn?_eq_none hs hdocument

/-- A header on several lines and a second one under a quoted name, with a comment and two entries
between them, beside a variable that is no text. -/
theorem load_repetition_two_headers :
    let content := bytesOf ("# a\n[output]\nheader = '''\na'''\n#\n" ++
      "other1 = 1979-05-27 07:32:00\nother2 = -0.5e3\n'header' = true")
    let files := (Files.empty default).write "c.toml" content
    load files [(bytesOf "ROSTER_OUTPUT", [0xFF])] (some "c") = .error (.unparsed "c.toml") := by
  intro content files
  let lines : List (List Char) := [Toml.headingText "output".toList,
    entryText "header".toList "'''\na'''".toList, entryText "'header'".toList "true".toList]
  let date := entryText "other1".toList "1979-05-27 07:32:00".toList
  let number := entryText "other2".toList "-0.5e3".toList
  have hquoted : NameText "'header'".toList "header" := by
    have hall : "header".toList.all
        (fun c => decide (c ≠ '\'' ∧ (Toml.IsControl c → c = '\t'))) = true := by
      decide +kernel
    have hname := NameText.literal fun c hc => of_decide_eq_true (List.all_eq_true.1 hall c hc)
    rwa [String.ofList_toList] at hname
  have hrepeats : Repeats lines :=
    .entry nameText_output (nameText_key .header) hquoted
      (show SimpleText _ (.text "a") by decide +kernel)
      (show SimpleText _ (.boolean true) by decide +kernel)
  have hdate : IsFiller date :=
    .entry (nameText_of_all (n := "other1") (by decide +kernel) (by decide +kernel))
      (show SimpleText _ (.text "1979-05-27T07:32:00") by decide +kernel)
  have hnumber : IsFiller number :=
    .entry (nameText_of_all (n := "other2") (by decide +kernel) (by decide +kernel))
      (show SimpleText _ (.float (.ofDecimal true ['0', '5'] 2)) by decide +kernel)
  have hcomment : IsFiller "# a".toList := .comment (List.all_eq_true.1 (by decide +kernel))
  have hempty : IsFiller ['#'] := .comment nofun
  have hall : Among IsFiller lines
      ("# a".toList :: lines.take 2 ++ [['#'], date, number] ++ lines.drop 2) :=
    .extra hcomment (.keep _ (.keep _ (.extra hempty (.extra hdate (.extra hnumber
      (.keep _ .nil))))))
  have hs : source? files "c" = some ⟨"c.toml", content⟩ := by decide +kernel
  have hcontent : content = Utf8.encode (joinLines false
      ("# a".toList :: lines.take 2 ++ [['#'], date, number] ++ lines.drop 2)) := by
    decide +kernel
  exact load_repetition hrepeats hall (hcontent ▸ hs)

end Settings

end Enrollment
