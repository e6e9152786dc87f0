import Enrollment.Toml.Document

/-!
# No key comes twice

Every table of a document has distinct keys, however deep it lies.  Tables under
construction keep them so, since entries are only made by `Entries.put`
(`within_distinct`, `insertAll_distinct`), and so do the values that are parsed,
by induction on how deep they may be nested (`value_yields_distinct`).  So it
holds of what sections build (`document?_distinct`).
-/

namespace Enrollment

namespace Tree

/-- In all tables of a tree the keys are distinct. -/
inductive Distinct {ν : Type} : Tree ν → Prop where
  | leaf (n : ν) (v : Scalar) : Distinct (.leaf n v)
  | list (n : ν) {ts : List (Tree ν)} (h : ∀ t ∈ ts, Distinct t) : Distinct (.list n ts)
  | table (n : ν) {es : List (String × Tree ν)} (hkeys : (Entries.keys es).Nodup)
      (h : ∀ e ∈ es, Distinct e.2) : Distinct (.table n es)

end Tree

namespace Entries

variable {ν : Type}

/-- The keys are distinct, and so they are in all tables further down. -/
structure Distinct (es : Entries (Tree ν)) : Prop where
  keys : (keys es).Nodup
  values : ∀ e ∈ es, e.2.Distinct

theorem mem_of_get?_eq_some {α : Type} {k : String} {a : α} {es : Entries α}
    (h : get? k es = some a) : (k, a) ∈ es := by
  induction es with
  | nil => cases h
  | cons e es ih =>
    rw [get?] at h
    split at h
    · next hk =>
      cases h
      rw [← hk]
      exact List.mem_cons_self
    · exact List.mem_cons_of_mem _ (ih h)

theorem distinct_nil : Distinct ([] : Entries (Tree ν)) :=
  ⟨List.nodup_nil, fun _ he => absurd he List.not_mem_nil⟩

theorem Distinct.put {es : Entries (Tree ν)} (h : Distinct es) {v : Tree ν} (hv : v.Distinct)
    (k : String) : Distinct (put k v es) := by
  refine ⟨nodup_keys_put h.keys v, fun e he => ?_⟩
  rcases mem_of_mem_put he with rfl | he
  · exact hv
  · exact h.values e he

theorem Distinct.get? {es : Entries (Tree ν)} (h : Distinct es) {k : String} {v : Tree ν}
    (hv : get? k es = some v) : v.Distinct :=
  h.values _ (mem_of_get?_eq_some hv)

theorem Distinct.of_perm {es fs : Entries (Tree ν)} (h : Distinct es) (hperm : fs.Perm es) :
    Distinct fs where
  keys := (hperm.map Prod.fst).nodup_iff.2 h.keys
  values e he := h.values e (hperm.mem_iff.1 he)

theorem Distinct.table {es : Entries (Tree ν)} (h : Distinct es) (n : ν) :
    (Tree.table n es).Distinct :=
  .table n h.keys h.values

end Entries

theorem Tree.Distinct.entries {ν : Type} {n : ν} {es : Entries (Tree ν)}
    (h : (Tree.table n es).Distinct) : Entries.Distinct es := by
  cases h with
  | table _ hkeys h => exact ⟨hkeys, h⟩

theorem Tree.Distinct.items {ν : Type} {n : ν} {ts : List (Tree ν)}
    (h : (Tree.list n ts).Distinct) : ∀ t ∈ ts, t.Distinct := by
  cases h with
  | list _ h => exact h

/-! ## Notes -/

namespace Tree

variable {ν μ : Type}

theorem renoteItems_eq_map (n : μ) (ts : List (Tree ν)) : renoteItems n ts = ts.map (renote n) := by
  induction ts with
  | nil => rfl
  | cons t ts ih => rw [renoteItems, ih, List.map_cons]

theorem renoteEntries_eq_map (n : μ) (es : List (String × Tree ν)) :
    renoteEntries n es = es.map fun e => (e.1, renote n e.2) := by
  induction es with
  | nil => rfl
  | cons e es ih =>
    obtain ⟨k, t⟩ := e
    rw [renoteEntries, ih, List.map_cons]

theorem keys_renoteEntries (n : μ) (es : Entries (Tree ν)) :
    Entries.keys (renoteEntries n es) = Entries.keys es := by
  rw [renoteEntries_eq_map, Entries.keys, Entries.keys, List.map_map]
  rfl

theorem Distinct.renote {t : Tree ν} (h : t.Distinct) (n : μ) : (t.renote n).Distinct := by
  induction h with
  | leaf m v =>
    rw [Tree.renote]
    exact .leaf n v
  | list m _ ih =>
    rw [Tree.renote, renoteItems_eq_map]
    refine .list n fun u hu => ?_
    obtain ⟨t, ht, rfl⟩ := List.mem_map.1 hu
    exact ih t ht
  | table m hkeys _ ih =>
    rw [Tree.renote]
    refine .table n (by rwa [keys_renoteEntries]) fun e he => ?_
    rw [renoteEntries_eq_map] at he
    obtain ⟨d, hd, rfl⟩ := List.mem_map.1 he
    exact ih d hd

end Tree

theorem Entries.Distinct.renote {ν μ : Type} {es : Entries (Tree ν)} (h : Distinct es) (n : μ) :
    Distinct (Tree.renoteEntries n es) := by
  refine ⟨by rw [Tree.keys_renoteEntries]; exact h.keys, fun e he => ?_⟩
  rw [Tree.renoteEntries_eq_map] at he
  obtain ⟨d, hd, rfl⟩ := List.mem_map.1 he
  exact (h.values d hd).renote n

namespace Toml

/-! ## Tables under construction -/

/-- An edit keeps keys distinct. -/
def Keeps (edit : Entries Node → Option (Entries Node)) : Prop :=
  ∀ es es', Entries.Distinct es → edit es = some es' → Entries.Distinct es'

theorem within_distinct {dotted : Bool} {edit : Making → Entries Node → Option (Entries Node)}
    (hedit : ∀ making, Keeps (edit making)) (path : List String) (making : Making) :
    Keeps (within dotted edit path making) := by
  induction path generalizing making with
  | nil => exact hedit making
  | cons k path ih =>
    intro es es' hes h
    rw [within] at h
    split at h
    · obtain ⟨new, hnew, rfl⟩ := Option.map_eq_some_iff.1 h
      exact hes.put ((ih _ _ _ Entries.distinct_nil hnew).table _) k
    · next inner old hget =>
      split at h
      · obtain ⟨new, hnew, rfl⟩ := Option.map_eq_some_iff.1 h
        exact hes.put ((ih _ _ _ (hes.get? hget).entries hnew).table _) k
      · cases h
    · next items hget =>
      -- Of a list of tables only the last one is edited; the others were distinct before.
      split at h
      · next inner old hlast =>
        obtain ⟨new, hnew, rfl⟩ := Option.map_eq_some_iff.1 h
        have hitems := (hes.get? hget).items
        have hold := (hitems _ (List.mem_of_getLast? hlast)).entries
        refine hes.put (.list _ fun t ht => ?_) k
        rcases List.mem_append.1 ht with ht | ht
        · exact hitems t (List.dropLast_subset _ ht)
        · rw [List.mem_singleton.1 ht]
          exact (ih _ _ _ hold hnew).table _
      · cases h
    · cases h

theorem add_distinct {v : Node} (hv : v.Distinct) (k : String) : Keeps (add k v) := by
  intro es es' hes h
  rw [add] at h
  split at h
  · cases h
    exact hes.put hv k
  · cases h

theorem insert_distinct {v : Node} (hv : v.Distinct) (k : Key) : Keeps (insert k v) := by
  intro es es' hes h
  refine within_distinct ?_ k.parents .heading es es' hes h
  intro making es es' hes h
  dsimp only at h
  split at h
  · exact add_distinct hv k.last es es' hes h
  · cases h

theorem insertAll_distinct {kvs : List (Key × Node)} (hkvs : ∀ kv ∈ kvs, kv.2.Distinct) :
    Keeps (insertAll kvs) := by
  induction kvs with
  | nil =>
    intro es es' hes h
    cases h
    exact hes
  | cons kv kvs ih =>
    intro es es' hes h
    obtain ⟨k, v⟩ := kv
    obtain ⟨mid, hmid, h⟩ := Option.bind_eq_some_iff.1 h
    have hv := hkvs (k, v) List.mem_cons_self
    have hrest := ih fun kv hkv => hkvs kv (List.mem_cons_of_mem _ hkv)
    exact hrest mid es' (insert_distinct hv k es mid hes hmid) h

theorem insertTable_distinct {kvs : List (Key × Node)} (hkvs : ∀ kv ∈ kvs, kv.2.Distinct)
    (k : Key) : Keeps (insertTable k kvs) := by
  refine within_distinct ?_ k.parents .heading
  intro making es es' hes h
  dsimp only at h
  split at h
  · obtain ⟨t, ht, rfl⟩ := Option.map_eq_some_iff.1 h
    exact hes.put ((insertAll_distinct hkvs _ _ Entries.distinct_nil ht).table _) k.last
  · next old hget =>
    obtain ⟨t, ht, rfl⟩ := Option.map_eq_some_iff.1 h
    exact hes.put ((insertAll_distinct hkvs _ _ (hes.get? hget).entries ht).table _) k.last
  · cases h

theorem insertElement_distinct {kvs : List (Key × Node)} (hkvs : ∀ kv ∈ kvs, kv.2.Distinct)
    (k : Key) : Keeps (insertElement k kvs) := by
  refine within_distinct ?_ k.parents .heading
  intro making es es' hes h
  obtain ⟨t, ht, h⟩ := Option.bind_eq_some_iff.1 h
  have htable := (insertAll_distinct hkvs _ _ Entries.distinct_nil ht).table Making.heading
  split at h
  · cases h
    refine hes.put (.list _ fun u hu => ?_) k.last
    rw [List.mem_singleton.1 hu]
    exact htable
  · next items hget =>
    cases h
    refine hes.put (.list _ fun u hu => ?_) k.last
    rcases List.mem_append.1 hu with hu | hu
    · exact (hes.get? hget).items u hu
    · rw [List.mem_singleton.1 hu]
      exact htable
  · cases h

end Toml

/-! ## Parsed values -/

namespace Parser

variable {α β : Type}

/-- All values that a parser takes off a text have a property. -/
def Yields (p : Parser α) (P : α → Prop) : Prop :=
  ∀ s a r, p.run s = some (a, r) → P a

variable {p q : Parser α} {P : α → Prop}

theorem Yields.orElse (hp : p.Yields P) (hq : q.Yields P) : (p.orElse q).Yields P := by
  intro s a r h
  rcases Option.or_eq_some_iff.1 h with h | ⟨-, h⟩
  · exact hp s a r h
  · exact hq s a r h

theorem Yields.map (hp : p.Yields P) {f : α → β} {Q : β → Prop} (hf : ∀ a, P a → Q (f a)) :
    (p.map f).Yields Q := by
  intro s b r h
  obtain ⟨⟨a, t⟩, ht, h⟩ := Option.map_eq_some_iff.1 h
  cases h
  exact hf a (hp s a _ ht)

theorem Yields.mapOption (hp : p.Yields P) {f : α → Option β} {Q : β → Prop}
    (hf : ∀ a b, P a → f a = some b → Q b) : (p.mapOption f).Yields Q := by
  intro s b r h
  obtain ⟨⟨a, t⟩, ht, h⟩ := Option.bind_eq_some_iff.1 h
  obtain ⟨b', hb, h⟩ := Option.map_eq_some_iff.1 h
  cases h
  exact hf a _ (hp s a _ ht) hb

theorem Yields.many (hp : p.Yields P) (s : List Char) : ∀ a ∈ (p.many s).1, P a := by
  fun_induction Parser.many p s with
  | case1 => exact fun a ha => absurd ha List.not_mem_nil
  | case2 s a r h hlt rest ih =>
    intro b hb
    rcases List.mem_cons.1 hb with rfl | hb
    · exact hp s _ r h
    · exact ih b hb

end Parser

namespace Toml

open Enrollment.Parser

variable {α : Type} {p : Parser α} {P : α → Prop}

theorem furtherItem_yields (hp : p.Yields P) : (furtherItem p).Yields P := by
  intro s a r h
  simp only [furtherItem] at h
  split at h
  · obtain ⟨⟨b, t⟩, ht, h⟩ := Option.map_eq_some_iff.1 h
    cases h
    exact hp _ _ _ ht
  · cases h

theorem itemList_yields (hp : p.Yields P) (s : List Char) : ∀ a ∈ (itemList p s).1, P a := by
  unfold itemList
  split
  · exact fun a ha => absurd ha List.not_mem_nil
  · next a r h =>
    intro b hb
    rcases List.mem_cons.1 hb with rfl | hb
    · exact hp s _ r h
    · exact (furtherItem_yields hp).many _ b hb

theorem enclosed_yields (hp : p.Yields P) (opening closing : Char) :
    (enclosed opening closing p).Yields fun as => ∀ a ∈ as, P a := by
  intro s as r h
  simp only [enclosed, takeEnclosed] at h
  split at h
  · cases h
  · next c t =>
    split at h
    · unfold closeWith at h
      split at h
      · next bs d u hitems =>
        split at h
        · cases h
          have hall := itemList_yields hp (skipFiller t)
          rw [hitems] at hall
          exact hall
        · cases h
      · cases h
    · cases h

theorem entry_yields (hp : p.Yields P) (gap : Gap) : (entry gap p).Yields fun kv => P kv.2 := by
  intro s kv r h
  obtain ⟨⟨k, t⟩, -, h⟩ := Option.bind_eq_some_iff.1 h
  dsimp only at h
  split at h
  · obtain ⟨⟨a, u⟩, ha, h⟩ := Option.map_eq_some_iff.1 h
    cases h
    exact hp _ _ _ ha
  · cases h

theorem simpleValue_yields_distinct : simpleValue.Yields Tree.Distinct := by
  have hall : ((quotation.map fun cs => Scalar.text (String.ofList cs)).orElse word).Yields
      fun _ => True := fun _ _ _ _ => trivial
  exact hall.map fun v _ => .leaf _ v

theorem value_yields_distinct (depth : Nat) : (value depth).Yields Tree.Distinct := by
  induction depth with
  | zero => exact simpleValue_yields_distinct
  | succ depth ih =>
    refine simpleValue_yields_distinct.orElse (.orElse ?_ ?_)
    · exact (enclosed_yields ih _ _).map fun ts hts => .list _ hts
    · refine (enclosed_yields (entry_yields ih .filler) _ _).mapOption fun kvs t hkvs h => ?_
      obtain ⟨es, hes, rfl⟩ := Option.map_eq_some_iff.1 h
      exact (insertAll_distinct hkvs _ _ Entries.distinct_nil hes).table _

/-! ## Documents -/

/-- The value in a statement, if there is one, has distinct keys in all tables. -/
def Statement.Distinct : Statement → Prop
  | .entry _ v => v.Distinct
  | _ => True

theorem statement_yields_distinct : statement.Yields Statement.Distinct := by
  have helement : (elementHeading.map Statement.element).Yields Statement.Distinct :=
    Yields.map (P := fun _ => True) (fun _ _ _ _ => trivial) fun _ _ => trivial
  have htable : (tableHeading.map Statement.table).Yields Statement.Distinct :=
    Yields.map (P := fun _ => True) (fun _ _ _ _ => trivial) fun _ _ => trivial
  exact helement.orElse (htable.orElse
    ((entry_yields (value_yields_distinct maxDepth) .blanks).map fun _ h => h))

theorem line_yields_distinct : line.Yields fun st => ∀ s ∈ st, s.Distinct := by
  have hin : ∀ s, ∀ st ∈ (statementIn s).1, st.Distinct := by
    intro s st hst
    unfold statementIn at hst
    split at hst
    · next st' r h =>
      cases hst
      exact statement_yields_distinct s _ r h
    · cases hst
  intro s st r h
  simp only [line] at h
  split at h
  · cases h
  · split at h
    · cases h
      exact hin _
    · obtain ⟨⟨b, t⟩, -, h⟩ := Option.map_eq_some_iff.1 h
      cases h
      exact hin _

theorem statements?_distinct {s : List Char} {sts : List Statement} (h : statements? s = some sts) :
    ∀ st ∈ sts, st.Distinct := by
  unfold statements? at h
  split at h
  · cases h
    intro st hst
    obtain ⟨x, hx, hst⟩ := List.mem_filterMap.1 hst
    exact line_yields_distinct.many s x hx st hst
  · cases h

theorem sections_distinct {sts : List Statement} (h : ∀ st ∈ sts, st.Distinct) :
    (∀ kv ∈ (sections sts).1, kv.2.Distinct) ∧
      ∀ sec ∈ (sections sts).2, ∀ kv ∈ sec.entries, kv.2.Distinct := by
  induction sts with
  | nil => exact ⟨fun _ hkv => absurd hkv List.not_mem_nil, fun _ hs => absurd hs List.not_mem_nil⟩
  | cons st sts ih =>
    obtain ⟨hfirst, hrest⟩ := ih fun st hst => h st (List.mem_cons_of_mem _ hst)
    have hst := h st List.mem_cons_self
    have hhead : ∀ heading, ∀ sec ∈ (⟨heading, (sections sts).1⟩ : Section) :: (sections sts).2,
        ∀ kv ∈ sec.entries, kv.2.Distinct := by
      intro heading sec hsec
      rcases List.mem_cons.1 hsec with rfl | hsec
      · exact hfirst
      · exact hrest sec hsec
    cases st with
    | entry k v =>
      refine ⟨fun kv hkv => ?_, hrest⟩
      rcases List.mem_cons.1 hkv with rfl | hkv
      · exact hst
      · exact hfirst kv hkv
    | table k => exact ⟨fun _ hkv => absurd hkv List.not_mem_nil, hhead (.table k)⟩
    | element k => exact ⟨fun _ hkv => absurd hkv List.not_mem_nil, hhead (.element k)⟩

theorem insertSections_distinct {secs : List Section}
    (h : ∀ sec ∈ secs, ∀ kv ∈ sec.entries, kv.2.Distinct) : Keeps (insertSections secs) := by
  induction secs with
  | nil =>
    intro es es' hes h
    cases h
    exact hes
  | cons sec secs ih =>
    intro es es' hes hins
    obtain ⟨mid, hmid, hins⟩ := Option.bind_eq_some_iff.1 hins
    have hsec := h sec List.mem_cons_self
    have hrest := ih fun sec hsec => h sec (List.mem_cons_of_mem _ hsec)
    refine hrest mid es' ?_ hins
    unfold Section.insert at hmid
    split at hmid
    · exact insertTable_distinct hsec _ es mid hes hmid
    · exact insertElement_distinct hsec _ es mid hes hmid

/-- In a document no table has a key twice. -/
theorem document?_distinct {s : List Char} {es : Entries Node} (h : document? s = some es) :
    Entries.Distinct es := by
  obtain ⟨sts, hsts, h⟩ := Option.bind_eq_some_iff.1 h
  obtain ⟨top, htop, h⟩ := Option.bind_eq_some_iff.1 h
  obtain ⟨hfirst, hrest⟩ := sections_distinct (statements?_distinct hsts)
  exact insertSections_distinct hrest top es
    (insertAll_distinct hfirst _ _ Entries.distinct_nil htop) h

end Toml

end Enrollment
