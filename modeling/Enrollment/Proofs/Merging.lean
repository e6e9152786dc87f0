import Enrollment.Proofs.Precedence
import Mathlib.Logic.Basic

/-!
# What merging a table does

A table is merged into a value key by key, at every level.  What comes of it is
followed along keys, each of which is taken as it is written and never read as a
path.  Where the keys lead to something in the table, that is merged into what
they lead to in the value (`under?_merge`); where they lead nowhere in the table,
the value is left as it is (`under?_merge_of_misses`).  The order of the table's
keys shows only in the order of the keys that come out (`merge_eqUpToOrder`), and
merging once more changes nothing (`merge_merge`).
-/

namespace Enrollment

/-! ## The order of keys -/

namespace Tree

variable {ν : Type}

/-- What holds of single values, of lists if it holds of their items and of tables if it holds of the
values in them holds of all trees. -/
theorem induction {P : Tree ν → Prop} (leaf : ∀ n v, P (.leaf n v))
    (list : ∀ n ts, (∀ t ∈ ts, P t) → P (.list n ts))
    (table : ∀ n es, (∀ e ∈ es, P e.2) → P (.table n es)) (t : Tree ν) : P t := by
  cases t with
  | leaf n v => exact leaf n v
  | list n ts => exact list n ts fun t _ => induction leaf list table t
  | table n es => exact table n es fun e _ => induction leaf list table e.2
termination_by sizeOf t
decreasing_by
  · have h := List.sizeOf_lt_of_mem ‹t ∈ ts›
    simp only [Tree.list.sizeOf_spec]
    omega
  · have h := List.sizeOf_lt_of_mem ‹e ∈ es›
    have he : sizeOf e.2 < sizeOf e := by
      cases e
      simp only [Prod.mk.sizeOf_spec]
      omega
    simp only [Tree.table.sizeOf_spec]
    omega

/-- Trees are the same but for the order in which their tables have their keys, at any level. -/
inductive EqUpToOrder : Tree ν → Tree ν → Prop where
  | leaf (n : ν) (v : Scalar) : EqUpToOrder (.leaf n v) (.leaf n v)
  | list (n : ν) {ts us : List (Tree ν)} (hlength : ts.length = us.length)
      (h : ∀ (i : Nat) t u, ts[i]? = some t → us[i]? = some u → EqUpToOrder t u) :
      EqUpToOrder (.list n ts) (.list n us)
  | table (n : ν) {es fs : Entries (Tree ν)} (hkeys : ∀ k, k ∈ Entries.keys es ↔ k ∈ Entries.keys fs)
      (h : ∀ k t u, Entries.get? k es = some t → Entries.get? k fs = some u → EqUpToOrder t u) :
      EqUpToOrder (.table n es) (.table n fs)

theorem EqUpToOrder.refl (t : Tree ν) : EqUpToOrder t t := by
  induction t using Tree.induction with
  | leaf n v => exact .leaf n v
  | list n ts ih =>
    refine .list n rfl fun i t u ht hu => ?_
    rw [ht] at hu
    cases hu
    exact ih t (List.mem_of_getElem? ht)
  | table n es ih =>
    refine .table n (fun k => Iff.rfl) fun k t u ht hu => ?_
    rw [ht] at hu
    cases hu
    exact ih (k, t) (Entries.mem_of_get?_eq_some ht)

/-- A table with its entries in another order is the same up to order. -/
theorem eqUpToOrder_of_perm {n : ν} {es fs : Entries (Tree ν)} (hes : (Tree.table n es).Distinct)
    (h : es.Perm fs) : EqUpToOrder (.table n es) (.table n fs) := by
  refine .table n (fun k => (h.map Prod.fst).mem_iff) fun k t u ht hu => ?_
  rw [Entries.get?_eq_of_perm hes.entries.keys h.symm, ht] at hu
  cases hu
  exact .refl t

end Tree

namespace Entries

variable {α : Type}

theorem put_of_get?_eq_some {k : String} {a : α} {es : Entries α} (h : get? k es = some a) :
    put k a es = es := by
  induction es with
  | nil => cases h
  | cons e es ih =>
    obtain ⟨j, b⟩ := e
    rw [get?] at h
    by_cases hj : j = k
    · rw [if_pos hj] at h
      cases h
      rw [put, if_pos hj, hj]
    · rw [if_neg hj] at h
      rw [put, if_neg hj, ih h]

end Entries

namespace Settings

namespace Value

/-! ## Along keys -/

/-- What keys lead to, one after another.  Each is taken as it is. -/
def under? (ks : List String) (v : Value) : Option Value :=
  get? (ks.map .key) v

theorem under?_nil (v : Value) : under? [] v = some v :=
  rfl

theorem under?_cons (k : String) (ks : List String) (v : Value) :
    under? (k :: ks) v = (Entries.get? k (asTable v).2).bind (under? ks) := by
  cases v <;> rfl

/-- A table leads nowhere along keys: there is a table on the way that has no entry for the next
key. -/
inductive Misses : Value → List String → Prop where
  | here {o : Origin} {es : Entries Value} {k : String} {ks : List String}
      (h : Entries.get? k es = none) : Misses (.table o es) (k :: ks)
  | further {o : Origin} {es : Entries Value} {k : String} {ks : List String} {v : Value}
      (h : Entries.get? k es = some v) (hv : Misses v ks) : Misses (.table o es) (k :: ks)

/-- What stands under a key once a table has been merged: what the table has there merged into what
stood there, or what stood there. -/
theorem under?_merge_cons {o : Origin} {es : Entries Value} (hn : (Tree.table o es).Distinct)
    (old : Value) (k : String) (ks : List String) :
    under? (k :: ks) (merge (.table o es) old) =
      match Entries.get? k es with
      | some v => under? ks (merge v ((under? [k] old).getD nothing))
      | none => under? (k :: ks) old := by
  have hentry : (under? [k] old).getD nothing = entry k (asTable old).2 := by
    rw [under?_cons, entry]
    cases Entries.get? k (asTable old).2 <;> rfl
  rw [under?_cons, merge, asTable, get?_mergeEntries hn.entries.keys, hentry]
  cases Entries.get? k es with
  | some v => rfl
  | none => rw [Option.map_none, Option.none_or, under?_cons]

/-- Keys that go on past what stands nowhere lead to nothing, as do keys that go on past nothing. -/
theorem under?_getD_nothing (k : String) (ks : List String) (old : Value) :
    (under? ks ((under? [k] old).getD nothing)).getD nothing = (under? (k :: ks) old).getD nothing := by
  rw [under?_cons, under?_cons]
  cases Entries.get? k (asTable old).2 with
  | some w => rfl
  | none => cases ks <;> rfl

/-- Where keys lead to something in a table, it is merged into what they lead to. -/
theorem under?_merge {n v : Value} (hn : n.Distinct) {ks : List String} (h : under? ks n = some v)
    (old : Value) :
    under? ks (merge n old) = some (merge v ((under? ks old).getD nothing)) := by
  induction ks generalizing n old with
  | nil =>
    cases h
    rfl
  | cons k ks ih =>
    cases n with
    | leaf o x => cases h
    | list o ts => cases h
    | table o es =>
      rw [under?_cons] at h
      obtain ⟨w, hw, h⟩ := Option.bind_eq_some_iff.1 h
      have hget : Entries.get? k es = some w := hw
      rw [under?_merge_cons hn, hget]
      dsimp only
      rw [ih (hn.entries.get? hget) h, under?_getD_nothing]

/-- Where keys lead nowhere in a table, they lead to what they led to. -/
theorem under?_merge_of_misses {n : Value} (hn : n.Distinct) {ks : List String} (h : Misses n ks)
    (old : Value) : under? ks (merge n old) = under? ks old := by
  induction h generalizing old with
  | @here o es k ks h => rw [under?_merge_cons hn, h]
  | @further o es k ks v h hv ih =>
    rw [under?_merge_cons hn, h]
    dsimp only
    rw [ih (hn.entries.get? h), under?_cons k ks, under?_cons k []]
    cases hv with
    | here | further =>
      cases Entries.get? k (asTable old).2 <;> rfl

theorem mem_keys_mergeEntries {es : Entries Value} (hes : (Entries.keys es).Nodup)
    (old : Entries Value) (k : String) :
    k ∈ Entries.keys (mergeEntries es old) ↔ k ∈ Entries.keys es ∨ k ∈ Entries.keys old := by
  rw [← not_iff_not, not_or, ← Entries.get?_eq_none_iff, ← Entries.get?_eq_none_iff,
    ← Entries.get?_eq_none_iff, get?_mergeEntries hes, Option.or_eq_none_iff, Option.map_eq_none_iff]

/-! ## In another order -/

section Order

variable {es fs : Entries Value} (hkeys : ∀ k, k ∈ Entries.keys es ↔ k ∈ Entries.keys fs)
  (h : ∀ k t u, Entries.get? k es = some t → Entries.get? k fs = some u → t.EqUpToOrder u)

include hkeys h

theorem get?_cases_of_eqUpToOrder (k : String) :
    (Entries.get? k es = none ∧ Entries.get? k fs = none) ∨
      ∃ t u, Entries.get? k es = some t ∧ Entries.get? k fs = some u ∧ t.EqUpToOrder u := by
  have hnone : Entries.get? k es = none ↔ Entries.get? k fs = none := by
    rw [Entries.get?_eq_none_iff, Entries.get?_eq_none_iff, hkeys]
  cases ht : Entries.get? k es with
  | none => exact .inl ⟨rfl, hnone.1 ht⟩
  | some t =>
    obtain ⟨u, hu⟩ : ∃ u, Entries.get? k fs = some u := by
      rw [← Option.ne_none_iff_exists']
      intro hu
      rw [hnone.2 hu] at ht
      cases ht
    exact .inr ⟨t, u, rfl, hu, h k t u ht hu⟩

theorem entry_eqUpToOrder (k : String) : (entry k es).EqUpToOrder (entry k fs) := by
  rw [entry, entry]
  rcases get?_cases_of_eqUpToOrder hkeys h k with ⟨ht, hu⟩ | ⟨t, u, ht, hu, htu⟩
  · rw [ht, hu]
    exact .refl nothing
  · rw [ht, hu]
    exact htu

end Order

theorem asTable_of_eqUpToOrder {old old' : Value} (h : old.EqUpToOrder old') :
    ∃ o ts us, asTable old = (o, ts) ∧ asTable old' = (o, us) ∧
      (∀ k, k ∈ Entries.keys ts ↔ k ∈ Entries.keys us) ∧
      ∀ k t u, Entries.get? k ts = some t → Entries.get? k us = some u → t.EqUpToOrder u := by
  cases h with
  | leaf | list => exact ⟨none, [], [], rfl, rfl, fun k => Iff.rfl, nofun⟩
  | @table o ts us hkeys h => exact ⟨o, ts, us, rfl, rfl, hkeys, h⟩

/-- The order of keys, in the table and in the value, shows in nothing but the order of keys. -/
theorem merge_eqUpToOrder {n n' : Value} (h : n.EqUpToOrder n') (hn : n.Distinct)
    (hn' : n'.Distinct) {old old' : Value} (hold : old.EqUpToOrder old') :
    (merge n old).EqUpToOrder (merge n' old') := by
  induction h generalizing old old' with
  | leaf o x => exact .leaf o x
  | list o hlength h => exact .list o hlength h
  | @table o es fs hkeys h ih =>
    obtain ⟨o', ts, us, hts, hus, hkeys', h'⟩ := asTable_of_eqUpToOrder hold
    rw [merge, merge, hts, hus]
    refine .table o' (fun k => ?_) fun k t u ht hu => ?_
    · rw [mem_keys_mergeEntries hn.entries.keys, mem_keys_mergeEntries hn'.entries.keys, hkeys,
        hkeys']
    · rw [get?_mergeEntries hn.entries.keys] at ht
      rw [get?_mergeEntries hn'.entries.keys] at hu
      rcases get?_cases_of_eqUpToOrder hkeys h k with ⟨hv, hw⟩ | ⟨v, w, hv, hw, -⟩
      · rw [hv, Option.map_none, Option.none_or] at ht
        rw [hw, Option.map_none, Option.none_or] at hu
        exact h' k t u ht hu
      · rw [hv, Option.map_some, Option.some_or] at ht
        rw [hw, Option.map_some, Option.some_or] at hu
        cases ht
        cases hu
        exact ih k v w hv hw (hn.entries.get? hv) (hn'.entries.get? hw)
          (entry_eqUpToOrder hkeys' h' k)

/-! ## Once more -/

/-- Entries that are merged already are not merged again. -/
theorem mergeEntries_of_forall {es old : Entries Value}
    (h : ∀ e ∈ es, ∃ v, Entries.get? e.1 old = some v ∧ merge e.2 v = v) :
    mergeEntries es old = old := by
  induction es with
  | nil => rfl
  | cons e es ih =>
    obtain ⟨k, w⟩ := e
    obtain ⟨v, hv, hmerge⟩ := h (k, w) List.mem_cons_self
    have hput : Entries.put k (merge w (entry k old)) old = old := by
      rw [entry, hv, Option.getD_some, hmerge, Entries.put_of_get?_eq_some hv]
    rw [mergeEntries, hput]
    exact ih fun e he => h e (List.mem_cons_of_mem _ he)

theorem merge_merge {n : Value} (hn : n.Distinct) (old : Value) :
    merge n (merge n old) = merge n old := by
  induction n using Tree.induction generalizing old with
  | leaf o x => rfl
  | list o ts => rfl
  | table o es ih =>
    have hagain : mergeEntries es (mergeEntries es (asTable old).2) =
        mergeEntries es (asTable old).2 := by
      apply mergeEntries_of_forall
      intro e he
      have hget : Entries.get? e.1 es = some e.2 :=
        (Entries.get?_eq_some_iff hn.entries.keys).2 he
      refine ⟨merge e.2 (entry e.1 (asTable old).2), ?_, ih e he (hn.entries.values e he) _⟩
      rw [get?_mergeEntries hn.entries.keys, hget, Option.map_some, Option.some_or]
    exact congrArg (Tree.table (asTable old).1) hagain

/-! ## A table merged into a value -/

/-- What becomes of a value when a table is merged into it, told along keys. -/
structure Merged (n old new : Value) : Prop where
  /-- What the table leads nowhere to is as it was, with its origins. -/
  untouched : ∀ ks, Misses n ks → under? ks new = under? ks old
  /-- What is no table in the table takes the place of what was there, with its own origins. -/
  replaced : ∀ ks v, under? ks n = some v → ¬ v.IsTable → under? ks new = some v
  /-- An empty table leaves a table as it was, and takes the place of anything else. -/
  emptied : ∀ ks o, under? ks n = some (.table o []) →
    (∀ o' ts, under? ks old = some (.table o' ts) → under? ks new = some (.table o' ts)) ∧
    ((∀ o' ts, under? ks old ≠ some (.table o' ts)) → under? ks new = some (.table none []))
  /-- The keys of a table are those of the table that is merged into it and those that it had. -/
  literal : ∀ ks o es, under? ks n = some (.table o es) →
    ∃ o' ts, under? ks new = some (.table o' ts) ∧
      ∀ k, k ∈ Entries.keys ts ↔ k ∈ Entries.keys es ∨ under? (ks ++ [k]) old ≠ none

theorem under?_append (ks ls : List String) (v : Value) :
    under? (ks ++ ls) v = (under? ks v).bind (under? ls) := by
  induction ks generalizing v with
  | nil => rfl
  | cons k ks ih =>
    rw [List.cons_append, under?_cons, under?_cons, Option.bind_assoc]
    exact congrArg (Option.bind _) (funext ih)

theorem merge_empty_table (o : Origin) (old : Value) :
    merge (.table o []) old = .table (asTable old).1 (asTable old).2 := by
  rw [merge, mergeEntries]

theorem distinct_of_under? {n v : Value} (hn : n.Distinct) {ks : List String}
    (h : under? ks n = some v) : v.Distinct := by
  induction ks generalizing n with
  | nil =>
    cases h
    exact hn
  | cons k ks ih =>
    rw [under?_cons] at h
    obtain ⟨w, hw, hv⟩ := Option.bind_eq_some_iff.1 h
    cases n with
    | leaf | list => cases hw
    | table o es => exact ih (hn.entries.get? hw) hv

theorem merged_merge {n : Value} (hn : n.Distinct) (old : Value) : Merged n old (merge n old) where
  untouched ks h := under?_merge_of_misses hn h old
  replaced ks v hv hleaf := by rw [under?_merge hn hv, merge_of_not_isTable hleaf]
  emptied ks o h := by
    rw [under?_merge hn h, merge_empty_table]
    refine ⟨fun o' ts hold => ?_, fun hold => ?_⟩
    · rw [hold]
      rfl
    · cases hv : under? ks old with
      | none => rfl
      | some v =>
        cases v with
        | table o' ts => exact absurd hv (hold o' ts)
        | leaf | list => rfl
  literal ks o es h := by
    have hes := (distinct_of_under? hn h).entries.keys
    rw [under?_merge hn h, merge]
    refine ⟨_, _, rfl, fun k => ?_⟩
    have hold : under? (ks ++ [k]) old ≠ none ↔
        k ∈ Entries.keys (asTable ((under? ks old).getD nothing)).2 := by
      rw [under?_append, ← not_iff_not, not_not, ← Entries.get?_eq_none_iff]
      cases under? ks old with
      | none => exact ⟨fun _ => rfl, fun _ => rfl⟩
      | some v =>
        rw [Option.bind_some, under?_cons, Option.getD_some]
        cases Entries.get? k (asTable v).2 <;> simp [under?_nil]
    rw [mem_keys_mergeEntries hes, hold]

/-- A layer with an entry under a plain key merges it into what stands there. -/
theorem under?_lay_single {k : String} (hk : Step.path k = [.key k]) (n : Value) {tree old : Value}
    (h : under? [k] tree = some old) : under? [k] (lay [(k, n)] tree) = some (merge n old) := by
  rw [under?_cons] at h
  obtain ⟨w, hw, h⟩ := Option.bind_eq_some_iff.1 h
  cases h
  rw [lay, lay, hk, Value.set, Value.set, under?_cons, asTable, Entries.get?_put_self, entry, hw]
  rfl

/-- Merging a table into a value gives the same in whatever order the keys of the table come, at any
level, but for the order of keys, and changes nothing when it is done again.  The value keeps what
the table leads nowhere to, takes over what is no table, and has an empty table where the table has
one, unless there was a table before; keys are taken as they are.  This is what becomes of a value
under a plain key when a layer is laid over it that has a table there. -/
theorem merge_table {o : Origin} {es : Entries Value} (hn : (Tree.table o es).Distinct)
    (old : Value) :
    let n : Value := .table o es
    (∀ n' : Value, n'.Distinct → n.EqUpToOrder n' →
      (merge n old).EqUpToOrder (merge n' old)) ∧
    merge n (merge n old) = merge n old ∧
    Merged n old (merge n old) ∧
    ∀ k tree, Step.path k = [.key k] → under? [k] tree = some old →
      under? [k] (lay [(k, n)] tree) = some (merge n old) :=
  ⟨fun _ hn' h => merge_eqUpToOrder h hn hn' (.refl old), merge_merge hn old, merged_merge hn old,
    fun _ _ hk h => under?_lay_single hk _ h⟩

/-- A file whose table has a key with a dot in it and an empty table, merged into the standard settings
in either order of its keys. -/
theorem merge_table_dotted :
    let content := bytesOf "[output]\nmore = \x7b\"a.b\" = 7, c = \x7b\x7d\x7d\nheader = 'H'\n"
    let files := (Files.empty default).write "c.toml" content
    let o : Origin := some "c.toml"
    let more : Value := .table o [("a.b", .leaf o (.integer 7)), ("c", .table o [])]
    let n : Value := .table o [("more", more), ("header", .leaf o (.text "H"))]
    let n' : Value := .table o [("header", .leaf o (.text "H")), ("more", more)]
    fileLayer files "c.toml" = .ok [("output", n)] ∧
      (merge n standardOutput).EqUpToOrder (merge n' standardOutput) ∧
      under? ["more", "a.b"] (merge n standardOutput) = some (.leaf o (.integer 7)) ∧
      under? ["more", "c"] (merge n standardOutput) = some (.table none []) ∧
      under? ["more", "a", "b"] (merge n standardOutput) = none ∧
      under? ["announce_additions"] (merge n standardOutput) =
        some (.leaf none (.boolean true)) := by
  intro content files o more n n'
  have hlayer : fileLayer files "c.toml" = .ok [("output", n)] := by decide +kernel
  have hget : Entries.get? "output" [("output", n)] = some n := rfl
  have hn : n.Distinct := (distinct_of_fileLayer_eq_ok hlayer).get? hget
  have hperm : [("more", more), ("header", .leaf o (.text "H"))].Perm
      [("header", .leaf o (.text "H")), ("more", more)] := .swap _ _ _
  have hmisses : Misses n ["more", "a", "b"] := .further (v := more) rfl (.here rfl)
  obtain ⟨horder, -, hmerged, -⟩ := merge_table hn standardOutput
  obtain ⟨-, hemptied⟩ := hmerged.emptied ["more", "c"] o rfl
  have hn' : n'.Distinct := (hn.entries.of_perm hperm.symm).table _
  refine ⟨hlayer, horder n' hn' (Tree.eqUpToOrder_of_perm hn hperm), ?_, ?_, ?_, ?_⟩
  · exact hmerged.replaced ["more", "a.b"] _ rfl id
  · exact hemptied nofun
  · exact hmerged.untouched _ hmisses
  · exact hmerged.untouched ["announce_additions"] (.here rfl)

/-- An empty table leaves nothing of a value that is no table: with it for the header, loading finds a
table where the standard header was. -/
theorem merge_empty_over_text :
    let content := bytesOf "[output]\nheader = \x7b\x7d\n"
    let files := (Files.empty default).write "c.toml" content
    let o : Origin := some "c.toml"
    let n : Value := .table o [("header", .table o [])]
    let header : Value := .leaf none (.text "All Students:")
    fileLayer files "c.toml" = .ok [("output", n)] ∧
      under? ["header"] n = some (.table o []) ∧
      under? ["header"] standardOutput = some header ∧
      under? ["header"] (merge n standardOutput) ≠ some header ∧
      under? ["header"] (merge n standardOutput) = some (.table none []) ∧
      load files [] (some "c.toml") = .error (.mistyped .table (.keyed .header) none) := by
  decide +kernel

end Value

end Settings

end Enrollment
