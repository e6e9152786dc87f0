import Enrollment.Proofs.DistinctKeys
import Enrollment.Proofs.Output
import Enrollment.Proofs.Variables

/-!
# Which layer a setting is taken from

Where the file gives the settings in one table and the environment gives them
one by one, each of the two is taken by itself from the last layer that gives
it: the environment, else the file, else the standard (`chosen`).  Loading
succeeds exactly if both chosen values can be read, and gives what they are read
as (`load_eq_ok_iff_chosen`).
-/

namespace Enrollment

/-- A tree is a table. -/
def Tree.IsTable {ν : Type} : Tree ν → Prop
  | .table _ _ => True
  | _ => False

namespace Settings

open Value
open Environment (Garbled Names keyOf)

/-! ## Merging -/

theorem merge_of_not_isTable {v : Value} (h : ¬ v.IsTable) (old : Value) : merge v old = v := by
  cases v with
  | leaf o x => rfl
  | list o ts => rfl
  | table o es => exact absurd trivial h

/-- Merging entries into others changes what stands under their keys and nothing else. -/
theorem get?_mergeEntries {es : Entries Value} (hes : (Entries.keys es).Nodup)
    (old : Entries Value) (k : String) :
    Entries.get? k (mergeEntries es old) =
      ((Entries.get? k es).map fun v => merge v (entry k old)).or (Entries.get? k old) := by
  induction es generalizing old with
  | nil => rfl
  | cons e es ih =>
    obtain ⟨j, v⟩ := e
    obtain ⟨hj, hes⟩ := List.nodup_cons.1 hes
    rw [mergeEntries, ih hes, Entries.get?]
    by_cases hjk : j = k
    · subst hjk
      rw [Entries.get?_eq_none_iff.2 hj, if_pos rfl, Entries.get?_put_self]
      rfl
    · have hkj : k ≠ j := Ne.symm hjk
      rw [if_neg hjk, Entries.get?_put_of_ne hkj, entry, Entries.get?_put_of_ne hkj]
      rfl

/-! ## The file -/

/-- A file gives settings in one table, if at all, and neither of them as a table. -/
structure PlainFile (file : Entries Value) : Prop where
  only : ∀ e ∈ file, IsBelow e.1 → e.1 = "output"
  table : ∀ v, Entries.get? "output" file = some v → ∃ o es, v = .table o es ∧
    ∀ s : Setting, ∀ w, Entries.get? s.key es = some w → ¬ w.IsTable

/-- The value that a file gives for a setting in its table of settings. -/
def fileValue? (file : Entries Value) (s : Setting) : Option Value :=
  match Entries.get? "output" file with
  | some (.table _ es) => Entries.get? s.key es
  | _ => none

section Perm

variable {file arranged : Entries Value} (hdistinct : Entries.Distinct file)
  (h : arranged.Perm file)

include hdistinct h

theorem PlainFile.of_perm (hplain : PlainFile file) : PlainFile arranged where
  only e he := hplain.only e (h.mem_iff.1 he)
  table v hv := hplain.table v ((Entries.get?_eq_of_perm hdistinct.keys h "output").symm.trans hv)

theorem fileValue?_eq_of_perm (s : Setting) : fileValue? arranged s = fileValue? file s := by
  rw [fileValue?, Entries.get?_eq_of_perm hdistinct.keys h, fileValue?]

end Perm

/-- A layer that reaches the settings by the key `output` alone merges what it has there. -/
theorem layBelow_of_only {es : Entries Value} (hes : (Entries.keys es).Nodup)
    (honly : ∀ e ∈ es, IsBelow e.1 → e.1 = "output") (v : Value) :
    layBelow es v = ((Entries.get? "output" es).map fun w => merge w v).getD v := by
  induction es with
  | nil => rfl
  | cons e es ih =>
    obtain ⟨k, new⟩ := e
    obtain ⟨hk, hes⟩ := List.nodup_cons.1 hes
    have hrest : ∀ d ∈ es, IsBelow d.1 → d.1 = "output" :=
      fun d hd => honly d (List.mem_cons_of_mem _ hd)
    by_cases hbelow : IsBelow k
    · obtain rfl : k = "output" := honly _ List.mem_cons_self hbelow
      have hbeside : ∀ d ∈ es, ¬ IsBelow d.1 := by
        intro d hd hd'
        have hmem : d.1 ∈ Entries.keys es := List.mem_map_of_mem hd
        rw [hrest d hd hd'] at hmem
        exact hk hmem
      rw [layBelow_cons_of_some below?_output, layBelow_of_forall_beside hbeside, Entries.get?,
        if_pos rfl]
      rfl
    · have hne : k ≠ "output" := by
        rintro rfl
        exact hbelow ⟨_, parse?_output⟩
      rw [layBelow_cons_of_none (below?_eq_none_iff.2 hbelow), ih hes hrest, Entries.get?,
        if_neg hne]

/-- The standard value of a setting. -/
def standardValue : Setting → Value
  | .header => .leaf none (.text standard.header)
  | .announceAdditions => .leaf none (.boolean standard.announceAdditions)

theorem get?_standardOutput (s : Setting) :
    ∃ es, standardOutput = .table none es ∧ Entries.get? s.key es = some (standardValue s) := by
  refine ⟨_, rfl, ?_⟩
  cases s <;> rfl

/-- After the file, each setting stands in a table as the file gives it, else as it stood. -/
theorem get?_layBelow_file {file : Entries Value} (hdistinct : Entries.Distinct file)
    (hplain : PlainFile file) :
    ∃ o ts, layBelow file standardOutput = .table o ts ∧
      ∀ s : Setting, Entries.get? s.key ts = some ((fileValue? file s).getD (standardValue s)) := by
  rw [layBelow_of_only hdistinct.keys hplain.only]
  cases hget : Entries.get? "output" file with
  | none =>
    refine ⟨none, _, rfl, fun s => ?_⟩
    obtain ⟨es, hes, hs⟩ := get?_standardOutput s
    cases hes
    rw [hs, fileValue?, hget]
    rfl
  | some v =>
    obtain ⟨o, es, rfl, htables⟩ := hplain.table v hget
    have hes : (Entries.keys es).Nodup := (hdistinct.get? hget).entries.keys
    refine ⟨none, mergeEntries es (asTable standardOutput).2, rfl, fun s => ?_⟩
    obtain ⟨old, hold, hs⟩ := get?_standardOutput s
    rw [get?_mergeEntries hes, fileValue?, hget, hold, asTable, hs]
    dsimp only
    cases hfile : Entries.get? s.key es with
    | none => rfl
    | some w =>
      rw [Option.map_some, merge_of_not_isTable (htables s w hfile)]
      rfl

/-! ## The environment -/

/-- The key under which a variable gives a setting. -/
def leafKey (s : Setting) : String :=
  "output." ++ s.key

/-- All variables that count have texts, and those that reach the settings give single ones. -/
structure PlainEnvironment (env : Environment) : Prop where
  text : ∀ v ∈ env, ¬ Garbled v
  leaves : ∀ v ∈ env, ∀ n, Names v.1 n → IsBelow (keyOf n) → ∃ s, keyOf n = leafKey s

theorem below?_leafKey (s : Setting) : below? (leafKey s) = some [.key s.key] := by
  cases s <;> decide +kernel

theorem leafKey_inj {s t : Setting} (h : leafKey s = leafKey t) : s = t := by
  cases s with
  | header =>
    cases t with
    | header => rfl
    | announceAdditions => exact absurd h (by decide)
  | announceAdditions =>
    cases t with
    | header => exact absurd h (by decide)
    | announceAdditions => rfl

theorem key_inj {s t : Setting} (h : s.key = t.key) : s = t :=
  leafKey_inj (by rw [leafKey, leafKey, h])

/-- A layer that reaches the settings one by one sets each of them that it has. -/
theorem get?_layBelow_leaves {es : Entries Value} (hes : (Entries.keys es).Nodup)
    (hleaves : ∀ e ∈ es, IsBelow e.1 → ∃ s, e.1 = leafKey s) (hvalues : ∀ e ∈ es, ¬ e.2.IsTable)
    (o : Origin) (ts : Entries Value) :
    ∃ o' ts', layBelow es (.table o ts) = .table o' ts' ∧ ∀ s : Setting,
      Entries.get? s.key ts' = (Entries.get? (leafKey s) es).or (Entries.get? s.key ts) := by
  induction es generalizing o ts with
  | nil => exact ⟨o, ts, rfl, fun _ => rfl⟩
  | cons e es ih =>
    obtain ⟨k, new⟩ := e
    obtain ⟨hk, hes⟩ := List.nodup_cons.1 hes
    have hrest := ih hes (fun d hd => hleaves d (List.mem_cons_of_mem _ hd))
      fun d hd => hvalues d (List.mem_cons_of_mem _ hd)
    by_cases hbelow : IsBelow k
    · obtain ⟨t, rfl⟩ : ∃ t, k = leafKey t := hleaves _ List.mem_cons_self hbelow
      have hnew : ∀ old, merge new old = new :=
        merge_of_not_isTable (hvalues (leafKey t, new) List.mem_cons_self)
      rw [layBelow_cons_of_some (below?_leafKey t), Value.set, Value.set, hnew]
      obtain ⟨o', ts', hlay, hget⟩ := hrest o (Entries.put t.key new ts)
      refine ⟨o', ts', hlay, fun s => ?_⟩
      rw [hget, Entries.get?]
      by_cases hts : t = s
      · -- The key does not come again, so what is set here stands at the end.
        subst hts
        rw [if_pos rfl, Entries.get?_eq_none_iff.2 hk, Entries.get?_put_self]
        rfl
      · have hkey : s.key ≠ t.key := fun h => hts (key_inj h).symm
        rw [if_neg fun h => hts (leafKey_inj h), Entries.get?_put_of_ne hkey]
    · obtain ⟨o', ts', hlay, hget⟩ := hrest o ts
      refine ⟨o', ts', ?_, fun s => ?_⟩
      · rw [layBelow_cons_of_none (below?_eq_none_iff.2 hbelow), hlay]
      · have hne : k ≠ leafKey s := by
          rintro rfl
          exact hbelow ⟨_, below?_eq_some_iff.1 (below?_leafKey s)⟩
        rw [hget, Entries.get?, if_neg hne]

/-! ## The choice -/

/-- The value that a setting is chosen to have: what the last variable for it gives, else what the
file gives, else the standard. -/
def chosen (env : Environment) (file : Entries Value) (s : Setting) : Value :=
  match env.lastText? (leafKey s) with
  | some cs => .leaf Environment.origin (Environment.scalarOfText cs)
  | none =>
    match fileValue? file s with
    | some v => v
    | none => standardValue s

theorem distinct_of_fileLayer_eq_ok {files : Files} {path : String} {file : Entries Value}
    (h : fileLayer files path = .ok file) : Entries.Distinct file := by
  unfold fileLayer at h
  split at h
  · next s _ =>
    unfold Source.layer at h
    split at h
    · next es hes =>
      cases h
      exact (Toml.document?_distinct hes).renote (some s.path)
    · cases h
  · cases h
    exact Entries.distinct_nil

/-- What is read in the end is a table in which each setting stands as it was chosen, in whatever
order entries are visited. -/
theorem get?_layBelow_chosen (visits : Visits) {env : Environment}
    {file environment : Entries Value} (hdistinct : Entries.Distinct file)
    (hfile : PlainFile file) (henv : PlainEnvironment env)
    (hlayer : env.layer = .ok environment) :
    ∃ o ts, layBelow (visits.environment.arrange environment)
        (layBelow (visits.file.arrange file) standardOutput) = .table o ts ∧
      ∀ s : Setting, Entries.get? s.key ts = some (chosen env file s) := by
  have hperm := visits.file.perm file
  have hperm' := visits.environment.perm environment
  have hkeys := Environment.nodup_keys_layer hlayer
  obtain ⟨o, ts, hlay, hts⟩ :=
    get?_layBelow_file (hdistinct.of_perm hperm) (.of_perm hdistinct hperm hfile)
  have hleaves : ∀ e ∈ environment, IsBelow e.1 → ∃ s, e.1 = leafKey s := by
    intro e he
    obtain ⟨v, hv, n, cs, hn, rfl⟩ := Environment.mem_layer hlayer he
    exact henv.leaves v hv n hn
  have hvalues : ∀ e ∈ environment, ¬ e.2.IsTable := by
    intro e he
    obtain ⟨v, hv, n, cs, hn, rfl⟩ := Environment.mem_layer hlayer he
    exact id
  obtain ⟨o', ts', hlay', hts'⟩ :=
    get?_layBelow_leaves ((hperm'.map Prod.fst).nodup_iff.2 hkeys)
      (fun e he => hleaves e (hperm'.mem_iff.1 he)) (fun e he => hvalues e (hperm'.mem_iff.1 he))
      o ts
  refine ⟨o', ts', by rw [hlay, hlay'], fun s => ?_⟩
  rw [hts', hts, Entries.get?_eq_of_perm hkeys hperm', Environment.get?_layer hlayer,
    fileValue?_eq_of_perm hdistinct hperm, chosen]
  cases env.lastText? (leafKey s) with
  | some cs => rfl
  | none =>
    cases fileValue? file s with
    | some v => rfl
    | none => rfl

/-- Loading gives settings exactly if the values chosen for them can be read, and gives what they
are read as. -/
theorem load_eq_ok_iff_chosen {files : Files} {env : Environment} {path : Option String}
    {file : Entries Value} (hlayer : fileLayer files (pathUsed env path) = .ok file)
    (hfile : PlainFile file) (henv : PlainEnvironment env) (settings : Settings) :
    load files env path = .ok settings ↔
      IsText (chosen env file .header) settings.header ∧
      IsSwitch (chosen env file .announceAdditions) settings.announceAdditions := by
  obtain ⟨environment, henvironment⟩ := Environment.exists_layer_eq_ok henv.text
  obtain ⟨o, ts, hlay, hget⟩ := get?_layBelow_chosen .arrival
    (distinct_of_fileLayer_eq_ok hlayer) hfile henv henvironment
  rw [load, loadIn_eq_read .arrival hlayer henvironment, hlay, read, readBoth_eq_ok_iff, hget, hget,
    given_some_iff, given_some_iff]

/-- The header comes from the later of two variables for it, whose text is a number, and the switch
from the file, where a list is given as the header. -/
theorem load_eq_ok_iff_chosen_mixed :
    let content := bytesOf
      "[output]\nheader = [1]\nannounce_additions = \"Off\"\nother = \x7b\x7d\n[\"output x\"]\n"
    let files := (Files.empty default).write "c.toml" content
    let env : Environment := [(bytesOf "ROSTER_OUTPUT__HEADER", bytesOf "first"),
      (bytesOf "ROSTER_X", bytesOf "1"), (bytesOf "Roster_output.header", bytesOf "+07")]
    load files env (some "c.toml") = .ok ⟨"7", false⟩ := by
  intro content files env
  let o : Origin := some "c.toml"
  let output : Entries Value := [("header", .list o [.leaf o (.integer 1)]),
    ("announce_additions", .leaf o (.text "Off")), ("other", .table o [])]
  have hlayer : fileLayer files (pathUsed env (some "c.toml")) =
      .ok [("output", .table o output), ("output x", .table o [])] := by
    decide +kernel
  have hfile : PlainFile [("output", .table o output), ("output x", .table o [])] := by
    constructor
    · intro e he hbelow
      rcases List.mem_cons.1 he with rfl | he
      · rfl
      · rw [List.mem_singleton.1 he] at hbelow
        exact absurd hbelow (below?_eq_none_iff.1 (by decide +kernel))
    · rintro v ⟨⟩
      refine ⟨o, output, rfl, fun s w hw => ?_⟩
      cases s <;> cases hw <;> exact id
  have hfirst : Names (bytesOf "ROSTER_OUTPUT__HEADER") "output__header".toList :=
    ⟨"ROSTER_OUTPUT__HEADER".toList, rfl, by decide +kernel⟩
  have hother : Names (bytesOf "ROSTER_X") "x".toList :=
    ⟨"ROSTER_X".toList, rfl, by decide +kernel⟩
  have hlast : Names (bytesOf "Roster_output.header") "output.header".toList :=
    ⟨"Roster_output.header".toList, rfl, by decide +kernel⟩
  have henv : PlainEnvironment env := by
    constructor
    · simp only [env, List.forall_mem_cons, List.not_mem_nil, false_implies, implies_true, and_true]
      exact ⟨fun h => h.2 ⟨"first".toList, rfl⟩, fun h => h.2 ⟨"1".toList, rfl⟩,
        fun h => h.2 ⟨"+07".toList, rfl⟩⟩
    · simp only [env, List.forall_mem_cons, List.not_mem_nil, false_implies, implies_true, and_true]
      refine ⟨fun n hn _ => ⟨.header, ?_⟩, fun n hn hbelow => ?_, fun n hn _ => ⟨.header, ?_⟩⟩
      · rw [hn.unique hfirst]
        decide +kernel
      · rw [hn.unique hother] at hbelow
        exact absurd hbelow (below?_eq_none_iff.1 (by decide +kernel))
      · rw [hn.unique hlast]
        decide +kernel
  refine (load_eq_ok_iff_chosen hlayer hfile henv _).2 ⟨?_, ?_⟩
  · have hheader : chosen env [("output", .table o output), ("output x", .table o [])] .header =
        .leaf Environment.origin (.integer 7) := by decide +kernel
    rw [hheader]
    exact .integer _ 7
  · have hannounce : chosen env [("output", .table o output), ("output x", .table o [])]
        .announceAdditions = .leaf o (.text "Off") := by decide +kernel
    rw [hannounce]
    exact .off _ (by decide +kernel)

end Settings

end Enrollment
