import Enrollment.Proofs.Reading
import Enrollment.Settings.Load

/-!
# What layers make of the output settings

Everything that is read in the end stands under the key `output`.  A layer
reaches it only through entries whose keys are paths that begin with this name
(`below?`), each of which sets a value further down.  So the value under
`output` can be followed through all layers by itself (`get?_lay`), and loading
reads what it has become (`load_eq_read`); the entries beside it play no part.
-/

namespace Enrollment.Settings

open Value

/-! ## Keys -/

/-- What follows the first name of a key that is a path which begins with `output`. -/
def below? (k : String) : Option (List Step) :=
  match Step.parse? k.toList with
  | some (.key j :: rest) => if j = "output" then some rest else none
  | _ => none

/-- A key is a path which begins with the name `output`. -/
def IsBelow (k : String) : Prop :=
  ∃ rest, Step.parse? k.toList = some (.key "output" :: rest)

theorem below?_eq_some_iff {k : String} {rest : List Step} :
    below? k = some rest ↔ Step.parse? k.toList = some (.key "output" :: rest) := by
  unfold below?
  split
  · next j rest' h =>
    rw [h]
    by_cases hj : j = "output" <;> simp [hj]
  · next h =>
    constructor
    · intro h'
      cases h'
    · intro h'
      exact absurd h' (h _ _)

theorem below?_eq_none_iff {k : String} : below? k = none ↔ ¬ IsBelow k := by
  rw [Option.eq_none_iff_forall_ne_some]
  simp only [ne_eq, below?_eq_some_iff, IsBelow, not_exists]

theorem parse?_output : Step.parse? "output".toList = some [.key "output"] := by
  decide +kernel

theorem below?_output : below? "output" = some [] :=
  below?_eq_some_iff.2 parse?_output

/-- Every path begins with a name. -/
theorem exists_path_eq (k : String) : ∃ j rest, Step.path k = .key j :: rest := by
  unfold Step.path
  cases h : Step.parse? k.toList with
  | none => exact ⟨k, [], rfl⟩
  | some steps =>
    obtain ⟨⟨first, r⟩, hname, h⟩ := Option.bind_eq_some_iff.1 h
    unfold Step.name? at hname
    split at hname
    · cases hname
    · cases hname
      dsimp only at h
      split at h
      · cases h
        exact ⟨_, _, rfl⟩
      · cases h

/-- The path of a key begins with `output` only if the key is written as such a path: a key that is
no path stands for itself, and `output` is one. -/
theorem path_eq_iff {k : String} {rest : List Step} :
    Step.path k = .key "output" :: rest ↔ below? k = some rest := by
  rw [below?_eq_some_iff, Step.path]
  cases h : Step.parse? k.toList with
  | none =>
    constructor
    · intro h'
      simp only [Option.getD_none, List.cons.injEq, Step.key.injEq] at h'
      rw [h'.1, parse?_output] at h
      cases h
    · intro h'
      cases h'
  | some steps => rw [Option.getD_some, Option.some.injEq]

/-! ## Layers -/

/-- What a layer makes of the value under `output`. -/
def layBelow : Entries Value → Value → Value
  | [], v => v
  | (k, new) :: es, v =>
    match below? k with
    | some rest => layBelow es (Value.set rest new v)
    | none => layBelow es v

theorem layBelow_cons_of_some {k : String} {rest : List Step} (h : below? k = some rest)
    (new : Value) (es : Entries Value) (v : Value) :
    layBelow ((k, new) :: es) v = layBelow es (Value.set rest new v) := by
  simp only [layBelow, h]

theorem layBelow_cons_of_none {k : String} (h : below? k = none)
    (new : Value) (es : Entries Value) (v : Value) :
    layBelow ((k, new) :: es) v = layBelow es v := by
  simp only [layBelow, h]

theorem layBelow_of_forall_beside {es : Entries Value} (h : ∀ e ∈ es, ¬ IsBelow e.1) (v : Value) :
    layBelow es v = v := by
  induction es with
  | nil => rfl
  | cons e es ih =>
    rw [layBelow_cons_of_none (below?_eq_none_iff.2 (h e List.mem_cons_self))]
    exact ih fun d hd => h d (List.mem_cons_of_mem _ hd)

/-- Only the entries whose keys begin with `output` change what stands under it. -/
theorem layBelow_filter (es : Entries Value) (v : Value) :
    layBelow (es.filter fun e => (below? e.1).isSome) v = layBelow es v := by
  induction es generalizing v with
  | nil => rfl
  | cons e es ih =>
    obtain ⟨k, new⟩ := e
    cases hk : below? k with
    | some rest =>
      rw [List.filter_cons_of_pos (by simp [hk]), layBelow_cons_of_some hk, layBelow_cons_of_some hk]
      exact ih _
    | none =>
      rw [List.filter_cons_of_neg (by simp [hk]), layBelow_cons_of_none hk]
      exact ih v

theorem Value.get?_key_cons (k : String) (path : List Step) (v : Value) :
    Value.get? (.key k :: path) v = (Entries.get? k (asTable v).2).bind (Value.get? path) := by
  cases v <;> rfl

/-- A layer leaves a table, and it changes what stands under `output` as it does by itself. -/
theorem get?_lay {o : Origin} {ts : Entries Value} {v : Value}
    (h : Entries.get? "output" ts = some v) (es : Entries Value) :
    ∃ o' ts', lay es (.table o ts) = .table o' ts' ∧
      Entries.get? "output" ts' = some (layBelow es v) := by
  induction es generalizing o ts v with
  | nil => exact ⟨o, ts, rfl, h⟩
  | cons e es ih =>
    obtain ⟨k, new⟩ := e
    rw [lay]
    cases hk : below? k with
    | some rest =>
      rw [path_eq_iff.2 hk, layBelow_cons_of_some hk, Value.set]
      refine ih ?_
      rw [asTable, Entries.get?_put_self, entry, h, Option.getD_some]
    | none =>
      -- The entry changes the tree all the same, but under another name at the top.
      obtain ⟨j, rest, hpath⟩ := exists_path_eq k
      have hj : "output" ≠ j := by
        rintro rfl
        rw [path_eq_iff.1 hpath] at hk
        cases hk
      rw [hpath, layBelow_cons_of_none hk, Value.set]
      refine ih ?_
      rw [asTable, Entries.get?_put_of_ne hj, h]

/-! ## Loading -/

/-- The standard settings as a value. -/
def standardOutput : Value :=
  .table none [
    ("header", .leaf none (.text standard.header)),
    ("announce_additions", .leaf none (.boolean standard.announceAdditions))]

theorem get?_gather (file environment : Entries Value) :
    Value.get? [.key "output"] (gather file environment) =
      some (layBelow environment (layBelow file standardOutput)) := by
  have hbase : Entries.get? "output" [("output", standardOutput)] = some standardOutput := rfl
  obtain ⟨o, ts, hfile, hts⟩ := get?_lay (o := none) hbase file
  obtain ⟨o', ts', henv, hts'⟩ := get?_lay (o := o) hts environment
  have hgather : gather file environment = .table o' ts' := by
    rw [← henv, ← hfile]
    rfl
  rw [hgather, Value.get?, hts']
  rfl

section

variable {files : Files} {env : Environment} {path : Option String} {file environment : Entries Value}
  {f : Failure}

/-- Loading reads what the layers make of the standard settings. -/
theorem loadIn_eq_read (visits : Visits) (hfile : fileLayer files (pathUsed env path) = .ok file)
    (henv : env.layer = .ok environment) :
    loadIn visits files env path = read visits.first
      (layBelow (visits.environment.arrange environment)
        (layBelow (visits.file.arrange file) standardOutput)) := by
  rw [loadIn, hfile, henv]
  simp only [bind, Except.bind, ofGathered, get?_gather]

theorem load_eq_read (hfile : fileLayer files (pathUsed env path) = .ok file)
    (henv : env.layer = .ok environment) :
    load files env path = read .header (layBelow environment (layBelow file standardOutput)) :=
  loadIn_eq_read .arrival hfile henv

theorem load_eq_of_fileLayer_eq {files' : Files}
    (h : fileLayer files (pathUsed env path) = fileLayer files' (pathUsed env path)) :
    load files env path = load files' env path := by
  rw [load, load, loadIn, loadIn, h]

theorem load_eq_of_source?_eq {files' : Files}
    (h : source? files (pathUsed env path) = source? files' (pathUsed env path)) :
    load files env path = load files' env path := by
  apply load_eq_of_fileLayer_eq
  rw [fileLayer, fileLayer, h]

theorem loadIn_of_fileLayer_eq_error (visits : Visits)
    (h : fileLayer files (pathUsed env path) = .error f) :
    loadIn visits files env path = .error f := by
  rw [loadIn, h]
  rfl

theorem load_of_fileLayer_eq_error (h : fileLayer files (pathUsed env path) = .error f) :
    load files env path = .error f :=
  loadIn_of_fileLayer_eq_error .arrival h

theorem loadIn_of_layer_eq_error (visits : Visits)
    (hfile : fileLayer files (pathUsed env path) = .ok file) (henv : env.layer = .error f) :
    loadIn visits files env path = .error f := by
  rw [loadIn, hfile, henv]
  rfl

theorem load_of_layer_eq_error (hfile : fileLayer files (pathUsed env path) = .ok file)
    (henv : env.layer = .error f) : load files env path = .error f :=
  loadIn_of_layer_eq_error .arrival hfile henv

end

end Enrollment.Settings
