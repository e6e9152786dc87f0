import Enrollment.Proofs.FileNames
import Enrollment.Proofs.OneSetting

/-!
# Which layer a failure blames

Every value of a file is noted to come from this file and every value of a
variable to come from the environment, and merging keeps the notes of what it
puts in.  So a failure to read a setting names the layer that the setting was
chosen from (`load_blames_layer`): the environment if it sets it, else the file
that was read.  The standard values can be read, and what was overridden is no
longer there to be blamed.
-/

namespace Enrollment

/-! ## Notes -/

section Renote

variable {ν μ : Type}

theorem Tree.note_renote (n : μ) (t : Tree ν) : (t.renote n).note = n := by
  cases t <;> rfl

theorem Tree.renote_eq_table {n m : μ} {t : Tree ν} {es : Entries (Tree μ)}
    (h : t.renote n = .table m es) : ∃ fs : Entries (Tree ν), es = renoteEntries n fs := by
  cases t with
  | leaf => cases h
  | list => cases h
  | table _ fs =>
    cases h
    exact ⟨fs, rfl⟩

theorem Entries.get?_renoteEntries (n : μ) (k : String) (es : Entries (Tree ν)) :
    get? k (Tree.renoteEntries n es) = (get? k es).map (Tree.renote n) := by
  induction es with
  | nil => rfl
  | cons e es ih =>
    obtain ⟨j, t⟩ := e
    rw [Tree.renoteEntries, get?, get?, ih]
    split <;> rfl

end Renote

namespace Settings

open Environment (Names keyOf)

theorem note_fileValue? {n : Origin} {es : Entries Toml.Node} {s : Setting} {w : Value}
    (h : fileValue? (Tree.renoteEntries n es) s = some w) : w.note = n := by
  unfold fileValue? at h
  split at h
  · next o fs houtput =>
    rw [Entries.get?_renoteEntries, Option.map_eq_some_iff] at houtput
    obtain ⟨t, -, ht⟩ := houtput
    obtain ⟨gs, rfl⟩ := Tree.renote_eq_table ht
    rw [Entries.get?_renoteEntries, Option.map_eq_some_iff] at h
    obtain ⟨u, -, rfl⟩ := h
    exact Tree.note_renote n u
  · cases h

/-! ## The file that is read -/

/-- The path of the file that loading reads: the one that is given, or else the one with an ending
added. -/
inductive FileRead (files : Files) (path : String) : String → Prop where
  | first (h : files path ≠ none) : FileRead files path path
  | second {p : String} (hfirst : files path = none)
      (hp : secondPath? files.workingDirectory path = some p) (h : files p ≠ none) :
      FileRead files path p

theorem FileRead.found {files : Files} {path p : String} (h : FileRead files path p) :
    files p ≠ none := by
  cases h <;> assumption

theorem path_of_sourceAt? {files : Files} {path : String} {source : Source}
    (h : sourceAt? files path = some source) :
    files path ≠ none ∧ source.path = nameOf files.workingDirectory path := by
  obtain ⟨content, hcontent, rfl⟩ := Option.map_eq_some_iff.1 h
  refine ⟨?_, rfl⟩
  rw [hcontent]
  exact Option.some_ne_none _

theorem exists_fileRead {files : Files} {path : String} {source : Source}
    (h : source? files path = some source) :
    ∃ p, FileRead files path p ∧ source.path = nameOf files.workingDirectory p := by
  rcases Option.or_eq_some_iff.1 h with h | ⟨hfirst, h⟩
  · obtain ⟨hfound, hpath⟩ := path_of_sourceAt? h
    exact ⟨path, .first hfound, hpath⟩
  · obtain ⟨p, hp, h⟩ := Option.bind_eq_some_iff.1 h
    obtain ⟨hfound, hpath⟩ := path_of_sourceAt? h
    exact ⟨p, .second (Option.map_eq_none_iff.1 hfirst) hp hfound, hpath⟩

/-- Every value that a file gives for a setting comes from the file that was read. -/
theorem note_of_fileLayer {files : Files} {path : String} {file : Entries Value}
    (hfile : fileLayer files path = .ok file) {s : Setting} {w : Value}
    (hw : fileValue? file s = some w) :
    ∃ p, FileRead files path p ∧ w.note = some (nameOf files.workingDirectory p) := by
  unfold fileLayer at hfile
  split at hfile
  · next source hsource =>
    unfold Source.layer at hfile
    split at hfile
    · cases hfile
      obtain ⟨p, hp, hpath⟩ := exists_fileRead hsource
      exact ⟨p, hp, by rw [note_fileValue? hw, hpath]⟩
    · cases hfile
  · cases hfile
    cases hw

/-! ## Blame -/

/-- A setting cannot be read, and the origin is that of the layer it was chosen from.  A file is
named by the way to it from the working directory, and it is found by this name. -/
structure Blamed (tree : FileTree) (env : Environment) (path : String) (file : Entries Value)
    (s : Setting) (origin : Origin) : Prop where
  illTyped : IllTyped (chosen env file s) s
  environment : env.lastText? (leafKey s) ≠ none → origin = some "the environment"
  file : env.lastText? (leafKey s) = none → fileValue? file s ≠ none ∧
    ∃ p, FileRead tree.content? path p ∧ origin = some (nameOf tree.workingDirectory p) ∧
      tree.IsNameOf p (nameOf tree.workingDirectory p)

theorem not_illTyped_standardValue (s : Setting) : ¬ IllTyped (standardValue s) s := by
  cases s with
  | header => exact fun h => h _ (.text _ _)
  | announceAdditions => exact fun h => h _ (.boolean _ _)

theorem blamed_of_illTyped {tree : FileTree} {env : Environment} {path : String}
    {file : Entries Value} {s : Setting} (hfile : fileLayer tree.content? path = .ok file)
    (hill : IllTyped (chosen env file s) s) :
    Blamed tree env path file s (chosen env file s).note where
  illTyped := hill
  environment h := by
    obtain ⟨cs, hcs⟩ := Option.ne_none_iff_exists'.1 h
    simp only [chosen, hcs]
    rfl
  file h := by
    cases hw : fileValue? file s with
    | none =>
      simp only [chosen, h, hw] at hill
      exact absurd hill (not_illTyped_standardValue s)
    | some w =>
      obtain ⟨p, hp, hnote⟩ := note_of_fileLayer hfile hw
      refine ⟨Option.some_ne_none w, p, hp, ?_, tree.isNameOf_nameOf hp.found⟩
      simp only [chosen, h, hw]
      exact hnote

/-- Where the file gives the settings in one table and variables give them one by one, a failure of
a type is about a setting whose chosen value cannot be read, and so about the only one of them if
one alone cannot be read; and it names the layer which this value was chosen from.  So it is in
whatever order entries and settings are visited. -/
theorem load_blames_layer {tree : FileTree} {env : Environment} {path : Option String}
    (hfile : ∀ file, fileLayer tree.content? (pathUsed env path) = .ok file → PlainFile file)
    (henv : ∀ v ∈ env, ∀ n, Names v.1 n → IsBelow (keyOf n) → ∃ s, keyOf n = leafKey s)
    {visits : Visits} {found : Found} {position : Position} {origin : Origin}
    (h : loadIn visits tree.content? env path = .error (.mistyped found position origin)) :
    ∃ file s, fileLayer tree.content? (pathUsed env path) = .ok file ∧
      position = .keyed s ∧ position.text = leafKey s ∧
      Blamed tree env (pathUsed env path) file s origin ∧
      ∀ only, (∀ t, IllTyped (chosen env file t) t → t = only) → s = only := by
  rcases loadIn_reaches_values visits tree.content? env path with
    ⟨f, hf, hvalue⟩ | ⟨file, hlayer, htext⟩
  · rw [hf] at h
    cases h
    exact absurd trivial hvalue
  · obtain ⟨environment, henvironment⟩ := Environment.exists_layer_eq_ok htext
    obtain ⟨o, ts, hlay, hget⟩ := get?_layBelow_chosen visits (distinct_of_fileLayer_eq_ok hlayer)
      (hfile file hlayer) ⟨htext, henv⟩ henvironment
    rw [loadIn_eq_read visits hlayer henvironment, hlay, read] at h
    obtain ⟨s, v, found', hv, hill, hf⟩ := readBoth_eq_error h
    cases hf
    rw [hget, Option.some.injEq] at hv
    subst hv
    exact ⟨file, s, hlayer, rfl, rfl, blamed_of_illTyped hlayer hill, fun _ h => h s hill⟩

/-- A list cannot be read as the header, and the file found is blamed for it by the way to it: one
found with an ending added, and one found from the root.  Its other list is overridden by a
variable, and nothing is blamed for it. -/
theorem load_blames_layer_ending :
    let content := bytesOf "[output]\nheader = []\nannounce_additions = []\n"
    let tree := (({} : FileTree).addFile "sub/c.toml" content).addFile "/srv/c" content
    let env : Environment := [(bytesOf "ROSTER_OUTPUT__ANNOUNCE_ADDITIONS", bytesOf "on")]
    (load tree.content? env (some "./sub//c") =
        .error (.mistyped .list (.keyed .header) (some "sub/c.toml")) ∧
      ∃ file, fileLayer tree.content? "./sub//c" = .ok file ∧
        Blamed tree env "./sub//c" file .header (some "sub/c.toml")) ∧
    (load tree.content? env (some "/srv/./c") =
        .error (.mistyped .list (.keyed .header) (some "../../srv/c")) ∧
      ∃ file, fileLayer tree.content? "/srv/./c" = .ok file ∧
        Blamed tree env "/srv/./c" file .header (some "../../srv/c")) := by
  intro content tree env
  let output (o : Origin) : Entries Value :=
    [("output", .table o [("header", .list o []), ("announce_additions", .list o [])])]
  have hplain (o : Origin) : PlainFile (output o) := by
    refine ⟨fun e he _ => by rw [List.mem_singleton.1 he], ?_⟩
    rintro v ⟨⟩
    refine ⟨o, _, rfl, fun s w hw => ?_⟩
    cases s <;> cases hw <;> exact id
  have hname : Names (bytesOf "ROSTER_OUTPUT__ANNOUNCE_ADDITIONS")
      "output__announce_additions".toList :=
    ⟨"ROSTER_OUTPUT__ANNOUNCE_ADDITIONS".toList, rfl, by decide +kernel⟩
  have henv : ∀ v ∈ env, ∀ n, Names v.1 n → IsBelow (keyOf n) → ∃ s, keyOf n = leafKey s := by
    simp only [env, List.forall_mem_cons, List.not_mem_nil, false_implies, implies_true, and_true]
    intro n hn _
    rw [hn.unique hname]
    exact ⟨.announceAdditions, by decide +kernel⟩
  have hblamed {path : String} {o : Origin}
      (hlayer : fileLayer tree.content? (pathUsed env (some path)) = .ok (output o))
      (hload : loadIn .arrival tree.content? env (some path) =
        .error (.mistyped .list (.keyed .header) o)) :
      ∃ file, fileLayer tree.content? path = .ok file ∧ Blamed tree env path file .header o := by
    have hfile : ∀ file, fileLayer tree.content? (pathUsed env (some path)) = .ok file →
        PlainFile file := by
      intro file hfile
      rw [hlayer] at hfile
      cases hfile
      exact hplain o
    obtain ⟨file, s, hfile, hposition, -, hblamed, -⟩ := load_blames_layer hfile henv hload
    cases hposition
    exact ⟨file, hfile, hblamed⟩
  have hending : load tree.content? env (some "./sub//c") =
      .error (.mistyped .list (.keyed .header) (some "sub/c.toml")) := by
    decide +kernel
  have hroot : load tree.content? env (some "/srv/./c") =
      .error (.mistyped .list (.keyed .header) (some "../../srv/c")) := by
    decide +kernel
  exact ⟨⟨hending, hblamed (by decide +kernel) hending⟩, hroot, hblamed (by decide +kernel) hroot⟩

end Settings

end Enrollment
