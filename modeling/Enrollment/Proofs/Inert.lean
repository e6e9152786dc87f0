import Enrollment.Proofs.Output
import Enrollment.Proofs.Variables

/-!
# Input that makes no difference

A file may hold entries whose keys lead elsewhere than to `output`, and an
environment may hold variables that are ignored.  Two loads whose input differs
only by such parts go the same way: layers that agree apart from entries beside
`output` make the same of the settings (`EqBeside.layBelow_eq`), whichever way
the entries of one are arranged if those of the other follow
(`EqBeside.exists_arrangement`), and reading an environment keeps them so whether
an ignored variable is there or not (`EqBeside.layerFrom`).
-/

namespace Enrollment

/-- Two lists differ only by members with a property, which either of them may have anywhere. -/
inductive EqApartFrom {α : Type} (P : α → Prop) : List α → List α → Prop where
  | nil : EqApartFrom P [] []
  | cons (a : α) {l m : List α} (h : EqApartFrom P l m) : EqApartFrom P (a :: l) (a :: m)
  | left {a : α} (ha : P a) {l m : List α} (h : EqApartFrom P l m) : EqApartFrom P (a :: l) m
  | right {a : α} (ha : P a) {l m : List α} (h : EqApartFrom P l m) : EqApartFrom P l (a :: m)

theorem EqApartFrom.refl {α : Type} {P : α → Prop} (l : List α) : EqApartFrom P l l := by
  induction l with
  | nil => exact .nil
  | cons a l ih => exact .cons a ih

theorem EqApartFrom.symm {α : Type} {P : α → Prop} {l m : List α} (h : EqApartFrom P l m) :
    EqApartFrom P m l := by
  induction h with
  | nil => exact .nil
  | cons a _ ih => exact .cons a ih
  | left ha _ ih => exact .right ha ih
  | right ha _ ih => exact .left ha ih

section

open Classical in
/-- Some arrangement that takes the members of one list in a given order. -/
noncomputable def Arrangement.sending {α : Type} {l m : List α} (h : m.Perm l) : Arrangement α where
  arrange members := if members = l then m else members
  perm members := by
    split
    · next heq => exact heq ▸ h
    · exact .rfl

theorem Arrangement.arrange_sending {α : Type} {l m : List α} (h : m.Perm l) :
    (sending h).arrange l = m :=
  if_pos rfl

end

namespace Tree

variable {ν μ κ : Type}

mutual

/-- Only the last of several notes shows. -/
theorem renote_renote (n : μ) (m : κ) : (t : Tree ν) → renote m (renote n t) = renote m t
  | leaf _ _ => rfl
  | list _ ts => by rw [renote, renote, renote, renoteItems_renoteItems n m ts]
  | table _ es => by rw [renote, renote, renote, renoteEntries_renoteEntries n m es]

theorem renoteItems_renoteItems (n : μ) (m : κ) :
    (ts : List (Tree ν)) → renoteItems m (renoteItems n ts) = renoteItems m ts
  | [] => rfl
  | t :: ts => by
    rw [renoteItems, renoteItems, renoteItems, renote_renote n m t, renoteItems_renoteItems n m ts]

theorem renoteEntries_renoteEntries (n : μ) (m : κ) :
    (es : List (String × Tree ν)) → renoteEntries m (renoteEntries n es) = renoteEntries m es
  | [] => rfl
  | (k, t) :: es => by
    rw [renoteEntries, renoteEntries, renoteEntries, renote_renote n m t,
      renoteEntries_renoteEntries n m es]

end

end Tree

namespace Settings

/-! ## Layers -/

/-- An entry lies beside `output`: its key is no path that begins with this name. -/
def Beside {α : Type} (e : String × α) : Prop :=
  ¬ IsBelow e.1

/-- Two lists of entries differ only beside `output`. -/
abbrev EqBeside {α : Type} (es fs : List (String × α)) : Prop :=
  EqApartFrom Beside es fs

namespace EqBeside

theorem symm {α : Type} {es fs : List (String × α)} (h : EqBeside es fs) : EqBeside fs es :=
  EqApartFrom.symm h

theorem layBelow_eq {es fs : Entries Value} (h : EqBeside es fs) (v : Value) :
    layBelow es v = layBelow fs v := by
  induction h generalizing v with
  | nil => rfl
  | cons e _ ih =>
    obtain ⟨k, new⟩ := e
    cases hk : below? k with
    | some rest =>
      rw [layBelow_cons_of_some hk, layBelow_cons_of_some hk]
      exact ih _
    | none =>
      rw [layBelow_cons_of_none hk, layBelow_cons_of_none hk]
      exact ih _
  | left he _ ih =>
    rw [layBelow_cons_of_none (below?_eq_none_iff.2 he)]
    exact ih v
  | right he _ ih =>
    rw [layBelow_cons_of_none (below?_eq_none_iff.2 he)]
    exact ih v

theorem filter_eq {es fs : Entries Value} (h : EqBeside es fs) :
    es.filter (fun e => (below? e.1).isSome) = fs.filter fun e => (below? e.1).isSome := by
  have hbeside : ∀ e : String × Value, Beside e → (below? e.1).isSome = false := by
    intro e he
    rw [below?_eq_none_iff.2 he]
    rfl
  induction h with
  | nil => rfl
  | cons e _ ih => rw [List.filter_cons, List.filter_cons, ih]
  | left he _ ih => rw [List.filter_cons, hbeside _ he, ih]; rfl
  | right he _ ih => rw [List.filter_cons, hbeside _ he, ih]; rfl

theorem put {es fs : Entries Value} (h : EqBeside es fs) {k : String}
    (hk : IsBelow k) (v : Value) :
    EqBeside (Entries.put k v es) (Entries.put k v fs) := by
  -- An entry that only one side has lies beside `output`, so it is not the one that is replaced.
  have hne : ∀ e : String × Value, Beside e → e.1 ≠ k := by
    rintro e he rfl
    exact he hk
  induction h with
  | nil => exact .cons (k, v) .nil
  | cons e h ih =>
    by_cases he : e.1 = k
    · simp only [Entries.put, if_pos he]
      exact .cons (k, v) h
    · simp only [Entries.put, if_neg he]
      exact .cons e ih
  | left he _ ih =>
    simp only [Entries.put, if_neg (hne _ he)]
    exact .left he ih
  | right he _ ih =>
    simp only [Entries.put, if_neg (hne _ he)]
    exact .right he ih

/-- An entry put beside `output` makes no difference, whether it replaces another or not. -/
theorem put_left {es fs : Entries Value} (h : EqBeside es fs) {k : String}
    (hk : ¬ IsBelow k) (v : Value) : EqBeside (Entries.put k v es) fs := by
  have hnew : Beside (k, v) := hk
  induction h with
  | nil => exact .left hnew .nil
  | @cons e es fs h ih =>
    by_cases he : e.1 = k
    · have hold : Beside e := by
        rw [Beside, he]
        exact hk
      simp only [Entries.put, if_pos he]
      exact .left hnew (.right hold h)
    · simp only [Entries.put, if_neg he]
      exact .cons e ih
  | @left e he es fs h ih =>
    by_cases hek : e.1 = k
    · simp only [Entries.put, if_pos hek]
      exact .left hnew h
    · simp only [Entries.put, if_neg hek]
      exact .left he ih
  | right he _ ih => exact .right he ih

theorem renoteEntries {ν μ : Type} {es fs : List (String × Tree ν)} (h : EqBeside es fs)
    (n : μ) : EqBeside (Tree.renoteEntries n es) (Tree.renoteEntries n fs) := by
  induction h with
  | nil => exact .nil
  | cons e _ ih => exact .cons (e.1, Tree.renote n e.2) ih
  | @left e he es fs _ ih =>
    have he' : Beside (e.1, Tree.renote n e.2) := he
    exact .left he' ih
  | @right e he es fs _ ih =>
    have he' : Beside (e.1, Tree.renote n e.2) := he
    exact .right he' ih

end EqBeside

/-- Whichever way the entries of one layer are arranged, those of the other can be arranged so that
the same is made of the settings. -/
theorem EqBeside.exists_arrangement {es fs : Entries Value} (h : EqBeside es fs)
    (order : Arrangement (String × Value)) :
    ∃ order' : Arrangement (String × Value),
      ∀ v, layBelow (order'.arrange fs) v = layBelow (order.arrange es) v := by
  let isBelow (e : String × Value) : Bool := (below? e.1).isSome
  -- The entries that count come as they do in the other layer, those beside `output` after them.
  let arranged := (order.arrange es).filter isBelow ++ fs.filter fun e => !isBelow e
  have hperm : arranged.Perm fs := by
    refine .trans (.append_right _ ?_) (List.filter_append_perm isBelow fs)
    rw [← h.filter_eq]
    exact (order.perm es).filter isBelow
  refine ⟨.sending hperm, fun v => ?_⟩
  have hnone : (fs.filter fun e => !isBelow e).filter isBelow = [] := by simp
  have hsome : arranged.filter isBelow = (order.arrange es).filter isBelow := by
    rw [List.filter_append, hnone, List.append_nil, List.filter_filter]
    simp only [Bool.and_self]
  rw [Arrangement.arrange_sending, ← layBelow_filter, ← layBelow_filter (order.arrange es)]
  exact congrArg (layBelow · v) hsome

/-- Two outcomes agree: the same failure, or layers that differ only beside `output`. -/
inductive AlikeOutcomes :
    Except Failure (Entries Value) → Except Failure (Entries Value) → Prop where
  | error (f : Failure) : AlikeOutcomes (.error f) (.error f)
  | ok {es fs : Entries Value} (h : EqBeside es fs) : AlikeOutcomes (.ok es) (.ok fs)

theorem AlikeOutcomes.symm {x y : Except Failure (Entries Value)} (h : AlikeOutcomes x y) :
    AlikeOutcomes y x := by
  cases h with
  | error f => exact .error f
  | ok h => exact .ok h.symm

theorem AlikeOutcomes.refl (x : Except Failure (Entries Value)) : AlikeOutcomes x x := by
  cases x with
  | error f => exact .error f
  | ok es => exact .ok (.refl es)

section

variable {files₁ files₂ : Files} {env₁ env₂ : Environment} {path₁ path₂ : Option String}
  (hfile : AlikeOutcomes (fileLayer files₁ (pathUsed env₁ path₁))
    (fileLayer files₂ (pathUsed env₂ path₂)))
  (henv : AlikeOutcomes env₁.layer env₂.layer)

include hfile henv

/-- Two such loads fail alike whatever the order of visits, or read what layers make of the settings
that differ only beside `output`. -/
theorem alikeOutcomes_cases :
    (∃ f, ∀ visits, loadIn visits files₁ env₁ path₁ = .error f ∧
      loadIn visits files₂ env₂ path₂ = .error f) ∨
    ∃ file₁ file₂ layer₁ layer₂, EqBeside file₁ file₂ ∧ EqBeside layer₁ layer₂ ∧
      ∀ visits : Visits,
        loadIn visits files₁ env₁ path₁ = read visits.first
          (layBelow (visits.environment.arrange layer₁)
            (layBelow (visits.file.arrange file₁) standardOutput)) ∧
        loadIn visits files₂ env₂ path₂ = read visits.first
          (layBelow (visits.environment.arrange layer₂)
            (layBelow (visits.file.arrange file₂) standardOutput)) := by
  generalize hf₁ : fileLayer files₁ (pathUsed env₁ path₁) = file₁ at hfile
  generalize hf₂ : fileLayer files₂ (pathUsed env₂ path₂) = file₂ at hfile
  generalize he₁ : env₁.layer = layer₁ at henv
  generalize he₂ : env₂.layer = layer₂ at henv
  cases hfile with
  | error f =>
    exact .inl ⟨f, fun visits =>
      ⟨loadIn_of_fileLayer_eq_error visits hf₁, loadIn_of_fileLayer_eq_error visits hf₂⟩⟩
  | ok hfile =>
    cases henv with
    | error f =>
      exact .inl ⟨f, fun visits =>
        ⟨loadIn_of_layer_eq_error visits hf₁ he₁, loadIn_of_layer_eq_error visits hf₂ he₂⟩⟩
    | ok henv =>
      exact .inr ⟨_, _, _, _, hfile, henv, fun visits =>
        ⟨loadIn_eq_read visits hf₁ he₁, loadIn_eq_read visits hf₂ he₂⟩⟩

theorem load_eq_of_alikeOutcomes : load files₁ env₁ path₁ = load files₂ env₂ path₂ := by
  rcases alikeOutcomes_cases hfile henv with ⟨f, h⟩ | ⟨file₁, file₂, layer₁, layer₂, hfile, henv, h⟩
  · rw [load, load, (h .arrival).1, (h .arrival).2]
  · have hread : read .header (layBelow layer₁ (layBelow file₁ standardOutput)) =
        read .header (layBelow layer₂ (layBelow file₂ standardOutput)) := by
      rw [hfile.layBelow_eq, henv.layBelow_eq]
    exact (h .arrival).1.trans (hread.trans (h .arrival).2.symm)

/-- Whatever loading comes to in one order, the other load comes to in some order. -/
theorem exists_loadIn_eq_of_alikeOutcomes (visits : Visits) :
    ∃ visits', loadIn visits' files₂ env₂ path₂ = loadIn visits files₁ env₁ path₁ := by
  rcases alikeOutcomes_cases hfile henv with ⟨f, h⟩ | ⟨file₁, file₂, layer₁, layer₂, hfile, henv, h⟩
  · exact ⟨visits, (h visits).2.trans (h visits).1.symm⟩
  · obtain ⟨file, hfile⟩ := hfile.exists_arrangement visits.file
    obtain ⟨environment, henv⟩ := henv.exists_arrangement visits.environment
    refine ⟨⟨file, environment, visits.first⟩, ?_⟩
    rw [(h visits).1, (h _).2, hfile, henv]

end

/-! ## Variables -/

open Environment (Names keyOf)

/-- A variable is ignored: its name is no text, or it does not begin as those of variables that
count, or its value is a text for a key that lies beside `output`. -/
inductive Ignored : Bytes × Bytes → Prop where
  | nameless {name value : Bytes} (h : ¬ Utf8.IsWellFormed name) : Ignored (name, value)
  | foreign {cs : List Char} {name value : Bytes} (h : Utf8.encode cs = name)
      (hstart : ¬ Environment.start <+: Text.lower cs) : Ignored (name, value)
  | elsewhere {n cs : List Char} {name value : Bytes} (hn : Names name n)
      (hvalue : Utf8.encode cs = value) (hkey : ¬ IsBelow (keyOf n)) : Ignored (name, value)

theorem Ignored.cases {v : Bytes × Bytes} (h : Ignored v) :
    (∀ n, ¬ Names v.1 n) ∨
      ∃ n cs, Names v.1 n ∧ Utf8.encode cs = v.2 ∧ ¬ IsBelow (keyOf n) := by
  cases h with
  | nameless h =>
    refine .inl ?_
    rintro n ⟨cs, hcs, -⟩
    exact h ⟨cs, hcs⟩
  | @foreign cs name value hcs hstart =>
    refine .inl ?_
    rintro n ⟨ds, hds, hlower⟩
    have hsame : cs = ds :=
      Option.some.inj ((Utf8.decode?_eq_some_iff.2 hcs).symm.trans (Utf8.decode?_eq_some_iff.2 hds))
    rw [hsame, hlower] at hstart
    exact hstart (List.prefix_append _ _)
  | elsewhere hn hvalue hkey => exact .inr ⟨_, _, hn, hvalue, hkey⟩

/-- An ignored variable in front makes no difference. -/
theorem Ignored.layerFrom_cons {v : Bytes × Bytes} (hv : Ignored v) {es fs : Entries Value}
    (h : EqBeside es fs) (env : Environment) :
    ∃ es', EqBeside es' fs ∧
      Environment.layerFrom es (v :: env) = Environment.layerFrom es' env := by
  rcases hv.cases with hv | ⟨n, cs, hn, hcs, hkey⟩
  · exact ⟨es, h, Environment.layerFrom_cons_of_not_names es env hv⟩
  · exact ⟨_, h.put_left hkey _, Environment.layerFrom_cons_of_text es env hn hcs⟩

theorem EqBeside.layerFrom {env₁ env₂ : Environment} (henv : EqApartFrom Ignored env₁ env₂)
    {es fs : Entries Value} (h : EqBeside es fs) :
    AlikeOutcomes (Environment.layerFrom es env₁) (Environment.layerFrom fs env₂) := by
  induction henv generalizing es fs with
  | nil => exact .ok h
  | @cons v env₁ env₂ _ ih =>
    rcases Environment.variable_cases v with hv | ⟨n, cs, hn, hcs⟩ | ⟨⟨n, hn⟩, hv⟩
    · rw [Environment.layerFrom_cons_of_not_names es env₁ hv,
        Environment.layerFrom_cons_of_not_names fs env₂ hv]
      exact ih h
    · rw [Environment.layerFrom_cons_of_text es env₁ hn hcs,
        Environment.layerFrom_cons_of_text fs env₂ hn hcs]
      by_cases hkey : IsBelow (keyOf n)
      · exact ih (h.put hkey _)
      · exact ih ((h.put_left hkey _).symm.put_left hkey _).symm
    · rw [Environment.layerFrom_cons_of_garbled es env₁ hn hv,
        Environment.layerFrom_cons_of_garbled fs env₂ hn hv]
      exact .error _
  | @left v hv env₁ env₂ _ ih =>
    obtain ⟨es', hes', hlayer⟩ := hv.layerFrom_cons h env₁
    rw [hlayer]
    exact ih hes'
  | @right v hv env₁ env₂ _ ih =>
    obtain ⟨fs', hfs', hlayer⟩ := hv.layerFrom_cons h.symm env₂
    rw [hlayer]
    exact ih hfs'.symm

/-! ## Files -/

/-- The paths at which a file is looked for. -/
def candidates (d : Directory) (path : String) : List String :=
  path :: (secondPath? d path).toList

/-- A file is found at the path where it was written. -/
theorem source?_write (files : Files) (path : String) (content : Bytes) :
    source? (files.write path content) path =
      some ⟨nameOf files.workingDirectory path, content⟩ := by
  have hfound : (files.write path content) path = some content := if_pos rfl
  rw [source?, sourceAt?, hfound]
  rfl

/-- A file that stands alone, at a path that is its name, is found there. -/
theorem source?_alone {d : Directory} {path : String} (hname : nameOf d path = path)
    (content : Bytes) :
    source? ((Files.empty d).write path content) path = some ⟨path, content⟩ := by
  have hfound := source?_write (.empty d) path content
  rwa [Files.empty, hname] at hfound

/-- The document that the content of a file is. -/
def documentIn? (content : Bytes) : Option (Entries Toml.Node) :=
  Toml.document? (Utf8.decodeLossy (withoutMark content))

/-- The bytes of a text that begins with an ASCII character have no mark in front. -/
theorem documentIn?_encode {c : Char} (hc : c.toNat ≤ 0x7F) (cs : List Char) :
    documentIn? (Utf8.encode (c :: cs)) = Toml.document? (c :: cs) := by
  have hbyte : UInt8.ofNat c.toNat ≠ 0xEF := by
    intro h
    have htoNat : c.toNat % 256 = 0xEF := congrArg UInt8.toNat h
    omega
  have hmark : withoutMark (Utf8.encode (c :: cs)) = Utf8.encode (c :: cs) := by
    rw [Utf8.encode_cons, Utf8.utf8EncodeChar_one hc]
    unfold withoutMark
    split
    · next h => exact absurd (List.cons.inj h).1 hbyte
    · rfl
  rw [documentIn?, hmark, Utf8.decodeLossy_encode]

/-- What is found at a path in two file trees differs at most beside `output`: the same or nothing
in both, or two documents that have the same values there. -/
inductive AlikeFiles : Option Bytes → Option Bytes → Prop where
  | same (content : Option Bytes) : AlikeFiles content content
  | edited {content₁ content₂ : Bytes} {doc₁ doc₂ : Entries Toml.Node}
      (h₁ : documentIn? content₁ = some doc₁) (h₂ : documentIn? content₂ = some doc₂)
      (h : EqBeside (Tree.renoteEntries () doc₁) (Tree.renoteEntries () doc₂)) :
      AlikeFiles (some content₁) (some content₂)

theorem Source.layer_eq_ok {path : String} {content : Bytes} {doc : Entries Toml.Node}
    (h : documentIn? content = some doc) :
    (⟨path, content⟩ : Source).layer = .ok (Tree.renoteEntries (some path) doc) := by
  have htext : Toml.document? (Source.text ⟨path, content⟩) = some doc := h
  rw [Source.layer, htext]

theorem Source.layer_eq_error {path : String} {content : Bytes} (h : documentIn? content = none) :
    (⟨path, content⟩ : Source).layer = .error (.unparsed path) := by
  have htext : Toml.document? (Source.text ⟨path, content⟩) = none := h
  rw [Source.layer, htext]

theorem fileLayer_of_documentIn? {files : Files} {path p : String} {content : Bytes}
    {doc : Entries Toml.Node} (hs : source? files path = some ⟨p, content⟩)
    (h : documentIn? content = some doc) :
    fileLayer files path = .ok (Tree.renoteEntries (some p) doc) := by
  rw [fileLayer, hs]
  exact Source.layer_eq_ok h

/-- A file that is no document makes loading fail. -/
theorem load_of_documentIn?_eq_none {files : Files} {env : Environment} {path : Option String}
    {p : String} {content : Bytes} (hs : source? files (pathUsed env path) = some ⟨p, content⟩)
    (h : documentIn? content = none) : load files env path = .error (.unparsed p) := by
  apply load_of_fileLayer_eq_error
  rw [fileLayer, hs]
  exact Source.layer_eq_error h

section

variable {files₁ files₂ : Files} {path : String}

/-- The layer of what is found at a path, where nothing leads to another layer. -/
theorem alikeOutcomes_sourceAt? (hdirectory : files₁.workingDirectory = files₂.workingDirectory)
    (h : AlikeFiles (files₁ path) (files₂ path)) {next₁ next₂ : Except Failure (Entries Value)}
    (hnext : AlikeOutcomes next₁ next₂) :
    AlikeOutcomes ((sourceAt? files₁ path).elim next₁ Source.layer)
      ((sourceAt? files₂ path).elim next₂ Source.layer) := by
  unfold sourceAt?
  rw [hdirectory]
  generalize files₁ path = content₁ at h
  generalize files₂ path = content₂ at h
  cases h with
  | same =>
    cases content₁ with
    | none => exact hnext
    | some content => exact .refl _
  | edited h₁ h₂ h =>
    simp only [Option.map_some, Option.elim_some, Source.layer_eq_ok h₁, Source.layer_eq_ok h₂]
    have hrenote := h.renoteEntries (some (nameOf files₂.workingDirectory path))
    rw [Tree.renoteEntries_renoteEntries, Tree.renoteEntries_renoteEntries] at hrenote
    exact .ok hrenote

theorem fileLayer_eq_elim (files : Files) (path : String) :
    fileLayer files path = (sourceAt? files path).elim
      ((secondPath? files.workingDirectory path).elim (.ok []) fun q =>
        (sourceAt? files q).elim (.ok []) Source.layer)
      Source.layer := by
  unfold fileLayer source?
  cases sourceAt? files path with
  | some s => rfl
  | none =>
    cases secondPath? files.workingDirectory path with
    | none => rfl
    | some q =>
      rw [Option.none_or, Option.bind_some]
      cases hq : sourceAt? files q with
      | none => simp only [Option.elim_none, Option.elim_some, hq]
      | some s => simp only [Option.elim_none, Option.elim_some, hq]

theorem alikeOutcomes_fileLayer (hdirectory : files₁.workingDirectory = files₂.workingDirectory)
    (h : ∀ p ∈ candidates files₁.workingDirectory path, AlikeFiles (files₁ p) (files₂ p)) :
    AlikeOutcomes (fileLayer files₁ path) (fileLayer files₂ path) := by
  rw [fileLayer_eq_elim, fileLayer_eq_elim]
  refine alikeOutcomes_sourceAt? hdirectory (h path List.mem_cons_self) ?_
  rw [← hdirectory]
  cases hsecond : secondPath? files₁.workingDirectory path with
  | none => exact .refl _
  | some q =>
    have hq : q ∈ candidates files₁.workingDirectory path := by
      rw [candidates, hsecond]
      exact List.mem_cons_of_mem _ List.mem_cons_self
    exact alikeOutcomes_sourceAt? hdirectory (h q hq) (.refl _)

end

/-! ## Loading -/

/-- Loading from a path gives the same, settings or failure, if what is found at the two paths where
a file is looked for differs at most beside `output` and the environments differ at most by ignored
variables, and so does loading in whatever order entries and settings are visited.  Other files may
differ as they like. -/
theorem load_eq_of_alike {files₁ files₂ : Files} {env₁ env₂ : Environment} {path : String}
    (hdirectory : files₁.workingDirectory = files₂.workingDirectory)
    (hfiles : ∀ p ∈ candidates files₁.workingDirectory path, AlikeFiles (files₁ p) (files₂ p))
    (henv : EqApartFrom Ignored env₁ env₂) :
    load files₁ env₁ (some path) = load files₂ env₂ (some path) ∧
      ∀ result, (∃ visits, loadIn visits files₁ env₁ (some path) = result) ↔
        ∃ visits, loadIn visits files₂ env₂ (some path) = result := by
  have hfile : AlikeOutcomes (fileLayer files₁ (pathUsed env₁ (some path)))
      (fileLayer files₂ (pathUsed env₂ (some path))) :=
    alikeOutcomes_fileLayer hdirectory hfiles
  have hlayer : AlikeOutcomes env₁.layer env₂.layer := EqBeside.layerFrom henv (.refl [])
  refine ⟨load_eq_of_alikeOutcomes hfile hlayer, fun result => ⟨?_, ?_⟩⟩
  · rintro ⟨visits, rfl⟩
    exact exists_loadIn_eq_of_alikeOutcomes hfile hlayer visits
  · rintro ⟨visits, rfl⟩
    exact exists_loadIn_eq_of_alikeOutcomes hfile.symm hlayer.symm visits

/-- Further entries in the file, one of which is a quoted key that is no path, a variable for
another key and one that is no text, and a file elsewhere make no difference. -/
theorem load_eq_of_alike_more_entries :
    let plain := bytesOf "[output]\nheader = \"A\"\n"
    let more := bytesOf
      "Output = 3\n\"output x\" = [1]\n[output]\nheader = \"A\"\n[x.y]\nz = 2\n"
    let files₁ := (Files.empty default).write "c.toml" plain
    let files₂ := ((Files.empty default).write "c.toml" more).write "d.toml" [0xFF]
    let env : Environment := [(bytesOf "Roster_Other__0", bytesOf "1"), ([0xFF], [0xFF])]
    load files₁ [] (some "c.toml") = load files₂ env (some "c.toml") := by
  intro plain more files₁ files₂ env
  have hcandidates : candidates default "c.toml" = ["c.toml", "/home/work/c.toml.toml"] := by
    decide +kernel
  have hplain : documentIn? plain =
      some [("output", .table .heading [("header", .leaf .value (.text "A"))])] := by
    decide +kernel
  have hmore : documentIn? more = some [
      ("Output", .leaf .value (.integer 3)),
      ("output x", .list .value [.leaf .value (.integer 1)]),
      ("output", .table .heading [("header", .leaf .value (.text "A"))]),
      ("x", .table .implied [("y", .table .heading [("z", .leaf .value (.integer 2))])])] := by
    decide +kernel
  have hbeside : ∀ k ∈ ["Output", "output x", "x"], ∀ v : Tree Unit, Beside (k, v) := by
    have hnone : ∀ k ∈ ["Output", "output x", "x"], below? k = none := by decide +kernel
    intro k hk v
    exact below?_eq_none_iff.1 (hnone k hk)
  have hname : Names (bytesOf "Roster_Other__0") "other__0".toList :=
    ⟨"Roster_Other__0".toList, rfl, by decide +kernel⟩
  have hkey : ¬ IsBelow (keyOf "other__0".toList) := by
    rw [← below?_eq_none_iff]
    decide +kernel
  have hnameless : ¬ Utf8.IsWellFormed [0xFF] := by
    rw [← Utf8.decode?_eq_none_iff]
    decide +kernel
  have hdirectory : files₁.workingDirectory = files₂.workingDirectory := rfl
  refine (load_eq_of_alike hdirectory ?_ ?_).1
  · intro p hp
    have hp : p ∈ candidates default "c.toml" := hp
    rw [hcandidates, List.mem_cons, List.mem_singleton] at hp
    rcases hp with rfl | rfl
    · have hfound₁ : files₁ "c.toml" = some plain := by decide +kernel
      have hfound₂ : files₂ "c.toml" = some more := by decide +kernel
      rw [hfound₁, hfound₂]
      refine .edited hplain hmore ?_
      exact .right (hbeside "Output" (by decide) _) (.right (hbeside "output x" (by decide) _)
        (.cons _ (.right (hbeside "x" (by decide) _) .nil)))
    · have hnone₁ : files₁ "/home/work/c.toml.toml" = none := by decide +kernel
      have hnone₂ : files₂ "/home/work/c.toml.toml" = none := by decide +kernel
      rw [hnone₁, hnone₂]
      exact .same none
  · have hvalue : Utf8.encode "1".toList = bytesOf "1" := rfl
    exact .right (.elsewhere hname hvalue hkey) (.right (.nameless hnameless) .nil)

end Settings

end Enrollment
