import Enrollment.Proofs.Output
import Enrollment.Proofs.Variables
import Enrollment.Sink

/-!
# Which failure comes first

Loading can fail in three ways, and it looks for them one after another: a file
that is no document, a variable that is no text, a gathered value that is no
settings.  `load_staged` says for each of them exactly when it decides, so that
a failure of a later kind shows that there was none of an earlier kind.
-/

namespace Enrollment.Settings

open Environment (Garbled Names keyOf)

/-- The file that is found, if one is, is a document. -/
def FileIsDocument (files : Files) (env : Environment) (path : Option String) : Prop :=
  ∀ s, source? files (pathUsed env path) = some s → Toml.document? s.text ≠ none

section

variable {files : Files} {env : Environment} {path : Option String}

theorem fileLayer_eq_error {s : Source} (hs : source? files (pathUsed env path) = some s)
    (hdoc : Toml.document? s.text = none) :
    fileLayer files (pathUsed env path) = .error (.unparsed s.path) := by
  rw [fileLayer, hs]
  simp only [Source.layer, hdoc]

theorem exists_fileLayer_eq_ok (h : FileIsDocument files env path) :
    ∃ file, fileLayer files (pathUsed env path) = .ok file := by
  unfold fileLayer
  cases hs : source? files (pathUsed env path) with
  | none => exact ⟨[], rfl⟩
  | some s =>
    obtain ⟨es, hes⟩ := Option.ne_none_iff_exists'.1 (h s hs)
    exact ⟨Tree.renoteEntries (some s.path) es, by simp only [Source.layer, hes]⟩

theorem not_fileIsDocument (h : ¬ FileIsDocument files env path) :
    ∃ s, source? files (pathUsed env path) = some s ∧ Toml.document? s.text = none := by
  simp only [FileIsDocument, ne_eq, Classical.not_forall, Classical.not_not] at h
  obtain ⟨s, hs, hdoc⟩ := h
  exact ⟨s, hs, hdoc⟩

/-- A variable reaches no setting if the key of a name that it has does not. -/
theorem not_isBelow_of_names {name : Bytes} {n : List Char} (hn : Names name n)
    (hkey : below? (keyOf n) = none) : ∀ m, Names name m → ¬ IsBelow (keyOf m) := by
  intro m hm
  rw [hm.unique hn]
  exact below?_eq_none_iff.1 hkey

/-- Variables that have texts and reach no setting leave the settings as the file has them. -/
theorem load_of_beside {file : Entries Value} (hfile : fileLayer files (pathUsed env path) = .ok file)
    (htext : ∀ v ∈ env, ¬ Garbled v) (hbeside : ∀ v ∈ env, ∀ n, Names v.1 n → ¬ IsBelow (keyOf n)) :
    load files env path = read .header (layBelow file standardOutput) := by
  obtain ⟨environment, henv⟩ := Environment.exists_layer_eq_ok htext
  -- Every entry of the environment's layer comes from a variable, so none of them reaches a setting.
  have hnone : ∀ e ∈ environment, ¬ IsBelow e.1 := by
    intro e he
    obtain ⟨v, hv, n, cs, hn, rfl⟩ := Environment.mem_layer henv he
    exact hbeside v hv n hn
  rw [load_eq_read hfile henv, layBelow_of_forall_beside hnone]

/-- A failure to load is about the file, about a variable or about a value, and the first of these
that there is a reason for. -/
theorem load_error_cases {f : Failure} (h : load files env path = .error f) :
    (∃ s, source? files (pathUsed env path) = some s ∧ Toml.document? s.text = none ∧
      f = .unparsed s.path) ∨
    (FileIsDocument files env path ∧ ∃ before v later n, env = before ++ v :: later ∧
      (∀ w ∈ before, ¬ Garbled w) ∧ Names v.1 n ∧ ¬ Utf8.IsWellFormed v.2 ∧
      f = .undecodable (String.ofList n) v.2) ∨
    FileIsDocument files env path ∧ (∀ v ∈ env, ¬ Garbled v) ∧ f.IsOfValue := by
  by_cases hdoc : FileIsDocument files env path
  · obtain ⟨file, hfile⟩ := exists_fileLayer_eq_ok hdoc
    by_cases hgood : ∀ v ∈ env, ¬ Garbled v
    · obtain ⟨environment, henv⟩ := Environment.exists_layer_eq_ok hgood
      rw [load_eq_read hfile henv] at h
      exact .inr (.inr ⟨hdoc, hgood, isOfValue_of_read_eq_error h⟩)
    · obtain ⟨before, v, later, rfl, hbefore, ⟨n, hn⟩, hv⟩ := Environment.exists_first_garbled hgood
      rw [load_of_layer_eq_error hfile (Environment.layer_eq_error hbefore hn hv)] at h
      cases h
      exact .inr (.inl ⟨hdoc, before, v, later, n, rfl, hbefore, hn, hv, rfl⟩)
  · obtain ⟨s, hs, hnone⟩ := not_fileIsDocument hdoc
    rw [load_of_fileLayer_eq_error (fileLayer_eq_error hs hnone)] at h
    cases h
    exact .inl ⟨s, hs, hnone, rfl⟩

end

/-- The message of a failure to load begins as none about a sink does. -/
theorem Failure.message_ne (f : Failure) (fault : SinkFault) : f.message ≠ fault.message := by
  have hload : "invalid configuration: ".toList.head? = some 'i' := by decide +kernel
  have hwrite : "failed to write to output sink: ".toList.head? = some 'f' := by decide +kernel
  intro h
  have hfirst : ("invalid configuration: " ++ f.reason).toList.head? =
      ("failed to write to output sink: " ++ fault.text).toList.head? :=
    congrArg (fun m : String => m.toList.head?) h
  simp only [String.toList_append, List.head?_append, hload, hwrite, Option.some_or] at hfirst
  exact absurd (Option.some.inj hfirst) (by decide)

/-- What decides about loading, stage by stage. -/
structure Staged (files : Files) (env : Environment) (path : Option String) : Prop where
  /-- A file that is no document decides, whatever the environment holds. -/
  unparsed : ∀ s, source? files (pathUsed env path) = some s → Toml.document? s.text = none →
    load files env path = .error (.unparsed s.path)
  /-- Otherwise the first garbled variable decides, whatever key it is for. -/
  undecodable : FileIsDocument files env path → ∀ before v later n, env = before ++ v :: later →
    (∀ w ∈ before, ¬ Garbled w) → Names v.1 n → ¬ Utf8.IsWellFormed v.2 →
    ∃ f, load files env path = .error f ∧ f = .undecodable (String.ofList n) v.2 ∧
      f.message = "invalid configuration: " ++ ("env variable " ++ String.ofList (Text.quoted n) ++
        " contains non-Unicode data: " ++ String.ofList (Text.quotedBytes v.2))
  /-- Otherwise the value gathered under `output` decides: it is read, or it cannot be read and the
  failure says so. -/
  gathered : FileIsDocument files env path → (∀ v ∈ env, ¬ Garbled v) →
    ∃ file environment v, fileLayer files (pathUsed env path) = .ok file ∧
      env.layer = .ok environment ∧
      Value.get? [.key "output"] (gather file environment) = some v ∧
      (∀ s, load files env path = .ok s ↔ Reads v s) ∧
      ((∃ f, load files env path = .error f ∧ f.IsOfValue) ↔ ¬ Readable v)
  /-- A failure about a value comes only from the last stage. -/
  ofValue : ∀ f, load files env path = .error f → f.IsOfValue →
    FileIsDocument files env path ∧ ∀ v ∈ env, ¬ Garbled v
  /-- A failure about a file comes only from one that was found. -/
  found : ∀ p, load files env path = .error (.unparsed p) →
    ∃ s, source? files (pathUsed env path) = some s ∧ Toml.document? s.text = none
  /-- Every failure is told as one of the configuration, so that none is taken for a failure to
  write. -/
  configuration : ∀ f, load files env path = .error f →
    f.message = "invalid configuration: " ++ f.reason ∧ ∀ fault : SinkFault, f.message ≠ fault.message

/-- A file that is no document decides before any variable, and a garbled variable before any
value. -/
theorem load_staged (files : Files) (env : Environment) (path : Option String) :
    Staged files env path where
  unparsed s hs hdoc := load_of_fileLayer_eq_error (fileLayer_eq_error hs hdoc)
  undecodable hdoc before v later n henv hbefore hn hv := by
    obtain ⟨file, hfile⟩ := exists_fileLayer_eq_ok hdoc
    have hlayer : env.layer = .error (.undecodable (String.ofList n) v.2) := by
      rw [henv]
      exact Environment.layer_eq_error hbefore hn hv
    refine ⟨_, load_of_layer_eq_error hfile hlayer, rfl, ?_⟩
    unfold Failure.message Failure.reason
    dsimp only
    rw [String.toList_ofList]
  gathered hdoc hgood := by
    obtain ⟨file, hfile⟩ := exists_fileLayer_eq_ok hdoc
    obtain ⟨environment, henv⟩ := Environment.exists_layer_eq_ok hgood
    refine ⟨file, environment, _, hfile, henv, get?_gather file environment, ?_, ?_⟩
    · intro s
      rw [load_eq_read hfile henv, read_eq_ok_iff]
    · rw [load_eq_read hfile henv, ← read_isOk_iff]
      constructor
      · rintro ⟨f, hf, -⟩ ⟨s, hs⟩
        rw [hf] at hs
        cases hs
      · intro h
        cases hread : read .header (layBelow environment (layBelow file standardOutput)) with
        | ok s => exact absurd ⟨s, hread⟩ h
        | error f => exact ⟨f, rfl, isOfValue_of_read_eq_error hread⟩
  ofValue f h hf := by
    rcases load_error_cases h with ⟨s, -, -, rfl⟩ | ⟨-, before, v, later, n, -, -, -, -, rfl⟩ | h
    · exact hf.elim
    · exact hf.elim
    · exact ⟨h.1, h.2.1⟩
  found p h := by
    rcases load_error_cases h with ⟨s, hs, hdoc, -⟩ | ⟨-, before, v, later, n, -, -, -, -, h⟩ | h
    · exact ⟨s, hs, hdoc⟩
    · cases h
    · exact h.2.2.elim
  configuration f _ := ⟨rfl, f.message_ne⟩

end Enrollment.Settings
