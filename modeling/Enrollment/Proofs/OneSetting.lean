import Enrollment.Proofs.Precedence
import Enrollment.Proofs.Stages
import Enrollment.Proofs.VariableText

/-!
# One setting given by variables

Where variables give one setting alone, loading reads the last value that they
give it and what the file leaves of the other (`load_of_leaf`).  So a header never
fails to be read and is the text itself wherever this is neither a boolean nor a
number (`load_header_variable`), and a switch fails exactly for the texts that are
neither these nor words for it (`load_switch_variable`).
-/

namespace Enrollment.Settings

open Value
open Decimal (IsNumeral fitsWord word? word?_eq_some_iff)
open Environment (Garbled Names keyOf wordOf wordsFor IsMere IsNoSwitch)
open Text (IsPlain lower lower_eq_iff)

/-! ## What is read -/

/-- What a file makes of the standard settings is a table still. -/
def LeavesTable (file : Entries Value) : Prop :=
  ∃ o ts, Value.get? [.key "output"] (lay file base) = some (.table o ts)

/-- The value that a file leaves for a setting. -/
def leftBy (file : Entries Value) (s : Setting) : Option Value :=
  Value.get? [.key "output", .key s.key] (lay file base)

theorem get?_lay_base (file : Entries Value) :
    Value.get? [.key "output"] (lay file base) = some (layBelow file standardOutput) :=
  get?_gather file []

theorem LeavesTable.exists_eq {file : Entries Value} (h : LeavesTable file) :
    ∃ o ts, layBelow file standardOutput = .table o ts ∧
      ∀ s : Setting, leftBy file s = Entries.get? s.key ts := by
  obtain ⟨o, ts, hget⟩ := h
  have hleft : layBelow file standardOutput = .table o ts :=
    Option.some.inj ((get?_lay_base file).symm.trans hget)
  rw [Value.get?_key_cons] at hget
  obtain ⟨v, hv, hget⟩ := Option.bind_eq_some_iff.1 hget
  cases hget
  refine ⟨o, ts, hleft, fun s => ?_⟩
  rw [leftBy, Value.get?_key_cons, hv, Option.bind_some, Value.get?_key_cons, asTable]
  cases Entries.get? s.key ts <;> rfl

/-- Loading gets as far as reading values, or fails before. -/
theorem loadIn_reaches_values (visits : Visits) (files : Files) (env : Environment)
    (path : Option String) :
    (∃ f, loadIn visits files env path = .error f ∧ ¬ f.IsOfValue) ∨
    ∃ file, fileLayer files (pathUsed env path) = .ok file ∧ ∀ v ∈ env, ¬ Garbled v := by
  by_cases hdoc : FileIsDocument files env path
  · obtain ⟨file, hfile⟩ := exists_fileLayer_eq_ok hdoc
    by_cases hgood : ∀ v ∈ env, ¬ Garbled v
    · exact .inr ⟨file, hfile, hgood⟩
    · obtain ⟨before, v, later, rfl, hbefore, ⟨n, hn⟩, hv⟩ := Environment.exists_first_garbled hgood
      have hlayer : Environment.layer (before ++ v :: later) = .error _ :=
        Environment.layer_eq_error hbefore hn hv
      exact .inl ⟨_, loadIn_of_layer_eq_error visits hfile hlayer, id⟩
  · obtain ⟨s, hs, hnone⟩ := not_fileIsDocument hdoc
    exact .inl ⟨_, loadIn_of_fileLayer_eq_error visits (fileLayer_eq_error hs hnone), id⟩

theorem load_reaches_values (files : Files) (env : Environment) (path : Option String) :
    (∃ f, load files env path = .error f ∧ ¬ f.IsOfValue) ∨
    ∃ file, fileLayer files (pathUsed env path) = .ok file ∧ ∀ v ∈ env, ¬ Garbled v :=
  loadIn_reaches_values .arrival files env path

section Leaf

variable {files : Files} {env : Environment} {path : Option String} {file : Entries Value}
  {s : Setting} {cs : List Char}

/-- Where variables reach the settings at one of them only, loading reads the last value given to it
and what the file leaves of the other. -/
theorem load_of_leaf (hfile : fileLayer files (pathUsed env path) = .ok file)
    (htable : LeavesTable file) (htext : ∀ v ∈ env, ¬ Garbled v)
    (honly : ∀ v ∈ env, ∀ n, Names v.1 n → IsBelow (keyOf n) → keyOf n = leafKey s)
    (hlast : env.lastText? (leafKey s) = some cs) :
    load files env path =
      readBoth .header .keyed fun t => if t = s then some (Environment.value cs) else leftBy file t := by
  obtain ⟨environment, henv⟩ := Environment.exists_layer_eq_ok htext
  obtain ⟨o, ts, hlay, hleft⟩ := htable.exists_eq
  have hleaves : ∀ e ∈ environment, IsBelow e.1 → e.1 = leafKey s := by
    intro e he
    obtain ⟨v, hv, n, cs, hn, rfl⟩ := Environment.mem_layer henv he
    exact honly v hv n hn
  have hvalues : ∀ e ∈ environment, ¬ e.2.IsTable := by
    intro e he
    obtain ⟨v, hv, n, cs, hn, rfl⟩ := Environment.mem_layer henv he
    exact id
  obtain ⟨o', ts', hlay', hget⟩ := get?_layBelow_leaves (Environment.nodup_keys_layer henv)
    (fun e he hbelow => ⟨s, hleaves e he hbelow⟩) hvalues o ts
  rw [load_eq_read hfile henv, hlay, hlay', read]
  congr 1
  funext t
  rw [hget, ← hleft]
  by_cases hts : t = s
  · rw [if_pos hts, hts, Environment.get?_layer henv, hlast]
    rfl
  · have hnone : Entries.get? (leafKey t) environment = none := by
      rw [Option.eq_none_iff_forall_ne_some]
      intro x hx
      have hbelow : IsBelow (leafKey t) := ⟨_, below?_eq_some_iff.1 (below?_leafKey t)⟩
      exact hts (leafKey_inj (hleaves _ (Entries.mem_of_get?_eq_some hx) hbelow))
    rw [if_neg hts, hnone, Option.none_or]

end Leaf

/-! ## What cannot be read -/

/-- A value cannot be read as a setting. -/
def IllTyped (v : Value) : Setting → Prop
  | .header => ∀ t, ¬ IsText v t
  | .announceAdditions => ∀ b, ¬ IsSwitch v b

theorem readAt_eq_error {α : Type} {read : Value → Except Found α} {R : Value → α → Prop}
    (hread : ∀ v a, read v = .ok a ↔ R v a) {standard : α} {position : Position}
    {v : Option Value} {f : Failure} (h : readAt read standard position v = .error f) :
    ∃ w found, v = some w ∧ (∀ a, ¬ R w a) ∧ f = .mistyped found position w.note := by
  cases v with
  | none => cases h
  | some w =>
    rw [readAt] at h
    cases hw : read w with
    | ok a =>
      rw [hw] at h
      cases h
    | error found =>
      rw [hw] at h
      cases h
      refine ⟨w, found, rfl, fun a ha => ?_, rfl⟩
      rw [(hread w a).2 ha] at hw
      cases hw

/-- A failure to read settings is about one of them that cannot be read, and names its origin. -/
theorem readBoth_eq_error {first : Setting} {position : Setting → Position}
    {value : Setting → Option Value} {f : Failure} (h : readBoth first position value = .error f) :
    ∃ s v found, value s = some v ∧ IllTyped v s ∧ f = .mistyped found (position s) v.note := by
  rcases readAt_of_readBoth_eq_error h with h | h
  · obtain ⟨v, found, hv, hill, rfl⟩ := readAt_eq_error (fun _ _ => readText_eq_ok_iff) h
    exact ⟨.header, v, found, hv, hill, rfl⟩
  · obtain ⟨v, found, hv, hill, rfl⟩ := readAt_eq_error (fun _ _ => readSwitch_eq_ok_iff) h
    exact ⟨.announceAdditions, v, found, hv, hill, rfl⟩

/-! ## The header -/

theorem IsText.unique {v : Value} {s t : String} (hs : IsText v s) (ht : IsText v t) : s = t :=
  Except.ok.inj ((readText_eq_ok_iff.2 hs).symm.trans (readText_eq_ok_iff.2 ht))

/-- Whatever a variable says can be read as a text. -/
theorem exists_isText (cs : List Char) : ∃ header, IsText (Environment.value cs) header := by
  unfold Environment.value
  rcases Environment.scalarOfText_cases cs with ⟨b, -, h⟩ | ⟨n, -, -, h⟩ | ⟨x, -, h⟩ | ⟨-, h⟩
  · rw [h]
    exact ⟨_, .boolean _ b⟩
  · rw [h]
    exact ⟨_, .integer _ n⟩
  · rw [h]
    exact ⟨_, .float _ x⟩
  · rw [h]
    exact ⟨_, .text _ _⟩

/-- A failure is about the value of a setting, or about the settings as a whole. -/
def Failure.Concerns (s : Setting) : Failure → Prop
  | .unparsed _ => False
  | .undecodable _ _ => False
  | .misshapen _ => True
  | .mistyped _ position _ => position.setting = s

/-- The header is settled: loading never fails on it, and gives this one whenever it succeeds, which
it does if the file and the variables can be read and the file leaves something to be read as the
switch. -/
structure HeaderSettled (files : Files) (env : Environment) (path : Option String)
    (header : String) : Prop where
  failure : ∀ f, load files env path = .error f → ¬ f.Concerns .header
  settings : ∀ settings, load files env path = .ok settings → settings.header = header
  loads : ∀ file announceAdditions, fileLayer files (pathUsed env path) = .ok file →
    (∀ v ∈ env, ¬ Garbled v) →
    Given IsSwitch standard.announceAdditions (leftBy file .announceAdditions) announceAdditions →
    load files env path = .ok ⟨header, announceAdditions⟩

section Header

variable {files : Files} {env : Environment} {path : Option String}

theorem headerSettled_of_isText {cs : List Char} {header : String}
    (hlast : env.lastText? (leafKey .header) = some cs)
    (honly : ∀ v ∈ env, ∀ n, Names v.1 n → IsBelow (keyOf n) → keyOf n = leafKey .header)
    (htable : ∀ file, fileLayer files (pathUsed env path) = .ok file → LeavesTable file)
    (hheader : IsText (Environment.value cs) header) : HeaderSettled files env path header where
  failure f hf hconcerns := by
    rcases load_reaches_values files env path with ⟨g, hg, hvalue⟩ | ⟨file, hfile, htext⟩
    · rw [hg] at hf
      cases hf
      cases f with
      | unparsed | undecodable => exact hconcerns
      | misshapen | mistyped => exact hvalue trivial
    · rw [load_of_leaf hfile (htable file hfile) htext honly hlast] at hf
      obtain ⟨s, v, found, hv, hill, rfl⟩ := readBoth_eq_error hf
      obtain rfl : s = .header := hconcerns
      cases hv
      exact hill header hheader
  settings settings hload := by
    rcases load_reaches_values files env path with ⟨g, hg, -⟩ | ⟨file, hfile, htext⟩
    · rw [hg] at hload
      cases hload
    · rw [load_of_leaf hfile (htable file hfile) htext honly hlast, readBoth_eq_ok_iff,
        if_pos rfl, given_some_iff] at hload
      exact hload.1.unique hheader
  loads file announce hfile htext hannounce := by
    rw [load_of_leaf hfile (htable file hfile) htext honly hlast, readBoth_eq_ok_iff, if_pos rfl,
      given_some_iff]
    exact ⟨hheader, hannounce⟩

/-- Where variables give the header alone, loading does not fail on it: it is the word for a
boolean, the decimal of a whole number that fits a word, and the text itself if this is neither nor
any other number; so the decimal of a number that fits comes back as it is. -/
theorem load_header_variable {text : String}
    (hlast : env.lastText? (leafKey .header) = some text.toList)
    (honly : ∀ v ∈ env, ∀ n, Names v.1 n → IsBelow (keyOf n) → keyOf n = leafKey .header)
    (htable : ∀ file, fileLayer files (pathUsed env path) = .ok file → LeavesTable file) :
    ∃ header, HeaderSettled files env path header ∧
      (∀ b, lower text.toList = (wordOf b).toList → header = wordOf b) ∧
      (∀ n, IsNumeral text.toList n → fitsWord n = true → header = toString n) ∧
      (IsMere text.toList → header = text) ∧
      ∀ n : Int, fitsWord n = true → text = toString n → header = text := by
  obtain ⟨header, hheader⟩ := exists_isText text.toList
  have hinteger : ∀ n, IsNumeral text.toList n → fitsWord n = true → header = toString n := by
    intro n hn hfits
    rw [Environment.value, Environment.scalarOfText_of_integer hn hfits] at hheader
    exact hheader.unique (.integer _ n)
  refine ⟨header, headerSettled_of_isText hlast honly htable hheader, ?_, hinteger, ?_, ?_⟩
  · intro b hb
    rw [Environment.value, Environment.scalarOfText_of_boolean hb] at hheader
    exact hheader.unique (.boolean _ b)
  · intro hmere
    rw [Environment.value, Environment.scalarOfText_of_isMere hmere,
      String.ofList_toList] at hheader
    exact hheader.unique (.text _ text)
  · rintro n hfits rfl
    exact hinteger n (word?_eq_some_iff.1 (Decimal.word?_toString hfits)).1 hfits

/-- Blanks, a line break and a mark come back from the later of two variables, beside a file that
gives no header that could be read and switches announcements off. -/
theorem load_header_variable_blanks :
    let content := bytesOf "[output]\nheader = [1]\nannounce_additions = 0\n"
    let files := (Files.empty default).write "c.toml" content
    let env : Environment := [(bytesOf "ROSTER_OUTPUT__HEADER", bytesOf "7"),
      (bytesOf "roster_output.header", bytesOf " 7\n\"")]
    load files env (some "c.toml") = .ok ⟨" 7\n\"", false⟩ := by
  intro content files env
  let o : Origin := some "c.toml"
  let file : Entries Value := [("output", .table o [("header", .list o [.leaf o (.integer 1)]),
    ("announce_additions", .leaf o (.integer 0))])]
  have hlayer : fileLayer files (pathUsed env (some "c.toml")) = .ok file := by
    decide +kernel
  have hleft : layBelow file standardOutput = .table none [
      ("header", .list o [.leaf o (.integer 1)]),
      ("announce_additions", .leaf o (.integer 0))] := by
    decide +kernel
  have htable : LeavesTable file := ⟨_, _, (get?_lay_base file).trans (congrArg some hleft)⟩
  have htables : ∀ f, fileLayer files (pathUsed env (some "c.toml")) = .ok f → LeavesTable f := by
    intro f hf
    rw [hlayer] at hf
    cases hf
    exact htable
  have hfirst : Names (bytesOf "ROSTER_OUTPUT__HEADER") "output__header".toList :=
    ⟨"ROSTER_OUTPUT__HEADER".toList, rfl, by decide +kernel⟩
  have hlater : Names (bytesOf "roster_output.header") "output.header".toList :=
    ⟨"roster_output.header".toList, rfl, by decide +kernel⟩
  have honly : ∀ v ∈ env, ∀ n, Names v.1 n → IsBelow (keyOf n) → keyOf n = leafKey .header := by
    simp only [env, List.forall_mem_cons, List.not_mem_nil, false_implies, implies_true, and_true]
    refine ⟨fun n hn _ => ?_, fun n hn _ => ?_⟩
    · rw [hn.unique hfirst]
      decide +kernel
    · rw [hn.unique hlater]
      decide +kernel
  have htext : ∀ v ∈ env, ¬ Garbled v := by
    simp only [env, List.forall_mem_cons, List.not_mem_nil, false_implies, implies_true, and_true]
    exact ⟨fun h => h.2 ⟨"7".toList, rfl⟩, fun h => h.2 ⟨" 7\n\"".toList, rfl⟩⟩
  have hlast : env.lastText? (leafKey .header) = some " 7\n\"".toList := by
    decide +kernel
  obtain ⟨header, hsettled, -, -, hmere, -⟩ := load_header_variable hlast honly htables
  have htaken : Environment.scalarOfText " 7\n\"".toList = .text " 7\n\"" := by
    decide +kernel
  have hheader : header = " 7\n\"" := hmere (Environment.isMere_of_scalarOfText_eq_text htaken)
  have hannounce : leftBy file .announceAdditions = some (.leaf o (.integer 0)) := by
    decide +kernel
  rw [← hheader]
  exact hsettled.loads file false hlayer htext (hannounce ▸ .given (.integer o 0))

end Header

/-! ## The switch -/

theorem isSwitch_of_mem_wordsFor {cs : List Char} {b : Bool} {w : String} (hw : w ∈ wordsFor b)
    (h : lower cs = w.toList) : IsSwitch (Environment.value cs) b := by
  unfold Environment.value
  rcases Environment.scalarOfText_of_mem_wordsFor hw h with htext | htext
  · rw [htext]
    exact .boolean _ b
  · have hlower : String.ofList (lower (String.ofList cs).toList) = w := by
      rw [String.toList_ofList, h, String.ofList_toList]
    rw [htext]
    cases b with
    | true => exact .on _ (hlower ▸ List.mem_cons_of_mem "1" hw)
    | false => exact .off _ (hlower ▸ List.mem_cons_of_mem "0" hw)

/-- A digit is a whole number, and so no mere text becomes one in lower case. -/
theorem ofList_lower_ne_of_isMere {cs : List Char} (hmere : IsMere cs) {d : Char} {n : Int}
    (hd : IsPlain d ∧ d.toNat < 'a'.toNat) (hn : word? [d] = some n) :
    String.ofList (lower cs) ≠ String.ofList [d] := by
  intro h
  rw [String.ofList_inj, lower_eq_iff fun c hc => List.mem_singleton.1 hc ▸ hd.1,
    List.map_eq_singleton_iff] at h
  obtain ⟨c, rfl, hc⟩ := h
  rw [← Text.eq_of_toLower_eq hc hd.2] at hn
  obtain ⟨hnumeral, hfits⟩ := word?_eq_some_iff.1 hn
  rw [hmere.integer n hnumeral] at hfits
  cases hfits

theorem readSwitch_of_isNoSwitch {cs : List Char} (h : IsNoSwitch cs) :
    readSwitch (Environment.value cs) = .error (.text (String.ofList (lower cs))) := by
  have hwords : ∀ b, String.ofList (lower cs) ∉ wordsFor b := by
    intro b hw
    exact h.word b _ hw (String.toList_ofList).symm
  have hone : String.ofList (lower cs) ≠ "1" :=
    ofList_lower_ne_of_isMere h.mere (d := '1') (n := 1) (by decide) (by decide)
  have hzero : String.ofList (lower cs) ≠ "0" :=
    ofList_lower_ne_of_isMere h.mere (d := '0') (n := 0) (by decide) (by decide)
  have hon : String.ofList (lower cs) ∉ onWords :=
    List.not_mem_cons_of_ne_of_not_mem hone (hwords true)
  have hoff : String.ofList (lower cs) ∉ offWords :=
    List.not_mem_cons_of_ne_of_not_mem hzero (hwords false)
  rw [Environment.value, Environment.scalarOfText_of_isMere h.mere, readSwitch, readWord,
    String.toList_ofList]
  exact (if_neg hon).trans (if_neg hoff)

theorem exists_isSwitch {cs : List Char} (h : ¬ IsNoSwitch cs) :
    ∃ b, IsSwitch (Environment.value cs) b := by
  by_cases hword : ∃ b, ∃ w ∈ wordsFor b, lower cs = w.toList
  · obtain ⟨b, w, hw, hlower⟩ := hword
    exact ⟨b, isSwitch_of_mem_wordsFor hw hlower⟩
  unfold Environment.value
  rcases Environment.scalarOfText_cases cs with
    ⟨b, -, hcs⟩ | ⟨n, -, -, hcs⟩ | ⟨x, -, hcs⟩ | ⟨hmere, -⟩
  · rw [hcs]
    exact ⟨_, .boolean _ b⟩
  · rw [hcs]
    exact ⟨_, .integer _ n⟩
  · rw [hcs]
    exact ⟨_, .float _ x⟩
  · exact absurd ⟨hmere, fun b w hw hlower => hword ⟨b, w, hw, hlower⟩⟩ h

section Switch

variable {files : Files} {env : Environment} {path : Option String} {file : Entries Value}
  {header : String} {cs : List Char}
  (hfile : fileLayer files (pathUsed env path) = .ok file) (htable : LeavesTable file)
  (hheader : Given IsText standard.header (leftBy file .header) header)
  (htext : ∀ v ∈ env, ¬ Garbled v)
  (honly : ∀ v ∈ env, ∀ n, Names v.1 n → IsBelow (keyOf n) → keyOf n = leafKey .announceAdditions)
  (hlast : env.lastText? (leafKey .announceAdditions) = some cs)

include hfile htable hheader htext honly hlast

theorem load_of_isSwitch {b : Bool} (hb : IsSwitch (Environment.value cs) b) :
    load files env path = .ok ⟨header, b⟩ := by
  rw [load_of_leaf hfile htable htext honly hlast, readBoth_eq_ok_iff, if_pos rfl, given_some_iff]
  exact ⟨hheader, hb⟩

theorem load_of_isNoSwitch (h : IsNoSwitch cs) :
    load files env path = .error (.mistyped (.text (String.ofList (lower cs)))
      (.keyed .announceAdditions) Environment.origin) := by
  have hread := (readAt_eq_ok_iff (fun _ _ => readText_eq_ok_iff) (.keyed .header)).2 hheader
  rw [load_of_leaf hfile htable htext honly hlast, readBoth, if_pos rfl, readAt.eq_2,
    readSwitch_of_isNoSwitch h]
  refine bind_eq_error_iff.2 (.inr ⟨header, hread, rfl⟩)

end Switch

/-- Where variables give the switch alone and the rest can be read, loading fails exactly for a text
that is neither a boolean nor a number nor a word for a switch, and it blames the environment; else
it gives what the text says. -/
theorem load_switch_variable {files : Files} {env : Environment} {path : Option String}
    {file : Entries Value} {header text : String}
    (hfile : fileLayer files (pathUsed env path) = .ok file) (htable : LeavesTable file)
    (hheader : Given IsText standard.header (leftBy file .header) header)
    (htext : ∀ v ∈ env, ¬ Garbled v)
    (honly : ∀ v ∈ env, ∀ n, Names v.1 n → IsBelow (keyOf n) →
      keyOf n = leafKey .announceAdditions)
    (hlast : env.lastText? (leafKey .announceAdditions) = some text.toList) :
    ((∃ found, load files env path =
        .error (.mistyped found (.keyed .announceAdditions) (some "the environment"))) ↔
      IsNoSwitch text.toList) ∧
    (IsNoSwitch text.toList → load files env path =
      .error (.mistyped (.text (String.ofList (lower text.toList))) (.keyed .announceAdditions)
        (some "the environment"))) ∧
    (¬ IsNoSwitch text.toList → ∃ b, load files env path = .ok ⟨header, b⟩) ∧
    (∀ b, ∀ w ∈ wordsFor b, lower text.toList = w.toList → load files env path = .ok ⟨header, b⟩) ∧
    ∀ n, IsNumeral text.toList n → fitsWord n = true →
      load files env path = .ok ⟨header, decide (n ≠ 0)⟩ := by
  have hok := fun {b : Bool} => load_of_isSwitch hfile htable hheader htext honly hlast (b := b)
  have herror := load_of_isNoSwitch hfile htable hheader htext honly hlast
  refine ⟨⟨?_, fun h => ⟨_, herror h⟩⟩, herror, ?_, ?_, ?_⟩
  · rintro ⟨found, hfound⟩
    refine Classical.byContradiction fun h => ?_
    obtain ⟨b, hb⟩ := exists_isSwitch h
    rw [hok hb] at hfound
    cases hfound
  · intro h
    obtain ⟨b, hb⟩ := exists_isSwitch h
    exact ⟨b, hok hb⟩
  · intro b w hw hlower
    exact hok (isSwitch_of_mem_wordsFor hw hlower)
  · intro n hn hfits
    refine hok ?_
    rw [Environment.value, Environment.scalarOfText_of_integer hn hfits]
    exact .integer _ n

/-- A word that is no word for a switch, in mixed case, beside a file whose header is a number. -/
theorem load_switch_variable_perhaps :
    let content := bytesOf "[output]\nheader = 7\n"
    let files := (Files.empty default).write "c.toml" content
    let env : Environment := [(bytesOf "Roster_Output.Announce_Additions", bytesOf "Perhaps")]
    load files env (some "c.toml") =
      .error (.mistyped (.text "perhaps") (.keyed .announceAdditions) (some "the environment")) := by
  intro content files env
  let o : Origin := some "c.toml"
  let file : Entries Value := [("output", .table o [("header", .leaf o (.integer 7))])]
  have hlayer : fileLayer files (pathUsed env (some "c.toml")) = .ok file := by
    decide +kernel
  have hleft : layBelow file standardOutput = .table none
      [("header", .leaf o (.integer 7)), ("announce_additions", .leaf none (.boolean true))] := by
    decide +kernel
  have htable : LeavesTable file := ⟨_, _, (get?_lay_base file).trans (congrArg some hleft)⟩
  have hheader : Given IsText standard.header (leftBy file .header) (toString (7 : Int)) := by
    have hleft : leftBy file .header = some (.leaf o (.integer 7)) := by decide +kernel
    rw [hleft]
    exact .given (.integer o 7)
  have hfound : String.ofList (lower "Perhaps".toList) = "perhaps" := by
    decide +kernel
  have hname : Names (bytesOf "Roster_Output.Announce_Additions")
      "output.announce_additions".toList :=
    ⟨"Roster_Output.Announce_Additions".toList, rfl, by decide +kernel⟩
  have htaken : Environment.scalarOfText "Perhaps".toList = .text "Perhaps" := by
    decide +kernel
  have hno : IsNoSwitch "Perhaps".toList :=
    ⟨Environment.isMere_of_scalarOfText_eq_text htaken, by decide +kernel⟩
  have hlast : env.lastText? (leafKey .announceAdditions) = some "Perhaps".toList := by
    decide +kernel
  rw [← hfound]
  refine (load_switch_variable hlayer htable hheader ?_ ?_ hlast).2.1 hno
  · simp only [env, List.forall_mem_cons, List.not_mem_nil, false_implies, implies_true, and_true]
    exact fun h => h.2 ⟨"Perhaps".toList, rfl⟩
  · simp only [env, List.forall_mem_cons, List.not_mem_nil, false_implies, implies_true, and_true]
    intro n hn _
    rw [hn.unique hname]
    decide +kernel

/-- All variables that count need texts, even those for other keys: one that is garbled makes
loading fail beside another that switches announcements on, and not on the switch. -/
theorem load_switch_garbled :
    let files := Files.empty default
    let env : Environment := [(bytesOf "ROSTER_OUTPUT__ANNOUNCE_ADDITIONS", bytesOf "true"),
      (bytesOf "ROSTER_X", [0xFF])]
    fileLayer files (pathUsed env none) = .ok [] ∧ LeavesTable [] ∧
      Given IsText standard.header (leftBy [] .header) standard.header ∧
      (∀ v ∈ env, ∀ n, Names v.1 n → IsBelow (keyOf n) → keyOf n = leafKey .announceAdditions) ∧
      env.lastText? (leafKey .announceAdditions) = some "true".toList ∧
      load files env none ≠ .ok ⟨standard.header, true⟩ ∧
      load files env none = .error (.undecodable "x" [0xFF]) := by
  intro files env
  have hload : load files env none = .error (.undecodable "x" [0xFF]) := by
    decide +kernel
  have hheader : leftBy [] .header = some (.leaf none (.text standard.header)) := by
    decide +kernel
  have hswitch : Names (bytesOf "ROSTER_OUTPUT__ANNOUNCE_ADDITIONS")
      "output__announce_additions".toList :=
    ⟨"ROSTER_OUTPUT__ANNOUNCE_ADDITIONS".toList, rfl, by decide +kernel⟩
  have hother : Names (bytesOf "ROSTER_X") "x".toList := ⟨"ROSTER_X".toList, rfl, by decide +kernel⟩
  refine ⟨by decide +kernel, ⟨_, _, get?_lay_base []⟩, hheader ▸ .given (.text none _), ?_,
    by decide +kernel, ?_, hload⟩
  · simp only [env, List.forall_mem_cons, List.not_mem_nil, false_implies, implies_true, and_true]
    refine ⟨fun n hn _ => ?_, fun n hn hbelow => ?_⟩
    · rw [hn.unique hswitch]
      decide +kernel
    · rw [hn.unique hother] at hbelow
      exact absurd hbelow (below?_eq_none_iff.1 (by decide +kernel))
  · rw [hload]
    exact fun h => nomatch h

end Enrollment.Settings
