import Enrollment.Proofs.Precedence
import Enrollment.Proofs.Stages

/-!
# Settings given as a list

A file may give the settings as a list: the header comes first, the switch
second.  A list does not merge into what it is laid over but takes its place
(`layBelow_list`), so the settings that loading begins with are gone, and where
an item is missing the standard comes from the reading alone.  The two agree:
the document that loading begins with reads as the standard settings
(`base_eq_lay_standardText`).
-/

namespace Enrollment.Settings

open Value
open Environment (Garbled Names keyOf)

/-! ## The standard settings as a document -/

/-- The document that the tree which gathering begins with is written as. -/
def standardText : String :=
  "\n[output]\nheader             = \"All Students:\"\nannounce_additions = true\n"

theorem document?_standardText : Toml.document? standardText.toList =
    some [("output", .table .heading [("header", .leaf .value (.text "All Students:")),
      ("announce_additions", .leaf .value (.boolean true))])] := by
  decide +kernel

/-- Gathering begins with what the standard document gives an empty tree. -/
theorem base_eq_lay_standardText : (Toml.document? standardText.toList).map
    (fun es => Value.lay (Tree.renoteEntries none es) (.table none [])) = some base := by
  rw [document?_standardText]
  decide +kernel

theorem ofGathered_base (first : Setting) : ofGathered first base = .ok standard := by
  cases first <;> rfl

/-! ## A list in place of a table -/

/-- The file gives the settings as a list of these items, and neither it nor the environment says
anything else about them. -/
structure ListAlone (files : Files) (env : Environment) (path : Option String)
    (items : List Value) : Prop where
  file : ∃ es o, fileLayer files (pathUsed env path) = .ok es ∧
    Entries.get? "output" es = some (.list o items) ∧ ∀ e ∈ es, IsBelow e.1 → e.1 = "output"
  text : ∀ v ∈ env, ¬ Garbled v
  beside : ∀ v ∈ env, ∀ n, Names v.1 n → ¬ IsBelow (keyOf n)

/-- A list under the key `output` takes the place of what was there. -/
theorem layBelow_list {es : Entries Value} {o : Origin} {items : List Value}
    (hes : (Entries.keys es).Nodup) (hget : Entries.get? "output" es = some (.list o items))
    (honly : ∀ e ∈ es, IsBelow e.1 → e.1 = "output") (v : Value) :
    layBelow es v = .list o items := by
  rw [layBelow_of_only hes honly, hget, Option.map_some, Option.getD_some, merge]

section

variable {files : Files} {env : Environment} {path : Option String} {items : List Value}

/-- Loading reads the items by their places. -/
theorem load_eq_readBoth (h : ListAlone files env path items) :
    load files env path = readBoth .header .listed fun s => items[s.index]? := by
  obtain ⟨es, o, hfile, hget, honly⟩ := h.file
  have hkeys := (distinct_of_fileLayer_eq_ok hfile).keys
  rw [load_of_beside hfile h.text h.beside, layBelow_list hkeys hget honly, read]

theorem exists_given_iff {α : Type} {R : Value → α → Prop} (standard : α) {v : Option Value} :
    (∃ a, Given R standard v a) ↔ ∀ w, v = some w → ∃ a, R w a := by
  constructor
  · rintro ⟨a, h⟩ w rfl
    exact ⟨a, given_some_iff.1 h⟩
  · intro h
    cases v with
    | none => exact ⟨standard, .missing⟩
    | some w =>
      obtain ⟨a, ha⟩ := h w rfl
      exact ⟨a, .given ha⟩

/-- The places of the settings are the first two. -/
theorem getElem?_index_take (s : Setting) (items : List Value) :
    (items.take 2)[s.index]? = items[s.index]? := by
  cases s <;> exact List.getElem?_take_of_lt (by decide)

end

/-- What loading makes of settings that are given as a list, and what it makes of none. -/
structure LoadsItems (files : Files) (env : Environment) (path : Option String)
    (items : List Value) : Prop where
  /-- Each setting is what the item at its place is read as, or its standard if there is none. -/
  loads : ∀ settings, load files env path = .ok settings ↔
    Given IsText standard.header items[0]? settings.header ∧
    Given IsSwitch standard.announceAdditions items[1]? settings.announceAdditions
  /-- Loading succeeds exactly if the items at these places can be read. -/
  succeeds : (∃ settings, load files env path = .ok settings) ↔
    (∀ v, items[0]? = some v → ∃ t, IsText v t) ∧ ∀ v, items[1]? = some v → ∃ b, IsSwitch v b
  /-- Items from the third on do not matter, nor does what else the file and the environment
  hold. -/
  further : ∀ files' env' path' items', ListAlone files' env' path' items' →
    items'.take 2 = items.take 2 → load files' env' path' = load files env path
  /-- The standard that stands for a missing item is what the standard document gives. -/
  standard : ∀ first, (Toml.document? standardText.toList).map
    (fun es => ofGathered first (Value.lay (Tree.renoteEntries none es) (.table none []))) =
      some (.ok standard)

/-- Settings that a file gives as a list are taken from it by place. -/
theorem load_list {files : Files} {env : Environment} {path : Option String} {items : List Value}
    (h : ListAlone files env path items) : LoadsItems files env path items := by
  have hloads : ∀ settings, load files env path = .ok settings ↔
      Given IsText standard.header items[0]? settings.header ∧
      Given IsSwitch standard.announceAdditions items[1]? settings.announceAdditions := by
    intro settings
    rw [load_eq_readBoth h, readBoth_eq_ok_iff]
    rfl
  refine ⟨hloads, ?_, fun files' env' path' items' h' htake => ?_, fun first => ?_⟩
  · rw [exists_congr hloads, ← exists_given_iff standard.header,
      ← exists_given_iff standard.announceAdditions]
    constructor
    · rintro ⟨settings, hheader, hannounce⟩
      exact ⟨⟨_, hheader⟩, _, hannounce⟩
    · rintro ⟨⟨header, hheader⟩, announce, hannounce⟩
      exact ⟨⟨header, announce⟩, hheader, hannounce⟩
  · rw [load_eq_readBoth h, load_eq_readBoth h']
    refine congrArg (readBoth .header .listed) (funext fun s => ?_)
    rw [← getElem?_index_take, htake, getElem?_index_take]
  · have hbase := congrArg (Option.map (ofGathered first)) base_eq_lay_standardText
    rw [Option.map_map, Option.map_some, ofGathered_base] at hbase
    exact hbase

/-- A number and a word are read by place, beside two items more, a key that only looks like a place
under `output`, and a variable for another key. -/
theorem load_list_four_items :
    let content := bytesOf "output = [7, \"Off\", \x7b\x7d, [[]]]\n\"output x\" = 1\n"
    let files := (Files.empty default).write "c.toml" content
    let env : Environment := [(bytesOf "ROSTER_X", bytesOf "1")]
    load files env (some "c.toml") = .ok ⟨"7", false⟩ := by
  intro content files env
  let o : Origin := some "c.toml"
  let items : List Value :=
    [.leaf o (.integer 7), .leaf o (.text "Off"), .table o [], .list o [.list o []]]
  have hfile : fileLayer files (pathUsed env (some "c.toml")) =
      .ok [("output", .list o items), ("output x", .leaf o (.integer 1))] := by
    decide +kernel
  have honly : ∀ e ∈ [("output", Tree.list o items), ("output x", .leaf o (.integer 1))],
      IsBelow e.1 → e.1 = "output" := by
    intro e he hbelow
    rcases List.mem_cons.1 he with rfl | he
    · rfl
    · rw [List.mem_singleton.1 he] at hbelow
      exact absurd hbelow (below?_eq_none_iff.1 (by decide +kernel))
  have hx : Names (bytesOf "ROSTER_X") "x".toList := ⟨"ROSTER_X".toList, rfl, by decide +kernel⟩
  have halone : ListAlone files env (some "c.toml") items := by
    refine ⟨⟨_, o, hfile, rfl, honly⟩, ?_, ?_⟩
    · rintro v hv ⟨-, hgarbled⟩
      rw [List.mem_singleton.1 hv] at hgarbled
      exact hgarbled ⟨"1".toList, rfl⟩
    · exact List.forall_mem_singleton.2 (not_isBelow_of_names hx (by decide +kernel))
  have hoff : IsSwitch (.leaf o (.text "Off")) false := .off o (by decide +kernel)
  exact ((load_list halone).loads _).2 ⟨.given (.integer o 7), .given hoff⟩

end Enrollment.Settings
