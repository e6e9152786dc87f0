import Enrollment.Proofs.Inert
import Enrollment.Proofs.Lines
import Enrollment.Proofs.Precedence
import Mathlib.Logic.Function.Basic

/-!
# Layouts of the settings

A file can give the two settings below a heading, under dotted keys, in an
inline table, or under quoted keys that are paths, and in either order.  All of
these come to the same: where both settings have values, each layout makes the
same of the settings that were there before (`Form.layBelow_entries`), and where
one of them has none, no layout is a document (`Layout.document?_text`).  So
loading does not depend on the layout (`load_layout`).
-/

namespace Enrollment

namespace Settings

open Toml (Literal KeyText NameText Node Says entryText bracesText)

/-- The setting that is not this one. -/
def Setting.other : Setting → Setting
  | .header => .announceAdditions
  | .announceAdditions => .header

/-! ## How the settings are laid out -/

/-- A way to give the two settings. -/
inductive Form where
  /-- Under their keys below a heading. -/
  | heading
  /-- Under dotted keys. -/
  | dotted
  /-- In an inline table. -/
  | braces
  /-- Under quoted keys that are read as paths. -/
  | quoted

/-- A form, which setting comes first in it, and whether the last line has an end. -/
structure Layout where
  form : Form
  first : Setting
  closed : Bool

/-- The lines that give a setting and then the other. -/
def Form.lines (form : Form) (first : Setting) (given : Setting → Literal) : List (List Char) :=
  let second := first.other
  match form with
  | .heading => ['[' :: ("output".toList ++ [']']),
      entryText first.key.toList (given first).text,
      entryText second.key.toList (given second).text]
  | .dotted => [entryText ("output".toList ++ '.' :: first.key.toList) (given first).text,
      entryText ("output".toList ++ '.' :: second.key.toList) (given second).text]
  | .braces => [entryText "output".toList
      (bracesText (entryText first.key.toList (given first).text)
        (entryText second.key.toList (given second).text))]
  | .quoted => [entryText ('"' :: (leafKey first).toList ++ ['"']) (given first).text,
      entryText ('"' :: (leafKey second).toList ++ ['"']) (given second).text]

/-- Lines with line ends between them, and perhaps one after the last. -/
def joinLines (closed : Bool) : List (List Char) → List Char
  | [] => []
  | [l] => l ++ if closed then ['\n'] else []
  | l :: ls => l ++ '\n' :: joinLines closed ls

/-- The text of a file that gives the settings in a layout. -/
def Layout.text (layout : Layout) (given : Setting → Literal) : List Char :=
  joinLines layout.closed (layout.form.lines layout.first given)

/-! ## What the file says -/

/-- The entries of the document that gives a setting and then the other. -/
def Form.entries (form : Form) (first : Setting) (x y : Scalar) : Entries Node :=
  let second := first.other
  let pair : Entries Node := [(first.key, .leaf .value x), (second.key, .leaf .value y)]
  match form with
  | .heading => [("output", .table .heading pair)]
  | .dotted => [("output", .table .dotted pair)]
  | .braces => [("output", .table .value pair)]
  | .quoted => [(leafKey first, .leaf .value x), (leafKey second, .leaf .value y)]

/-- The statements that give a setting and then the other. -/
def Form.statements (form : Form) (first : Setting) (x y : Scalar) : List Toml.Statement :=
  let second := first.other
  let leaf : Scalar → Node := .leaf .value
  match form with
  | .heading => [.table ⟨[], "output"⟩, .entry ⟨[], first.key⟩ (leaf x),
      .entry ⟨[], second.key⟩ (leaf y)]
  | .dotted => [.entry ⟨["output"], first.key⟩ (leaf x), .entry ⟨["output"], second.key⟩ (leaf y)]
  | .braces => [.entry ⟨[], "output"⟩
      (.table .value [(first.key, leaf x), (second.key, leaf y)])]
  | .quoted => [.entry ⟨[], leafKey first⟩ (leaf x), .entry ⟨[], leafKey second⟩ (leaf y)]

theorem Form.assemble?_statements (form : Form) (first : Setting) (x y : Scalar) :
    Toml.assemble? (form.statements first x y) = some (form.entries first x y) := by
  cases form <;> cases first <;> rfl

theorem nameText_of_all {n : String} (hne : n.toList ≠ [])
    (h : n.toList.all Toml.isBare = true) : NameText n.toList n := by
  have hname := NameText.bare ⟨hne, List.all_eq_true.1 h⟩
  rwa [String.ofList_toList] at hname

theorem nameText_output : NameText "output".toList "output" :=
  nameText_of_all (by decide +kernel) (by decide +kernel)

theorem nameText_key (s : Setting) : NameText s.key.toList s.key := by
  cases s <;> exact nameText_of_all (by decide +kernel) (by decide +kernel)

theorem nameText_leafKey (s : Setting) :
    NameText ('"' :: (leafKey s).toList ++ ['"']) (leafKey s) := by
  have hall : (leafKey s).toList.all
      (fun c => Toml.isTextual c && (c ≠ '"' && c ≠ '\\')) = true := by
    cases s <;> decide +kernel
  have h : ∀ c ∈ (leafKey s).toList, Toml.isTextual c = true ∧ c ≠ '"' ∧ c ≠ '\\' := by
    simpa only [List.all_eq_true, Bool.and_eq_true, decide_eq_true_eq] using hall
  have hname := NameText.plain h
  rwa [String.ofList_toList] at hname

theorem statements?_pair {ks₁ ks₂ : List Char} {k₁ k₂ : Toml.Key} (h₁ : KeyText ks₁ k₁)
    (h₂ : KeyText ks₂ k₂) (l₁ l₂ : Literal) {last : List Char} (hlast : Toml.EndsLine last []) :
    Toml.statements? (entryText ks₁ l₁.text ++ '\n' :: (entryText ks₂ l₂.text ++ last)) =
      l₁.value?.bind fun x => l₂.value?.map fun y =>
        [.entry k₁ (.leaf .value x), .entry k₂ (.leaf .value y)] := by
  rw [(Says.literal h₁ l₁).statements?_append (.newline _),
    (Says.literal h₂ l₂).statements?_append hlast, Toml.statements?_nil]
  cases l₁.value? with
  | none => rfl
  | some x => cases l₂.value? <;> rfl

theorem endsLine_last (closed : Bool) : Toml.EndsLine (if closed then ['\n'] else []) [] := by
  cases closed with
  | true => exact .newline []
  | false => exact .document

theorem exists_joinLines_cons (closed : Bool) (l : List Char) (ls : List (List Char)) :
    ∃ r, joinLines closed (l :: ls) = l ++ r ∧ Toml.EndsLine r (joinLines closed ls) := by
  cases ls with
  | nil => exact ⟨_, rfl, endsLine_last closed⟩
  | cons m ls => exact ⟨_, rfl, .newline _⟩

/-- A text that begins with an ASCII character has no mark in front, neither as bytes nor as
characters. -/
theorem documentIn?_encode_ascii {cs : List Char} (h : ∃ c s, cs = c :: s ∧ c.toNat ≤ 0x7F) :
    documentIn? (Utf8.encode cs) = (Toml.statements? cs).bind Toml.assemble? := by
  obtain ⟨c, s, rfl, hc⟩ := h
  rw [documentIn?_encode hc, Toml.document?, Toml.skipMark_of_ascii hc]

namespace Layout

variable (given : Setting → Literal)

/-- A layout has its statements if both settings have values, and no others if one has none. -/
theorem statements?_text (form : Form) (first : Setting) (closed : Bool) :
    Toml.statements? (joinLines closed (form.lines first given)) =
      (given first).value?.bind fun x => (given first.other).value?.map fun y =>
        form.statements first x y := by
  have hlast := endsLine_last closed
  have houtput : KeyText "output".toList ⟨[], "output"⟩ := .single nameText_output
  have hkey : ∀ s : Setting, KeyText s.key.toList ⟨[], s.key⟩ := fun s => .single (nameText_key s)
  cases form with
  | heading =>
    have hpair := statements?_pair (hkey first) (hkey first.other) (given first)
      (given first.other) hlast
    have hsplit : joinLines closed (Form.heading.lines first given) =
        '[' :: ("output".toList ++ [']']) ++ '\n' :: (entryText first.key.toList (given first).text ++
          '\n' :: (entryText first.other.key.toList (given first.other).text ++
            if closed then ['\n'] else [])) := rfl
    rw [hsplit, (Says.heading houtput).statements?_append (.newline _), hpair]
    cases (given first).value? with
    | none => rfl
    | some x => cases (given first.other).value? <;> rfl
  | dotted =>
    exact statements?_pair (.double nameText_output (nameText_key first))
      (.double nameText_output (nameText_key first.other)) _ _ hlast
  | braces =>
    have hsays := Says.braces houtput (hkey first) (hkey first.other) (given first)
      (given first.other)
    have hsplit : joinLines closed (Form.braces.lines first given) =
        entryText "output".toList (bracesText (entryText first.key.toList (given first).text)
          (entryText first.other.key.toList (given first.other).text)) ++
            if closed then ['\n'] else [] := rfl
    rw [hsplit, hsays.statements?_append hlast, Toml.statements?_nil]
    cases (given first).value? with
    | none => rfl
    | some x => cases (given first.other).value? <;> cases first <;> rfl
  | quoted =>
    exact statements?_pair (.single (nameText_leafKey first))
      (.single (nameText_leafKey first.other)) _ _ hlast

theorem text_exists_cons (layout : Layout) :
    ∃ c s, layout.text given = c :: s ∧ c.toNat ≤ 0x7F := by
  obtain ⟨form, first, closed⟩ := layout
  obtain ⟨c, s, hs, hc⟩ := nameText_output.exists_cons
  have hascii := Toml.toNat_le_of_isOpening hc
  cases form with
  | heading => exact ⟨'[', _, rfl, by decide⟩
  | dotted =>
    rw [text, Form.lines, hs]
    exact ⟨c, _, rfl, hascii⟩
  | braces =>
    rw [text, Form.lines, hs]
    exact ⟨c, _, rfl, hascii⟩
  | quoted => exact ⟨'"', _, rfl, by decide⟩

/-- A layout is a document if both settings have values, and none if one has none. -/
theorem document?_text (layout : Layout) :
    Toml.document? (layout.text given) = (given layout.first).value?.bind fun x =>
      (given layout.first.other).value?.map fun y => layout.form.entries layout.first x y := by
  obtain ⟨c, s, hs, hc⟩ := text_exists_cons given layout
  rw [Toml.document?, hs, Toml.skipMark_of_ascii hc, ← hs, Layout.text, statements?_text]
  cases (given layout.first).value? with
  | none => rfl
  | some x =>
    cases (given layout.first.other).value? with
    | none => rfl
    | some y => exact Form.assemble?_statements _ _ x y

example :
    let given : Setting → Literal := fun
      | .header => .word ['7'] (.unbroken nofun (List.all_eq_true.1 rfl))
      | .announceAdditions => .word ['n', 'o'] (.unbroken nofun (List.all_eq_true.1 rfl))
    (⟨.heading, .header, true⟩ : Layout).text given =
        "[output]\nheader = 7\nannounce_additions = no\n".toList ∧
      (⟨.dotted, .announceAdditions, false⟩ : Layout).text given =
        "output.announce_additions = no\noutput.header = 7".toList ∧
      (⟨.braces, .header, true⟩ : Layout).text given =
        "output = \x7bheader = 7, announce_additions = no\x7d\n".toList ∧
      (⟨.quoted, .header, true⟩ : Layout).text given =
        "\"output.header\" = 7\n\"output.announce_additions\" = no\n".toList := by
  decide +kernel

end Layout

/-! ## What becomes of the settings -/

/-- The settings with values from one origin. -/
def givenOutput (o : Origin) (value : Setting → Scalar) : Value :=
  .table none [("header", .leaf o (value .header)),
    ("announce_additions", .leaf o (value .announceAdditions))]

/-- A file that gives both settings leaves nothing of the standard ones. -/
theorem Form.layBelow_entries (form : Form) (o : Origin) (first : Setting)
    (value : Setting → Scalar) :
    layBelow (Tree.renoteEntries o (form.entries first (value first) (value first.other)))
      standardOutput = givenOutput o value := by
  have htable : ∀ making : Toml.Making, layBelow (Tree.renoteEntries o [("output",
      .table making [(first.key, .leaf .value (value first)),
        (first.other.key, .leaf .value (value first.other))])]) standardOutput =
      givenOutput o value := by
    intro making
    refine (layBelow_cons_of_some below?_output _ [] _).trans ?_
    cases first <;> rfl
  cases form with
  | heading => exact htable .heading
  | dotted => exact htable .dotted
  | braces => exact htable .value
  | quoted =>
    refine (layBelow_cons_of_some (below?_leafKey first) _ [_] _).trans ?_
    refine (layBelow_cons_of_some (below?_leafKey first.other) _ [] _).trans ?_
    cases first <;> rfl

/-- The bytes of a file that gives the settings in a layout. -/
def Layout.content (layout : Layout) (given : Setting → Literal) : Bytes :=
  Utf8.encode (layout.text given)

theorem Layout.documentIn?_content (layout : Layout) (given : Setting → Literal) :
    documentIn? (layout.content given) = Toml.document? (layout.text given) := by
  obtain ⟨c, s, hs, hc⟩ := text_exists_cons given layout
  rw [content, hs, documentIn?_encode hc]

section Load

variable {files : Files} {env : Environment} {path : Option String} {layout : Layout}
  {given : Setting → Literal} {p : String}
  (hs : source? files (pathUsed env path) = some ⟨p, layout.content given⟩)

include hs

/-- A file that gives both settings takes the place of the standard ones. -/
theorem load_of_values {value : Setting → Scalar}
    (hvalue : ∀ s, (given s).value? = some (value s)) :
    load files env path = env.layer >>= fun environment =>
      read .header (layBelow environment (givenOutput (some p) value)) := by
  have hdocument := (layout.documentIn?_content given).trans (layout.document?_text given)
  rw [hvalue, hvalue, Option.bind_some, Option.map_some] at hdocument
  have hfile := fileLayer_of_documentIn? hs hdocument
  cases henv : env.layer with
  | error f => exact load_of_layer_eq_error hfile henv
  | ok environment =>
    rw [load_eq_read hfile henv, Form.layBelow_entries]
    rfl

/-- A file that gives a setting without a value is no document. -/
theorem load_of_value?_eq_none {s : Setting} (hnone : (given s).value? = none) :
    load files env path = .error (.unparsed p) := by
  have hdocument := (layout.documentIn?_content given).trans (layout.document?_text given)
  have hfirst : layout.first = s ∨ layout.first.other = s := by
    cases layout.first <;> cases s <;> decide
  have hempty : documentIn? (layout.content given) = none := by
    rw [hdocument]
    rcases hfirst with h | h
    · rw [h, hnone]
      rfl
    · rw [h, hnone]
      cases (given layout.first).value? <;> rfl
  exact load_of_documentIn?_eq_none hs hempty

end Load

/-- What is found does not depend on the content at a place, or it is that content. -/
theorem source?_write_cases (files : Files) (place path : String) :
    (∃ s, ∀ content, source? (files.write place content) path = s) ∨
      ∀ content, source? (files.write place content) path =
        some ⟨nameOf files.workingDirectory place, content⟩ := by
  let full (p : String) : List Char := files.workingDirectory.full p.toList
  have hplace : ∀ {q}, full q = full place → ∀ content,
      sourceAt? (files.write place content) q =
        some ⟨nameOf files.workingDirectory place, content⟩ := by
    intro q hq content
    have hfound : (files.write place content) q = some content := if_pos hq
    have hname : nameOf files.workingDirectory q = nameOf files.workingDirectory place :=
      congrArg (fun p => String.ofList (Path.ofComponents false (Path.way _ (Path.components p)))) hq
    rw [sourceAt?, hfound, Option.map_some, ← hname]
    rfl
  have helse : ∀ {q}, full q ≠ full place → ∀ content,
      sourceAt? (files.write place content) q = sourceAt? files q := by
    intro q hq content
    have hfound : (files.write place content) q = files q := if_neg hq
    rw [sourceAt?, hfound]
    rfl
  have hsource : ∀ content, source? (files.write place content) path =
      (sourceAt? (files.write place content) path).or
        ((secondPath? files.workingDirectory path).bind (sourceAt? (files.write place content))) :=
    fun _ => rfl
  -- The place is the path itself, or the one tried after it, or it is not looked at.
  by_cases hpath : full path = full place
  · refine .inr fun content => ?_
    rw [source?, hplace hpath, Option.some_or]
  cases hfirst : sourceAt? files path with
  | some s =>
    refine .inl ⟨some s, fun content => ?_⟩
    rw [source?, helse hpath, hfirst, Option.some_or]
  | none =>
    cases hsecond : secondPath? files.workingDirectory path with
    | none =>
      refine .inl ⟨none, fun content => ?_⟩
      rw [hsource, helse hpath, hfirst, hsecond]
      rfl
    | some q =>
      by_cases hq : full q = full place
      · refine .inr fun content => ?_
        rw [hsource, helse hpath, hfirst, hsecond, Option.none_or, Option.bind_some, hplace hq]
      · refine .inl ⟨sourceAt? files q, fun content => ?_⟩
        rw [hsource, helse hpath, hfirst, hsecond, Option.none_or, Option.bind_some, helse hq]

/-- Files that differ only in how one of them lays out the settings are loaded alike. -/
theorem load_layout (files : Files) (env : Environment) (path : Option String) (place : String)
    (given : Setting → Literal) (layout₁ layout₂ : Layout) :
    load (files.write place (layout₁.content given)) env path =
      load (files.write place (layout₂.content given)) env path := by
  obtain ⟨s, hs⟩ | hs := source?_write_cases files place (pathUsed env path)
  · exact load_eq_of_source?_eq ((hs _).trans (hs _).symm)
  · -- The literals alone decide whether there is a document at all.
    by_cases h : ∀ s, ∃ x, (given s).value? = some x
    · obtain ⟨value, hvalue⟩ := Classical.axiomOfChoice h
      rw [load_of_values (hs _) hvalue, load_of_values (hs _) hvalue]
    · obtain ⟨s, hnone⟩ := not_forall.1 h
      rw [← Option.isSome_iff_exists, Option.not_isSome_iff_eq_none] at hnone
      rw [load_of_value?_eq_none (hs _) hnone, load_of_value?_eq_none (hs _) hnone]

end Settings

end Enrollment
