import Enrollment.Proofs.Enclosure
import Enrollment.Proofs.IdleLines
import Enrollment.Proofs.Layout
import Enrollment.Proofs.SimpleText

/-!
# Room around the settings

Lines that say nothing may stand above, between and below those that give the
settings, and blanks and comments may stand on these.  A heading and an entry are
taken whatever blanks stand in them (`States.heading`, `States.entry`), and with
all that is around it each gives its statement and nothing more
(`States.statements?_around`).  So the statements of a file do not depend on its
spacing (`Spacing.statements?_text`), and neither does what is loaded
(`load_spacing`).
-/

namespace Enrollment

namespace Toml

open Enrollment.Parser

/-! ## Values -/

/-- A simple value as it is written: one of a common form, which may come to nothing, or any other
that can be read. -/
inductive ScalarText where
  | formed (l : Literal)
  | readable (s : List Char) (x : Scalar) (h : SimpleText s x)

namespace ScalarText

def text : ScalarText → List Char
  | formed l => l.text
  | readable s _ _ => s

/-- The value that is written, if there is one. -/
def value? : ScalarText → Option Scalar
  | formed l => l.value?
  | readable _ x _ => some x

variable (v : ScalarText)

theorem exists_cons : ∃ c s, v.text = c :: s ∧ isOpening c = true := by
  cases v with
  | formed l => exact l.exists_cons
  | readable s x h => exact h.exists_cons

theorem value_run {r : List Char} (hr : Ends r) (depth : Nat) :
    (value depth).run (v.text ++ r) = v.value?.map fun x => (.leaf .value x, r) := by
  cases v with
  | formed l => exact l.value_run hr depth
  | readable s x h => exact h.value_run hr depth

theorem takes (depth : Nat) : Takes (value depth) v.text (v.value?.map (.leaf .value)) := by
  refine .of_isOpening v.exists_cons fun hr => ?_
  rw [v.value_run hr, Option.map_map]
  rfl

end ScalarText

/-! ## Lines -/

/-- A text makes a statement, or none can be taken from it, whatever trail comes after it. -/
structure States (l : List Char) (st : Option Statement) : Prop where
  exists_cons : ∃ c s, l = c :: s ∧ isSolid c = true
  statement_run : ∀ {r}, Ends r → statement.run (l ++ r) = st.map fun st => (st, r)

namespace States

theorem heading {ks : List Char} {k : Key} (hk : KeyText ks k) (left right : Blanks) :
    States (spacedHeading left right ks) (some (.table k)) :=
  ⟨⟨'[', _, rfl, rfl⟩, fun {r} _ => statement_run_heading hk left right r⟩

theorem entry {ks : List Char} {k : Key} (hk : KeyText ks k) (v : ScalarText)
    (left right : Blanks) : States (spacedEntry left right ks v.text)
      (v.value?.map fun x => .entry k (.leaf .value x)) := by
  obtain ⟨d, ds, hds, hd⟩ := hk.exists_cons
  refine ⟨⟨d, _, congrArg (· ++ _) hds, isSolid_of_isOpening hd⟩, fun {r} hr => ?_⟩
  rw [statement_run_entry hk left right (exists_cons_isSolid v.exists_cons)
    ((v.takes maxDepth).run hr), Option.map_map, Option.map_map]
  rfl

variable {l r u : List Char} {st : Option Statement}

theorem line_run (h : States l st) (indent : Blanks) (t : Trail) (hr : EndsLine r u) :
    line.run (indent.text ++ (l ++ (t.text ++ r))) = st.map fun st => (some st, u) := by
  obtain ⟨c, s, hs, hc⟩ := h.exists_cons
  have hrun := h.statement_run (t.ends hr)
  have hskip : skipBlanks (indent.text ++ (l ++ (t.text ++ r))) = l ++ (t.text ++ r) := by
    rw [indent.skipBlanks_append, hs]
    exact skipBlanks_of_isSolid hc _
  cases hall : indent.text ++ (l ++ (t.text ++ r)) with
  | nil =>
    rw [hs] at hall
    cases (List.append_eq_nil_iff.1 hall).2
  | cons d ds =>
    rw [hall] at hskip
    simp only [line, hskip, statementIn, hrun]
    cases st with
    | none =>
      rw [hs]
      simp only [Option.map_none, List.cons_append, skipLineEnd_of_isSolid hc,
        newline_run_of_isSolid hc]
    | some st =>
      simp only [Option.map_some, t.skipLineEnd_append hr]
      cases hr <;> rfl

end States

/-! ## Room for a line -/

/-- What may stand around a line that says something: lines above it that say nothing, blanks before
it and in it, and what comes after it. -/
structure Room where
  above : List (Trail × Break)
  indent : Blanks
  left : Blanks
  right : Blanks
  trail : Trail

/-- A line with the room around it, but for the blanks in it. -/
def Room.around (room : Room) (l : List Char) : List Char :=
  fillText room.above ++ (room.indent.text ++ (l ++ room.trail.text))

theorem States.statements?_around {l r u : List Char} {st : Option Statement} (h : States l st)
    (room : Room) (hr : EndsLine r u) :
    statements? (room.around l ++ r) = st.bind fun st => (statements? u).map (st :: ·) := by
  have hne : room.indent.text ++ (l ++ (room.trail.text ++ r)) ≠ [] := by
    obtain ⟨c, s, rfl, -⟩ := h.exists_cons
    exact List.append_ne_nil_of_right_ne_nil _ (List.cons_ne_nil _ _)
  have hline := statements?_of_line_run hne (h.line_run room.indent room.trail hr)
  rw [Room.around, List.append_assoc, statements?_append_fill, List.append_assoc, List.append_assoc,
    hline]

end Toml

namespace Settings

open Toml (Blanks Break EndsLine KeyText Room ScalarText States Trail entryText spacedEntry
  spacedHeading)

/-! ## The three lines -/

/-- The room around the heading and the entries of the two settings, how the lines end, and what
comes after the last: nothing, or its end and then lines that say nothing. -/
structure Spacing where
  heading : Room
  header : Room
  announceAdditions : Room
  first : Break
  second : Break
  ending : Option (Break × List (Trail × Break) × Trail)

namespace Spacing

/-- What comes after the last entry. -/
def endText (spacing : Spacing) : List Char :=
  spacing.ending.elim [] fun (b, ls, t) => b.text ++ (Toml.fillText ls ++ t.text)

/-- The text of a file that gives the two settings below their heading. -/
def text (spacing : Spacing) (given : Setting → ScalarText) : List Char :=
  let entry (room : Room) (s : Setting) :=
    room.around (spacedEntry room.left room.right s.key.toList (given s).text)
  spacing.heading.around
      (spacedHeading spacing.heading.left spacing.heading.right "output".toList) ++
    (spacing.first.text ++ (entry spacing.header .header ++
      (spacing.second.text ++ (entry spacing.announceAdditions .announceAdditions ++
        spacing.endText))))

/-- The bytes of a file that gives the two settings below their heading. -/
def content (spacing : Spacing) (given : Setting → ScalarText) : Bytes :=
  Utf8.encode (spacing.text given)

variable (spacing : Spacing) (given : Setting → ScalarText)

theorem exists_endsLine_endText :
    ∃ u, EndsLine spacing.endText u ∧ Toml.statements? u = some [] := by
  unfold endText
  cases spacing.ending with
  | none => exact ⟨[], .document, Toml.statements?_nil⟩
  | some ending =>
    obtain ⟨b, ls, t⟩ := ending
    refine ⟨_, b.endsLine _, ?_⟩
    have htrail := t.statements?_append .document
    rw [List.append_nil] at htrail
    rw [Toml.statements?_append_fill, htrail, Toml.statements?_nil]

/-- What the lines say depends on nothing but the values. -/
theorem statements?_text : Toml.statements? (spacing.text given) =
    (given .header).value?.bind fun x => (given .announceAdditions).value?.map fun y =>
      Form.heading.statements .header x y := by
  have hkey (s : Setting) : KeyText s.key.toList ⟨[], s.key⟩ := .single (nameText_key s)
  have hheading := States.heading (.single nameText_output) spacing.heading.left
    spacing.heading.right
  have hentry (room : Room) (s : Setting) := States.entry (hkey s) (given s) room.left room.right
  obtain ⟨u, hends, hnone⟩ := spacing.exists_endsLine_endText
  rw [text, hheading.statements?_around _ (spacing.first.endsLine _),
    (hentry _ _).statements?_around _ (spacing.second.endsLine _),
    (hentry _ _).statements?_around _ hends, hnone]
  cases (given .header).value? with
  | none => rfl
  | some x => cases (given .announceAdditions).value? <;> rfl

theorem text_exists_cons : ∃ c s, spacing.text given = c :: s ∧ c.toNat ≤ 0x7F := by
  rw [text, Room.around, List.append_assoc, List.append_assoc]
  refine Toml.exists_fillText_append ?_ _
  obtain ⟨_ | ⟨b, bs⟩, hblank⟩ := spacing.heading.indent
  · exact ⟨'[', _, rfl, by decide⟩
  · have hsolid := Toml.isSolid_eq_false_of_isBlank (hblank b List.mem_cons_self)
    exact ⟨b, _, rfl, Toml.toNat_le_of_not_isSolid hsolid⟩

theorem documentIn?_content : documentIn? (spacing.content given) =
    (given .header).value?.bind fun x => (given .announceAdditions).value?.map fun y =>
      Form.heading.entries .header x y := by
  rw [content, documentIn?_encode_ascii (spacing.text_exists_cons given), statements?_text]
  cases (given .header).value? with
  | none => rfl
  | some x =>
    cases (given .announceAdditions).value? with
    | none => rfl
    | some y => exact Form.heading.assemble?_statements .header x y

end Spacing

/-- The text of a file that gives the two settings below their heading and holds nothing else. -/
def plainText (given : Setting → ScalarText) : List Char :=
  joinLines true [Toml.headingText "output".toList,
    entryText "header".toList (given .header).text,
    entryText "announce_additions".toList (given .announceAdditions).text]

/-- No more room than the signs of the entries have on either side. -/
def Spacing.least : Spacing where
  heading := ⟨[], .empty, .empty, .empty, ⟨.empty, none⟩⟩
  header := ⟨[], .empty, .single, .single, ⟨.empty, none⟩⟩
  announceAdditions := ⟨[], .empty, .single, .single, ⟨.empty, none⟩⟩
  first := .lf
  second := .lf
  ending := some (.lf, [], ⟨.empty, none⟩)

theorem Spacing.text_least (given : Setting → ScalarText) :
    Spacing.least.text given = plainText given := by
  simp only [text, least, Room.around, endText, Toml.fillText, Trail.text, Trail.remarkText,
    Blanks.empty, Blanks.single, Break.text, spacedHeading, spacedEntry, plainText, joinLines,
    Toml.headingText, entryText, Setting.key, List.flatMap_nil, List.nil_append, List.append_nil,
    Option.elim_none, Option.elim_some, List.cons_append, List.append_assoc, if_true]

/-! ## Loading -/

/-- Contents that are the same document are loaded alike. -/
theorem load_write_of_documentIn?_eq (files : Files) (env : Environment) (path : Option String)
    (place : String) {content₁ content₂ : Bytes}
    (h : documentIn? content₁ = documentIn? content₂) :
    load (files.write place content₁) env path =
      load (files.write place content₂) env path := by
  obtain ⟨s, hs⟩ | hs := source?_write_cases files place (pathUsed env path)
  · exact load_eq_of_source?_eq ((hs _).trans (hs _).symm)
  · have hlayer (p : String) : (⟨p, content₁⟩ : Source).layer = (⟨p, content₂⟩ : Source).layer := by
      cases hdocument : documentIn? content₂ with
      | none => rw [Source.layer_eq_error (h.trans hdocument), Source.layer_eq_error hdocument]
      | some doc => rw [Source.layer_eq_ok (h.trans hdocument), Source.layer_eq_ok hdocument]
    apply load_eq_of_fileLayer_eq
    rw [fileLayer, fileLayer, hs, hs]
    exact hlayer _

/-- Lines that say nothing, blanks, comments and the ends of lines change nothing in what is loaded,
also where loading fails. -/
theorem load_spacing (files : Files) (env : Environment) (path : Option String) (place : String)
    (given : Setting → ScalarText) (spacing : Spacing) :
    load (files.write place (spacing.content given)) env path =
      load (files.write place (Utf8.encode (plainText given))) env path := by
  apply load_write_of_documentIn?_eq
  rw [← Spacing.text_least, ← Spacing.content, Spacing.documentIn?_content,
    Spacing.documentIn?_content]

example :
    let blanks (n : Nat) : Blanks := ⟨List.replicate n '\t', fun c hc => by
      rw [List.eq_of_mem_replicate hc]; rfl⟩
    let remark : Trail := ⟨.single, some ⟨['é'], List.all_eq_true.1 rfl⟩⟩
    let spacing : Spacing := {
      heading := ⟨[(⟨blanks 2, none⟩, .crlf), (remark, .lf)], .single, blanks 1, .single, remark⟩
      header := ⟨[], .empty, .empty, blanks 1, ⟨.single, none⟩⟩
      announceAdditions := ⟨[(⟨.empty, none⟩, .lf)], blanks 1, .single, .empty, remark⟩
      first := .crlf
      second := .lf
      ending := some (.crlf, [(remark, .lf)], remark) }
    let given : Setting → ScalarText := fun
      | .header => .readable "\"\"\"a\"\"\"".toList (.text "a") (by decide +kernel)
      | .announceAdditions => .formed (.word ['9'] (.unbroken nofun (List.all_eq_true.1 rfl)))
    spacing.text given = ("\t\t\r\n #é\n [\toutput ] #é\r\nheader=\t\"\"\"a\"\"\" \n\n" ++
        "\tannounce_additions =9 #é\r\n #é\n #é").toList ∧
      plainText given = "[output]\nheader = \"\"\"a\"\"\"\nannounce_additions = 9\n".toList := by
  decide +kernel

end Settings

end Enrollment
