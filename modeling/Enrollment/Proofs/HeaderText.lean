import Enrollment.Proofs.Inert
import Enrollment.Proofs.Lines

/-!
# Every text as a header

A file that gives the header in quotation marks, and nothing else, gives exactly
the text that was quoted.  Its two lines are a heading and an entry with a
quotation, so it is a document of one table with one entry
(`document?_section`).  The bytes of the file are those of its text, and an
environment that says nothing about the settings leaves them as the file has
them (`load_quoted_header`).
-/

namespace Enrollment

namespace Toml

theorem Quotes.exists_cons {cs quoted : List Char} (h : Quotes cs quoted) :
    ∃ c s, quoted = c :: s ∧ isSolid c = true := by
  cases h <;> exact ⟨_, _, rfl, rfl⟩

theorem Quotes.says {cs quoted ks : List Char} {k : Key} (h : Quotes cs quoted)
    (hk : KeyText ks k) : Says (entryText ks quoted)
      (some (.entry k (.leaf .value (.text (String.ofList cs))))) := by
  refine Says.entry hk (v := some _) h.exists_cons fun {r t} hr => ?_
  exact h.value_run (hr.ends.head?_ne rfl) (hr.ends.head?_ne rfl) maxDepth

/-- A heading and below it a text under a name make a document of one table with one entry. -/
theorem document?_section {table name cs quoted : List Char} (htable : IsBareName table)
    (hname : IsBareName name) (h : Quotes cs quoted) :
    document? ('[' :: (table ++ ']' :: '\n' :: (name ++ ' ' :: '=' :: ' ' :: (quoted ++ ['\n'])))) =
      some [(String.ofList table,
        .table .heading [(String.ofList name, .leaf .value (.text (String.ofList cs)))])] := by
  have hsplit : '[' :: (table ++ ']' :: '\n' :: (name ++ ' ' :: '=' :: ' ' :: (quoted ++ ['\n']))) =
      '[' :: (table ++ [']']) ++ '\n' :: (entryText name quoted ++ ['\n']) := by
    simp only [entryText, List.cons_append, List.append_assoc, List.nil_append]
  have hheading := Says.heading (.single (.bare htable))
  have hentry := h.says (.single (.bare hname))
  have hmark : ∀ s, skipMark ('[' :: s) = '[' :: s := fun _ => rfl
  rw [document?, hmark, hsplit, hheading.statements?_append (.newline _),
    hentry.statements?_append (.newline _), statements?_nil]
  rfl

end Toml

namespace Settings

open Value
open Environment (Garbled Names keyOf)
open Toml (Quotes IsBareName)

/-! ## The file -/

/-- A file that gives the header as a quotation. -/
def headerFile (quoted : List Char) : List Char :=
  "[output]\nheader = ".toList ++ quoted ++ ['\n']

theorem headerFile_eq (quoted : List Char) :
    headerFile quoted = '[' :: ("output".toList ++ ']' :: '\n' ::
      ("header".toList ++ ' ' :: '=' :: ' ' :: (quoted ++ ['\n']))) := by
  have hstart : "[output]\nheader = ".toList =
      '[' :: ("output".toList ++ ']' :: '\n' :: ("header".toList ++ [' ', '=', ' '])) := by
    decide +kernel
  unfold headerFile
  rw [hstart]
  simp only [List.cons_append, List.append_assoc, List.nil_append]

theorem documentIn?_headerFile {header : String} {quoted : List Char}
    (h : Quotes header.toList quoted) : documentIn? (Utf8.encode (headerFile quoted)) =
      some [("output", .table .heading [("header", .leaf .value (.text header))])] := by
  have houtput : IsBareName "output".toList :=
    ⟨by decide +kernel, List.all_eq_true.1 (by decide +kernel)⟩
  have hheader : IsBareName "header".toList :=
    ⟨by decide +kernel, List.all_eq_true.1 (by decide +kernel)⟩
  have hdocument := Toml.document?_section houtput hheader h
  rw [String.ofList_toList, String.ofList_toList, String.ofList_toList] at hdocument
  rw [headerFile_eq, documentIn?_encode (by decide), hdocument]

/-! ## Loading -/

/-- A file that gives the header as a quotation of a text makes loading give this text and leave the
other setting at its standard, if all variables that count have texts and none reaches a setting. -/
theorem load_quoted_header {files : Files} {env : Environment} {path : Option String} {s : Source}
    {header : String} {quoted : List Char} (hquoted : Quotes header.toList quoted)
    (hs : source? files (pathUsed env path) = some s)
    (hcontent : s.content = Utf8.encode (headerFile quoted)) (htext : ∀ v ∈ env, ¬ Garbled v)
    (hbeside : ∀ v ∈ env, ∀ n, Names v.1 n → ¬ IsBelow (keyOf n)) :
    load files env path = .ok { standard with header } := by
  obtain ⟨p, content⟩ := s
  obtain rfl : content = Utf8.encode (headerFile quoted) := hcontent
  obtain ⟨environment, henv⟩ := Environment.exists_layer_eq_ok htext
  -- Every entry of the environment's layer comes from a variable, so none of them reaches a setting.
  have hnone : ∀ e ∈ environment, ¬ IsBelow e.1 := by
    intro e he
    obtain ⟨v, hv, n, cs, hn, rfl⟩ := Environment.mem_layer henv he
    exact hbeside v hv n hn
  have hfile : fileLayer files (pathUsed env path) =
      .ok [("output", .table (some p) [("header", .leaf (some p) (.text header))])] :=
    fileLayer_of_documentIn? hs (documentIn?_headerFile hquoted)
  rw [load_eq_read hfile henv, layBelow_of_forall_beside hnone, layBelow_cons_of_some below?_output]
  rfl

/-- Marks, control characters and characters of up to four bytes come back from a file whose ending
the path leaves out, beside a variable for another key and one that does not count. -/
theorem load_quoted_header_marks :
    let header := "\"\\'\n\u001F\u007F\uFEFF \u00E9😀"
    let content := bytesOf "[output]\nheader = \"\\\"\\\\'\\u000a\\u001F\\u007f\uFEFF \u00E9😀\"\n"
    let files := (Files.empty default).write "c.toml" content
    let env : Environment := [(bytesOf "ROSTER_OUT.put", bytesOf "1"), ([0xFF], [0xFF])]
    load files env (some "c") = .ok { standard with header } := by
  intro header content files env
  let s : Source := ⟨"c.toml", content⟩
  have hs : source? files (pathUsed env (some "c")) = some s := by decide +kernel
  have hx : Names (bytesOf "ROSTER_OUT.put") "out.put".toList :=
    ⟨"ROSTER_OUT.put".toList, rfl, by decide +kernel⟩
  have hnone : ∀ n, ¬ Names [0xFF] n := by
    rw [← Environment.settingName?_eq_none_iff]
    decide +kernel
  have htext : ∀ v ∈ env, ¬ Garbled v := by
    simp only [env, List.forall_mem_cons, List.not_mem_nil, false_implies, implies_true, and_true]
    refine ⟨fun h => h.2 ⟨"1".toList, rfl⟩, ?_⟩
    rintro ⟨⟨n, hn⟩, -⟩
    exact hnone n hn
  have hbeside : ∀ v ∈ env, ∀ n, Names v.1 n → ¬ IsBelow (keyOf n) := by
    simp only [env, List.forall_mem_cons, List.not_mem_nil, false_implies, implies_true, and_true]
    refine ⟨fun n hn => ?_, fun n hn => absurd hn (hnone n)⟩
    rw [hn.unique hx, ← below?_eq_none_iff]
    decide +kernel
  -- Of the three numbers with a letter in them, only the second has a capital one.
  have hquoted : Quotes header.toList _ := .escaped fun c _ => decide (c = '\u001F')
  exact load_quoted_header hquoted hs (by decide +kernel) htext hbeside

/-- All variables that count need texts, even those for other keys: one that is garbled makes loading
fail beside a file that gives the empty header. -/
theorem load_quoted_header_garbled :
    let content := Utf8.encode (headerFile "\"\"".toList)
    let files := (Files.empty default).write "c.toml" content
    let env : Environment := [(bytesOf "ROSTER_X", [0xFF])]
    Quotes [] "\"\"".toList ∧
      source? files (pathUsed env (some "c.toml")) = some ⟨"c.toml", content⟩ ∧
      (∀ v ∈ env, ∀ n, Names v.1 n → ¬ IsBelow (keyOf n)) ∧
      load files env (some "c.toml") ≠ .ok { standard with header := "" } ∧
      load files env (some "c.toml") = .error (.undecodable "x" [0xFF]) := by
  intro content files env
  have hx : Names (bytesOf "ROSTER_X") "x".toList := ⟨"ROSTER_X".toList, rfl, by decide +kernel⟩
  have hload : load files env (some "c.toml") = .error (.undecodable "x" [0xFF]) := by
    decide +kernel
  refine ⟨.escaped fun _ _ => false, ?_, ?_, ?_, hload⟩
  · decide +kernel
  · simp only [env, List.forall_mem_cons, List.not_mem_nil, false_implies, implies_true, and_true]
    intro n hn
    rw [hn.unique hx, ← below?_eq_none_iff]
    decide +kernel
  · rw [hload]
    exact fun h => nomatch h

end Settings

end Enrollment
