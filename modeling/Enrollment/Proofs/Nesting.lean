import Enrollment.Proofs.KeyPaths
import Enrollment.Proofs.Spacing
import Enrollment.Proofs.WholeNumbers

/-!
# How deep values may be nested

Lists of one item and inline tables of one entry may stand around a simple value, in
any order.  Each such shell is taken only where the parser may go one level deeper,
and what it holds is taken with one level less (`Shell.takes_zero`, `Shell.takes`).
So the whole is a value exactly if there are no more shells than the parser may go
levels down, whichever of the two kinds they are (`takes_nestedText`).  A file that
gives such a value under a name other than `output` and nothing else therefore makes
no difference to what is loaded up to that depth, and beyond it the file is no
document (`load_nested`).
-/

namespace Enrollment

namespace Toml

/-! ## Shells -/

/-- A list or an inline table around one value, as it is written. -/
inductive Shell where
  | list (left right : Blanks)
  | table (left right before after : Blanks) (ks : List Char) (n : String) (hk : NameText ks n)

namespace Shell

/-- The text of a shell around what it holds. -/
def around : Shell → List Char → List Char
  | list left right, s => enclosedText '[' ']' left right s
  | table left right before after ks _ _, s =>
    enclosedText '\x7b' '\x7d' left right (spacedEntry before after ks s)

/-- The value of a shell that holds a value. -/
def holding : Shell → Node → Node
  | list _ _, v => .list .value [v]
  | table _ _ _ _ _ n _, v => .table .value [(n, v)]

variable (shell : Shell)

theorem takes {s : List Char} {w : Option Node} {depth : Nat} (h : Takes (value depth) s w) :
    Takes (value (depth + 1)) (shell.around s) (w.map shell.holding) := by
  cases shell with
  | list left right => exact h.singleList left right
  | table left right before after ks n hk => exact h.singleTable left right hk before after

/-- Where nothing may be nested any more, a shell is not taken. -/
theorem takes_zero (s : List Char) : Takes (value 0) (shell.around s) none := by
  cases shell with
  | list left right =>
    exact ⟨⟨'[', _, rfl, rfl, by decide, by decide⟩, fun _ => simpleValue_run_eq_none rfl _⟩
  | table left right before after ks n hk =>
    exact ⟨⟨'\x7b', _, rfl, rfl, by decide, by decide⟩, fun _ => simpleValue_run_eq_none rfl _⟩

end Shell

/-! ## Nested values -/

/-- The text of shells around what the last of them holds. -/
def nestedText (shells : List Shell) (s : List Char) : List Char :=
  shells.foldr Shell.around s

/-- The value of shells of which the last holds a value. -/
def nestedValue (shells : List Shell) (v : Node) : Node :=
  shells.foldr Shell.holding v

/-- A simple value with shells around it is a value where there may be so many of them. -/
theorem takes_nestedText (v : ScalarText) (shells : List Shell) (depth : Nat) :
    Takes (value depth) (nestedText shells v.text)
      (if shells.length ≤ depth then v.value?.map fun x => nestedValue shells (.leaf .value x)
      else none) := by
  induction shells generalizing depth with
  | nil =>
    rw [List.length_nil, if_pos (Nat.zero_le depth)]
    exact v.takes depth
  | cons shell shells ih =>
    cases depth with
    | zero => exact shell.takes_zero _
    | succ depth =>
      have hshell := shell.takes (ih depth)
      rw [apply_ite (Option.map shell.holding), Option.map_map, Option.map_none] at hshell
      simp only [List.length_cons, Nat.add_le_add_iff_right]
      exact hshell

end Toml

namespace Settings

open Toml (Blanks IsBareName NameText Says ScalarText Shell Spells nestedText nestedValue
  spacedEntry)

/-! ## The file -/

/-- The text of a file that gives a nested value under a name and nothing else. -/
def nestedFile (ks : List Char) (left right : Blanks) (shells : List Shell) (s : List Char)
    (closed : Bool) : List Char :=
  joinLines closed [spacedEntry left right ks (nestedText shells s)]

theorem documentIn?_nestedFile {ks : List Char} (hks : IsBareName ks) (left right : Blanks)
    (shells : List Shell) (v : ScalarText) (closed : Bool) :
    documentIn? (Utf8.encode (nestedFile ks left right shells v.text closed)) =
      if shells.length ≤ Toml.maxDepth then
        v.value?.map fun x => [(String.ofList ks, nestedValue shells (.leaf .value x))]
      else none := by
  have htakes := Toml.takes_nestedText v shells Toml.maxDepth
  obtain ⟨c, t, hs, hc, -, -⟩ := htakes.exists_cons
  have hsays := Says.spaced (.single (.bare hks)) ⟨c, t, hs, hc⟩ (fun hr => htakes.run hr.ends)
    left right
  have hfirst : ∃ c t, nestedFile ks left right shells v.text closed = c :: t ∧
      c.toNat ≤ 0x7F := by
    obtain ⟨d, ds, rfl, hd⟩ := (NameText.bare hks).exists_cons
    exact ⟨d, _, rfl, Toml.toNat_le_of_isOpening hd⟩
  rw [documentIn?_encode_ascii hfirst, nestedFile, joinLines,
    hsays.statements?_append (endsLine_last closed), Toml.statements?_nil]
  split
  · cases v.value? <;> rfl
  · rfl

/-- A bare name is a path of one step, so that only `output` itself leads there. -/
theorem beside_of_isBareName {ks : List Char} (hks : IsBareName ks)
    (hname : String.ofList ks ≠ "output") {α : Type} (a : α) : Beside (String.ofList ks, a) := by
  have hwritable : ∀ s ∈ [Step.key (String.ofList ks)], s.IsWritable := by
    refine List.forall_mem_singleton.2 ?_
    rw [Step.IsWritable, String.toList_ofList]
    exact ⟨hks.ne_nil, List.all_eq_true.2 hks.bare⟩
  have hparse := Step.parse?_keyText hwritable
  rw [Step.keyText, List.flatMap_nil, List.append_nil, String.ofList_toList] at hparse
  rintro ⟨rest, h⟩
  rw [hparse, Option.some.injEq, List.cons.injEq, Step.key.injEq] at h
  exact hname h.1

/-! ## Loading -/

/-- Without files there is no layer between the standard settings and the environment. -/
theorem fileLayer_empty (d : Directory) (path : String) : fileLayer (.empty d) path = .ok [] := by
  have hat (q : String) : sourceAt? (.empty d) q = none := rfl
  have hsource : source? (.empty d) path = none := by
    rw [source?, hat, Option.none_or, Option.bind_eq_none_iff]
    exact fun q _ => hat q
  rw [fileLayer, hsource]

/-- A file that gives a name other than `output` a whole number of 64 bits with lists of one item and
inline tables of one entry around it is a document if there are at most 80 of them, and loading is
then as without it.  With more of them it is no document, whatever the number. -/
theorem load_nested {files : Files} {env : Environment} {path : Option String} {p : String}
    {ks text : List Char} {n : Int} {left right : Blanks} {shells : List Shell} {closed : Bool}
    (hks : IsBareName ks) (hname : String.ofList ks ≠ "output") (hspells : Spells text n)
    (hs : source? files (pathUsed env path) =
      some ⟨p, Utf8.encode (nestedFile ks left right shells text closed)⟩) :
    (shells.length ≤ 80 → -2 ^ 63 ≤ n ∧ n < 2 ^ 63 →
      FileIsDocument files env path ∧
        load files env path = load (.empty files.workingDirectory) env path) ∧
    (80 < shells.length → load files env path = .error (.unparsed p)) := by
  have hdocument := documentIn?_nestedFile hks left right shells
    (.formed (.word text hspells.isWord)) closed
  rw [Toml.maxDepth] at hdocument
  constructor
  · intro hlength hrange
    rw [if_pos hlength, ScalarText.value?, Toml.Literal.value?, hspells.wordValue?,
      if_pos (fitsWord_iff.2 hrange), Option.map_some] at hdocument
    refine ⟨fun s hsource => ?_, load_eq_of_alikeOutcomes ?_ (.refl env.layer)⟩
    · rw [hs] at hsource
      cases hsource
      exact Option.ne_none_iff_exists'.2 ⟨_, hdocument⟩
    · -- The entry is the whole layer of the file.
      rw [fileLayer_of_documentIn? hs hdocument, fileLayer_empty]
      exact .ok (.left (beside_of_isBareName hks hname _) .nil)
  · intro hlength
    rw [if_neg (Nat.not_le.2 hlength)] at hdocument
    exact load_of_documentIn?_eq_none hs hdocument

/-- Forty lists and forty inline tables by turns, and one list more. -/
theorem load_nested_by_turns :
    let list : Shell := .list .empty .single
    let table : Shell := .table .single .empty .single .single "a".toList "a"
      (nameText_of_all (by decide +kernel) (by decide +kernel))
    let shells := (List.replicate 40 [list, table]).flatten
    let text (shells : List Shell) :=
      nestedFile "other".toList .single .single shells "7".toList true
    let files (shells : List Shell) :=
      (Files.empty default).write "c.toml" (Utf8.encode (text shells))
    text [list, table] = "other = [\x7b a = 7\x7d ]\n".toList ∧
      load (files shells) [] (some "c.toml") = .ok standard ∧
      load (files (list :: shells)) [] (some "c.toml") = .error (.unparsed "c.toml") := by
  intro list table shells text files
  have hbare : IsBareName "other".toList :=
    ⟨by decide +kernel, List.all_eq_true.1 (by decide +kernel)⟩
  have hname : String.ofList "other".toList ≠ "output" := by decide +kernel
  have hspells : Spells "7".toList 7 := Toml.wholeNumber?_eq_some_iff.1 (by decide +kernel)
  have hpath : nameOf default "c.toml" = "c.toml" := by decide +kernel
  have hs (shells : List Shell) : source? (files shells) (pathUsed [] (some "c.toml")) = _ :=
    source?_alone hpath _
  refine ⟨by decide +kernel, ?_, ?_⟩
  · have hload := ((load_nested hbare hname hspells (hs shells)).1 (by decide) (by decide)).2
    rw [hload]
    decide +kernel
  · exact (load_nested hbare hname hspells (hs (list :: shells))).2 (by decide)

end Settings

end Enrollment
