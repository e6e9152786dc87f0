import Enrollment.Toml.Table
import Enrollment.Toml.Word

/-!
# Values

A value is simple, a list in brackets or an inline table in braces.  The latter
two hold values again, down to a depth that the parser is given.
-/

namespace Enrollment.Toml

open Enrollment.Parser

variable {α : Type}

/-- A further item after a comma. -/
def furtherItem (p : Parser α) : Parser α where
  run
    | ',' :: s => (p.run (skipFiller s)).map fun (a, r) => (a, skipFiller r)
    | _ => none
  shorter {s a r} h := by
    split at h
    · next s =>
      obtain ⟨⟨b, t⟩, ht, h⟩ := Option.map_eq_some_iff.1 h
      simp only [Prod.mk.injEq] at h
      have h1 := p.shorter ht
      have h2 := skipFiller_length_le s
      have h3 := skipFiller_length_le t
      rw [← h.2, List.length_cons]
      omega
    · simp at h

/-- What is left after a comma and filler, if a comma comes next. -/
def skipComma : List Char → List Char
  | ',' :: s => skipFiller s
  | s => s

theorem skipComma_length_le (s : List Char) : (skipComma s).length ≤ s.length := by
  unfold skipComma
  split
  · next t => exact Nat.le_succ_of_le (skipFiller_length_le t)
  · exact Nat.le_refl _

/-- Items with commas between them, and perhaps one after the last. -/
def itemList (p : Parser α) (s : List Char) : List α × List Char :=
  match p.run s with
  | none => ([], s)
  | some (a, r) =>
    let rest := (furtherItem p).many (skipFiller r)
    (a :: rest.1, skipComma rest.2)

theorem itemList_length_le (p : Parser α) (s : List Char) :
    (itemList p s).2.length ≤ s.length := by
  unfold itemList
  split
  · exact Nat.le_refl _
  · next a r h =>
    have h1 := p.shorter h
    have h2 := skipFiller_length_le r
    have h3 := (furtherItem p).many_length_le (skipFiller r)
    have h4 := skipComma_length_le ((furtherItem p).many (skipFiller r)).2
    simp only
    omega

/-- Takes items between an opening and a closing mark. -/
def takeEnclosed (opening closing : Char) (p : Parser α) :
    List Char → Option (List α × List Char)
  | [] => none
  | c :: s => if c = opening then closeWith closing (itemList p (skipFiller s)) else none

theorem takeEnclosed_shorter {opening closing : Char} {p : Parser α} {s r : List Char}
    {as : List α} (h : takeEnclosed opening closing p s = some (as, r)) :
    r.length < s.length := by
  unfold takeEnclosed at h
  split at h
  · simp at h
  · next c s =>
    split at h
    · have h1 := itemList_length_le p (skipFiller s)
      have h2 := skipFiller_length_le s
      have h3 := closeWith_shorter h
      rw [List.length_cons]
      omega
    · simp at h

/-- Items between an opening and a closing mark. -/
def enclosed (opening closing : Char) (p : Parser α) : Parser (List α) :=
  ⟨takeEnclosed opening closing p, takeEnclosed_shorter⟩

/-- A key and the value it is given, with a gap before and after the sign between them. -/
def entry (gap : Gap) (p : Parser α) : Parser (Key × α) where
  run s := (key.run s).bind fun (k, r) =>
    match gap.skip r with
    | '=' :: r => (p.run (gap.skip r)).map fun (a, r) => ((k, a), r)
    | _ => none
  shorter {s x r} h := by
    obtain ⟨⟨k, t⟩, ht, h⟩ := Option.bind_eq_some_iff.1 h
    simp only at h
    split at h
    · next u hu =>
      obtain ⟨⟨a, v⟩, hv, h⟩ := Option.map_eq_some_iff.1 h
      simp only [Prod.mk.injEq] at h
      have h1 := key.shorter ht
      have h2 := gap.length_le t
      have h3 := gap.length_le u
      have h4 := p.shorter hv
      rw [hu, List.length_cons] at h2
      rw [← h.2]
      omega
    · simp at h

/-- A value that holds no others. -/
def simpleValue : Parser Node :=
  ((quotation.map fun cs => Scalar.text (String.ofList cs)).orElse word).map (.leaf .value)

/-- A value in which no more than so many lists and inline tables hold one another.  The entries
of an inline table may be spread over several lines. -/
def value : Nat → Parser Node
  | 0 => simpleValue
  | depth + 1 =>
    simpleValue.orElse (((enclosed '[' ']' (value depth)).map (.list .value)).orElse
      ((enclosed '\x7b' '\x7d' (entry .filler (value depth))).mapOption fun kvs =>
        (insertAll kvs []).map (.table .value)))

/-- How deep lists and inline tables may be nested in a document. -/
def maxDepth : Nat := 80

end Enrollment.Toml
