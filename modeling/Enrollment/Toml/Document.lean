import Enrollment.Toml.Value

/-!
# Documents

A document is read in two steps.  Its lines give statements: headings and
entries.  The statements, gathered under their headings, build the tree; only
there does it matter whether something has been given before.
-/

namespace Enrollment.Toml

open Enrollment.Parser

/-! ## Statements -/

/-- What a line can say. -/
inductive Statement where
  /-- What follows belongs to a table. -/
  | table (k : Key)
  /-- What follows belongs to a new table at the end of a list of tables. -/
  | element (k : Key)
  /-- A key has a value. -/
  | entry (k : Key) (v : Node)

def tableHeading : Parser Key where
  run
    | '[' :: s => (key.run (skipBlanks s)).bind fun (k, r) =>
      match skipBlanks r with
      | ']' :: r => some (k, r)
      | _ => none
    | _ => none
  shorter {s a r} h := by
    split at h
    · next s =>
      obtain ⟨⟨k, t⟩, ht, h⟩ := Option.bind_eq_some_iff.1 h
      simp only at h
      split at h
      · next u hu =>
        simp only [Option.some.injEq, Prod.mk.injEq] at h
        have h1 := key.shorter ht
        have h2 := skipBlanks_length_le s
        have h3 := skipBlanks_length_le t
        rw [hu, List.length_cons] at h3
        rw [← h.2, List.length_cons]
        omega
      · simp at h
    · simp at h

def elementHeading : Parser Key where
  run
    | '[' :: '[' :: s => (key.run (skipBlanks s)).bind fun (k, r) =>
      match skipBlanks r with
      | ']' :: ']' :: r => some (k, r)
      | _ => none
    | _ => none
  shorter {s a r} h := by
    split at h
    · next s =>
      obtain ⟨⟨k, t⟩, ht, h⟩ := Option.bind_eq_some_iff.1 h
      simp only at h
      split at h
      · next u hu =>
        simp only [Option.some.injEq, Prod.mk.injEq] at h
        have h1 := key.shorter ht
        have h2 := skipBlanks_length_le s
        have h3 := skipBlanks_length_le t
        rw [hu, List.length_cons, List.length_cons] at h3
        rw [← h.2, List.length_cons, List.length_cons]
        omega
      · simp at h
    · simp at h

def statement : Parser Statement :=
  (elementHeading.map Statement.element).orElse ((tableHeading.map Statement.table).orElse
    ((entry .blanks (value maxDepth)).map fun (k, v) => Statement.entry k v))

/-- A statement if there is one, and what is left. -/
def statementIn (s : List Char) : Option Statement × List Char :=
  match statement.run s with
  | some (st, r) => (some st, r)
  | none => (none, s)

theorem statementIn_length_le (s : List Char) : (statementIn s).2.length ≤ s.length := by
  unfold statementIn
  split
  · exact Nat.le_of_lt (statement.shorter ‹_›)
  · exact Nat.le_refl _

/-- What is left of a line once its statement has been taken: blanks and a comment. -/
def skipLineEnd (s : List Char) : List Char :=
  skipComment (skipBlanks s)

theorem skipLineEnd_length_le (s : List Char) : (skipLineEnd s).length ≤ s.length :=
  Nat.le_trans (skipComment_length_le _) (skipBlanks_length_le s)

/-- A line, which says something or nothing.  The last one may end with the document. -/
def line : Parser (Option Statement) where
  run
    | [] => none
    | c :: s =>
      let x := statementIn (skipBlanks (c :: s))
      match skipLineEnd x.2 with
      | [] => some (x.1, [])
      | t => (newline.run t).map fun (_, r) => (x.1, r)
  shorter {s a r} h := by
    split at h
    · simp at h
    · next c s =>
      have h1 := skipBlanks_length_le (c :: s)
      have h2 := statementIn_length_le (skipBlanks (c :: s))
      have h3 := skipLineEnd_length_le (statementIn (skipBlanks (c :: s))).2
      simp only at h
      split at h
      · simp only [Option.some.injEq, Prod.mk.injEq] at h
        simp [← h.2]
      · obtain ⟨⟨b, t⟩, ht, h⟩ := Option.map_eq_some_iff.1 h
        simp only [Prod.mk.injEq] at h
        have h4 := newline.shorter ht
        rw [← h.2]
        omega

/-- The statements of a document, if every line can be read. -/
def statements? (s : List Char) : Option (List Statement) :=
  if (line.many s).2 = [] then some ((line.many s).1.filterMap id) else none

/-! ## Sections -/

/-- What stands above a section. -/
inductive Heading where
  | table (k : Key)
  | element (k : Key)

structure Section where
  heading : Heading
  entries : List (Key × Node)

/-- The entries before the first heading, and the sections. -/
def sections : List Statement → List (Key × Node) × List Section
  | [] => ([], [])
  | .entry k v :: sts => ((k, v) :: (sections sts).1, (sections sts).2)
  | .table k :: sts => ([], ⟨.table k, (sections sts).1⟩ :: (sections sts).2)
  | .element k :: sts => ([], ⟨.element k, (sections sts).1⟩ :: (sections sts).2)

/-- Adds a section to the tables of a document. -/
def Section.insert (s : Section) (es : Entries Node) : Option (Entries Node) :=
  match s.heading with
  | .table k => insertTable k s.entries es
  | .element k => insertElement k s.entries es

def insertSections : List Section → Entries Node → Option (Entries Node)
  | [], es => some es
  | s :: ss, es => (s.insert es).bind (insertSections ss)

/-- The tree that statements build, if none of them gives what has been given before. -/
def assemble? (sts : List Statement) : Option (Entries Node) :=
  (insertAll (sections sts).1 []).bind (insertSections (sections sts).2)

/-! ## Documents -/

/-- What is left after a byte order mark in front. -/
def skipMark : List Char → List Char
  | '\uFEFF' :: s => s
  | s => s

/-- The entries of the table that a document is. -/
def document? (s : List Char) : Option (Entries Node) :=
  (statements? (skipMark s)).bind assemble?

end Enrollment.Toml
