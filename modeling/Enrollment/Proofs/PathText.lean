import Enrollment.Settings.Load
import Mathlib.Data.List.DropRight

/-!
# Paths with a final name

A path that has a final name (`NamedPath.exists_letters_eq_iff`) is a directory, the name
and any number of slashes.  Its segments are those of the directory, the name and an empty
one for each slash (`NamedPath.segments_letters`), so the name is its last component.  Where
it is written from the root, only the directory is another one (`NamedPath.letters_full`).
From this it follows what a path becomes with an ending added
(`NamedPath.secondPath?_text`).
-/

namespace Enrollment

namespace Path

/-! ## Segments -/

theorem segments_eq_splitOn (path : List Char) : segments path = path.splitOn '/' := by
  induction path with
  | nil => exact (List.splitOn_nil '/').symm
  | cons c cs ih =>
    rw [segments, ih, List.splitOn_cons_eq_if_modifyHead]
    by_cases hc : c = '/'
    · simp [hc]
    · obtain ⟨s, ss, hs⟩ := List.exists_cons_of_ne_nil (List.splitOn_ne_nil '/' cs)
      simp [hc, hs]

theorem segments_append_slash (first later : List Char) :
    segments (first ++ '/' :: later) = segments first ++ segments later := by
  simp only [segments_eq_splitOn, List.splitOn_append_cons_self]

theorem segments_of_not_mem {s : List Char} (h : '/' ∉ s) : segments s = [s] := by
  rw [segments_eq_splitOn, List.splitOn_eq_singleton h]

theorem intercalate_segments (path : List Char) : ['/'].intercalate (segments path) = path := by
  rw [segments_eq_splitOn, List.intercalate_splitOn]

theorem segments_append_replicate {s : List Char} (h : '/' ∉ s) (k : Nat) :
    segments (s ++ List.replicate k '/') = s :: List.replicate k [] := by
  induction k with
  | zero => rw [List.replicate_zero, List.append_nil, segments_of_not_mem h, List.replicate_zero]
  | succ k ih =>
    rw [List.replicate_succ', ← List.append_assoc, segments_append_slash, ih,
      List.replicate_succ', List.cons_append]
    rfl

theorem not_mem_of_mem_segments {path s : List Char} (h : s ∈ segments path) : '/' ∉ s := by
  induction path generalizing s with
  | nil =>
    rw [List.mem_singleton.1 h]
    exact List.not_mem_nil
  | cons c cs ih =>
    obtain ⟨t, ts, ht⟩ := List.exists_cons_of_ne_nil (List.splitOn_ne_nil '/' cs)
    rw [segments_eq_splitOn, ht] at ih
    rw [segments_eq_splitOn, List.splitOn_cons_eq_if_modifyHead, ht] at h
    split at h
    · rcases List.mem_cons.1 h with rfl | h
      · exact List.not_mem_nil
      · exact ih h
    · next hc =>
      rcases List.mem_cons.1 h with rfl | h
      · have ht : '/' ∉ t := ih List.mem_cons_self
        simp only [beq_iff_eq] at hc
        exact fun hmem => (List.mem_cons.1 hmem).elim (fun heq => hc heq.symm) ht
      · exact ih (List.mem_cons_of_mem _ h)

/-- A directory to which more is written ends in a slash, unless it is left out. -/
def EndsInSlash (directory : List Char) : Prop :=
  directory = [] ∨ directory.getLast? = some '/'

namespace EndsInSlash

variable {directory : List Char} (h : EndsInSlash directory)

include h in
theorem segments_append (rest : List Char) :
    segments (directory ++ rest) = (segments directory).dropLast ++ segments rest := by
  rcases h with rfl | h
  · rfl
  · obtain ⟨d, rfl⟩ := List.getLast?_eq_some_iff.1 h
    have hempty : segments [] = [[]] := rfl
    rw [List.append_assoc, List.singleton_append, segments_append_slash, segments_append_slash,
      hempty, List.dropLast_concat]

include h in
theorem segments_letters {name : List Char} (hname : '/' ∉ name) (k : Nat) :
    segments (directory ++ (name ++ List.replicate k '/')) =
      (segments directory).dropLast ++ name :: List.replicate k [] := by
  rw [h.segments_append, segments_append_replicate hname]

end EndsInSlash

/-- Every path is a directory, a name, if any is left, and slashes. -/
theorem exists_append_replicate (path : List Char) :
    ∃ front s k, EndsInSlash front ∧ '/' ∉ s ∧ (s = [] → front = []) ∧
      front ++ (s ++ List.replicate k '/') = path := by
  let rest := path.rdropWhile (· = '/')
  let front := rest.rdropWhile (· ≠ '/')
  let s := rest.rtakeWhile (· ≠ '/')
  have hrest : front ++ s = rest := List.rdropWhile_append_rtakeWhile
  obtain ⟨k, hslashes⟩ : ∃ k, path.rtakeWhile (· = '/') = List.replicate k '/' := by
    refine ⟨_, List.eq_replicate_of_mem ?_⟩
    intro c hc
    have hslash := List.mem_rtakeWhile_imp hc
    exact of_decide_eq_true hslash
  refine ⟨front, s, k, ?_, ?_, ?_, ?_⟩
  · by_cases hfront : front = []
    · exact .inl hfront
    · right
      have hlast := List.rdropWhile_last_not _ rest hfront
      rw [decide_eq_true_iff, Classical.not_not] at hlast
      rw [List.getLast?_eq_some_getLast hfront, ← hlast]
  · intro hmem
    have hslash := List.mem_rtakeWhile_imp hmem
    exact of_decide_eq_true hslash rfl
  · intro hs
    by_contra hfront
    have hne : rest ≠ [] := by
      rw [← hrest]
      exact List.append_ne_nil_of_left_ne_nil hfront _
    have hlast := List.rdropWhile_last_not _ path hne
    have hlast' := List.rtakeWhile_eq_nil_iff.1 hs hne
    rw [decide_eq_true_iff] at hlast hlast'
    exact hlast' hlast
  · rw [← hslashes, ← List.append_assoc, hrest]
    exact List.rdropWhile_append_rtakeWhile

/-- The last segment in which anything is written. -/
def finalName? (path : List Char) : Option (List Char) :=
  ((segments path).filter fun s => !s.isEmpty).getLast?

theorem finalName?_replicate (k : Nat) : finalName? (List.replicate k '/') = none := by
  have hslashes := segments_append_replicate (s := []) List.not_mem_nil k
  rw [List.nil_append, ← List.replicate_succ] at hslashes
  rw [finalName?, hslashes, List.filter_replicate_of_neg (by simp)]
  rfl

theorem EndsInSlash.finalName?_letters {directory name : List Char} (h : EndsInSlash directory)
    (hname : '/' ∉ name) (hne : name ≠ []) (k : Nat) :
    finalName? (directory ++ (name ++ List.replicate k '/')) = some name := by
  rw [finalName?, h.segments_letters hname, List.filter_append,
    List.filter_cons_of_pos (by simp [hne]), List.filter_replicate_of_neg (by simp),
    List.getLast?_concat]

theorem endText_append {front last ending : List Char} (hfront : EndsInSlash front)
    (hlast : '/' ∉ last) (hending : '/' ∉ endSegment last ending) :
    endText (front ++ last) ending = front ++ endSegment last ending := by
  have hsegments : ∀ s, '/' ∉ s → segments (front ++ s) = (segments front).dropLast ++ [s] := by
    intro s hs
    rw [hfront.segments_append, segments_of_not_mem hs]
  rw [endText, hsegments last hlast, List.dropLast_concat, List.getLastD_concat,
    ← hsegments _ hending, intercalate_segments]

end Path

/-! ## A directory, a name and slashes -/

/-- A path that has a final name: what stands before it, the name, and the slashes after it. -/
structure NamedPath where
  directory : List Char
  name : List Char
  slashes : Nat
  endsInSlash : Path.EndsInSlash directory
  ne_nil : name ≠ [] := by decide
  slash_not_mem : '/' ∉ name := by decide
  ne_dot : name ≠ ['.'] := by decide
  ne_dots : name ≠ ['.', '.'] := by decide

namespace NamedPath

open Enrollment.Path

variable (p : NamedPath)

/-- The path as it is written. -/
def letters : List Char :=
  p.directory ++ (p.name ++ List.replicate p.slashes '/')

def text : String :=
  String.ofList p.letters

theorem segments_letters :
    segments p.letters =
      (segments p.directory).dropLast ++ p.name :: List.replicate p.slashes [] :=
  p.endsInSlash.segments_letters p.slash_not_mem p.slashes

theorem isIdle_name : isIdle p.name = false := by
  simp [isIdle, p.ne_nil, p.ne_dot]

theorem components_letters :
    components p.letters =
      ((segments p.directory).dropLast.filter fun s => !isIdle s) ++ [p.name] := by
  have hslashes : isIdle [] := rfl
  rw [components, segments_letters, List.filter_append, List.filter_cons, isIdle_name,
    List.filter_replicate_of_neg (by simp [hslashes])]
  rfl

theorem isAbsolute_letters : isAbsolute p.letters = isAbsolute p.directory := by
  obtain ⟨c, cs, hname⟩ := List.exists_cons_of_ne_nil p.ne_nil
  have hc : c ≠ '/' := by
    rintro rfl
    exact p.slash_not_mem (hname ▸ List.mem_cons_self)
  cases hdir : p.directory with
  | nil => simp [letters, hdir, hname, isAbsolute, hc]
  | cons d ds => simp [letters, hdir, isAbsolute]

theorem finalName?_letters : finalName? p.letters = some p.name :=
  p.endsInSlash.finalName?_letters p.slash_not_mem p.ne_nil p.slashes

theorem exists_letters_eq_iff {path : List Char} :
    (∃ p : NamedPath, p.letters = path) ↔
      ∃ name, finalName? path = some name ∧ name ≠ ['.'] ∧ name ≠ ['.', '.'] := by
  constructor
  · rintro ⟨p, rfl⟩
    exact ⟨p.name, p.finalName?_letters, p.ne_dot, p.ne_dots⟩
  · rintro ⟨name, hname, hdot, hdots⟩
    obtain ⟨front, s, k, hfront, hs, hempty, rfl⟩ := exists_append_replicate path
    by_cases hne : s = []
    · rw [hne, hempty hne, List.nil_append, List.nil_append, finalName?_replicate] at hname
      cases hname
    · have hlast := hfront.finalName?_letters hs hne k
      obtain rfl : s = name := Option.some.inj (hlast.symm.trans hname)
      exact ⟨⟨front, s, k, hfront, hne, hs, hdot, hdots⟩, rfl⟩

/-! ## With an ending added -/

/-- The path with `.toml` written after the name, and no slash. -/
def extended : NamedPath where
  directory := p.directory
  name := p.name ++ ".toml".toList
  slashes := 0
  endsInSlash := p.endsInSlash
  ne_nil := List.append_ne_nil_of_left_ne_nil p.ne_nil _
  slash_not_mem := by
    rw [List.mem_append, not_or]
    exact ⟨p.slash_not_mem, by decide⟩
  ne_dot h := by
    have hlength := congrArg List.length h
    simp at hlength
  ne_dots h := by
    have hlength := congrArg List.length h
    simp at hlength

theorem endsInSlash_letters (h : p.slashes ≠ 0) : EndsInSlash p.letters := by
  obtain ⟨k, hk⟩ := Nat.exists_eq_succ_of_ne_zero h
  right
  rw [letters, hk, List.replicate_succ', ← List.append_assoc, ← List.append_assoc,
    List.getLast?_concat]

/-- The path to a hidden file in the directory that the path names with slashes after it. -/
def below (h : p.slashes ≠ 0) : NamedPath where
  directory := p.letters
  name := ".placeholder.toml".toList
  slashes := 0
  endsInSlash := p.endsInSlash_letters h

/-- What is looked for second.  A slash is dropped, unless the name has an ending already. -/
def second : NamedPath :=
  if h : hasEnding p.name ∧ p.slashes ≠ 0 then p.below h.2 else p.extended

theorem second_of_hasEnding (hend : hasEnding p.name) (h : p.slashes ≠ 0) :
    p.second = p.below h := by
  rw [second, dif_pos ⟨hend, h⟩]

theorem second_eq_extended (h : hasEnding p.name → p.slashes = 0) : p.second = p.extended := by
  rw [second, dif_neg]
  rintro ⟨hend, hslashes⟩
  exact hslashes (h hend)

theorem endName_letters : endName p.letters ".toml".toList = p.extended.letters := by
  have hslashes : ∀ s ∈ List.replicate p.slashes [], isIdle s = true := by
    intro s hs
    rw [List.eq_of_mem_replicate hs]
    rfl
  have hname : (((segments p.letters).reverse).dropWhile isIdle).reverse =
      (segments p.directory).dropLast ++ [p.name] := by
    rw [segments_letters, List.reverse_append, List.reverse_cons, List.reverse_replicate,
      List.append_assoc, List.dropWhile_append_of_pos hslashes, List.singleton_append,
      List.dropWhile_cons_of_neg (by simp [p.isIdle_name]), List.reverse_cons, List.reverse_reverse]
  have hsegments : segments p.extended.letters =
      (segments p.directory).dropLast ++ [p.name ++ ".toml".toList] :=
    p.extended.segments_letters
  rw [endName, hname, List.dropLast_concat, List.getLastD_concat, ← hsegments,
    intercalate_segments]

theorem endText_letters (hend : hasEnding p.name) :
    endText p.letters ".toml".toList = p.second.letters := by
  by_cases h : p.slashes = 0
  · have hletters : p.letters = p.directory ++ p.name := by
      rw [letters, h, List.replicate_zero, List.append_nil]
    have hsegment : endSegment p.name ".toml".toList = p.extended.name := by
      rw [endSegment, if_neg p.ne_nil]
      rfl
    have hslash : '/' ∉ endSegment p.name ".toml".toList := by
      rw [hsegment]
      exact p.extended.slash_not_mem
    rw [hletters, endText_append p.endsInSlash p.slash_not_mem hslash, hsegment,
      p.second_eq_extended fun _ => h]
    simp only [letters, extended, List.replicate_zero, List.append_nil]
  · -- After the last slash there is nothing, so the placeholder is what takes the ending.
    have hempty : endText (p.letters ++ []) ".toml".toList =
        p.letters ++ endSegment [] ".toml".toList :=
      endText_append (p.endsInSlash_letters h) List.not_mem_nil (by decide)
    rw [List.append_nil] at hempty
    rw [hempty, p.second_of_hasEnding hend h]
    rfl

theorem addEnding?_letters : addEnding? p.letters ".toml".toList = some p.second.letters := by
  have hlast : (components p.letters).getLast? = some p.name := by
    rw [components_letters, List.getLast?_concat]
  have hname : p.name ≠ upward := p.ne_dots
  rw [addEnding?, hlast]
  dsimp only
  rw [if_neg hname]
  cases hend : hasEnding p.name with
  | true => rw [if_pos rfl, p.endText_letters hend]
  | false =>
    have hsecond : p.second = p.extended := by
      apply second_eq_extended
      intro h
      rw [hend] at h
      cases h
    rw [if_neg Bool.false_ne_true, hsecond, endName_letters]

end NamedPath

/-! ## From the root -/

namespace Path

/-- A base as more is written after it: with a slash, unless it is empty or ends in one. -/
def inFront (base : List Char) : List Char :=
  if base = [] ∨ base.getLast? = some '/' then base else base ++ ['/']

theorem endsInSlash_inFront (base : List Char) : EndsInSlash (inFront base) := by
  unfold inFront
  split
  · assumption
  · exact .inr List.getLast?_concat

theorem endsInSlash_append {front part : List Char} (hfront : EndsInSlash front)
    (h : EndsInSlash part) : EndsInSlash (front ++ part) := by
  rcases h with rfl | h
  · rwa [List.append_nil]
  · right
    rw [List.getLast?_append, h]
    rfl

theorem join_eq (base : List Char) {part : List Char} (h : isAbsolute part = false) :
    join base part = inFront base ++ part := by
  rw [join, inFront, if_neg (Bool.eq_false_iff.1 h)]
  split
  · rfl
  · rw [List.append_assoc, List.singleton_append]

end Path

namespace Directory

open Enrollment.Path

variable (d : Directory)

theorem full_of_isAbsolute {path : List Char} (h : isAbsolute path = true) : d.full path = path :=
  if_pos h

theorem full_of_not_isAbsolute {path : List Char} (h : isAbsolute path = false) :
    d.full path = inFront d.path ++ path :=
  join_eq d.path h

theorem isAbsolute_full (path : List Char) : isAbsolute (d.full path) = true := by
  cases h : isAbsolute path with
  | true => rwa [d.full_of_isAbsolute h]
  | false =>
    rw [d.full_of_not_isAbsolute h, inFront]
    split <;> rfl

theorem full_full (path : List Char) : d.full (d.full path) = d.full path :=
  d.full_of_isAbsolute (d.isAbsolute_full path)

theorem full_append {front rest : List Char} (h : isAbsolute (front ++ rest) = isAbsolute front) :
    d.full (front ++ rest) = d.full front ++ rest := by
  cases hfront : isAbsolute front with
  | true => rw [d.full_of_isAbsolute (h.trans hfront), d.full_of_isAbsolute hfront]
  | false =>
    rw [d.full_of_not_isAbsolute (h.trans hfront), d.full_of_not_isAbsolute hfront,
      List.append_assoc]

theorem endsInSlash_full {directory : List Char} (h : EndsInSlash directory) :
    EndsInSlash (d.full directory) := by
  cases habs : isAbsolute directory with
  | true => rwa [d.full_of_isAbsolute habs]
  | false =>
    rw [d.full_of_not_isAbsolute habs]
    exact endsInSlash_append (endsInSlash_inFront d.path) h

end Directory

namespace NamedPath

open Enrollment.Path

variable (d : Directory) (p : NamedPath)

/-- The path as it leads on from a directory. -/
def full : NamedPath :=
  { p with
    directory := d.full p.directory
    endsInSlash := d.endsInSlash_full p.endsInSlash }

theorem letters_full : (p.full d).letters = d.full p.letters :=
  (d.full_append p.isAbsolute_letters).symm

theorem letters_second_full : (p.full d).second.letters = d.full p.second.letters := by
  by_cases h : hasEnding p.name ∧ p.slashes ≠ 0
  · have hfull : (p.full d).second = (p.full d).below h.2 := (p.full d).second_of_hasEnding h.1 h.2
    have hbelow : ((p.full d).below h.2).letters = (p.full d).letters ++ _ := rfl
    rw [p.second_of_hasEnding h.1 h.2, hfull, hbelow, letters_full]
    exact (d.full_append (p.below h.2).isAbsolute_letters).symm
  · have hsecond : ∀ q : NamedPath, q.name = p.name → q.slashes = p.slashes →
        q.second = q.extended := by
      intro q hname hslashes
      rw [← hname, ← hslashes] at h
      exact q.second_eq_extended fun hend => Classical.not_not.1 fun hne => h ⟨hend, hne⟩
    rw [hsecond p rfl rfl, hsecond (p.full d) rfl rfl]
    exact (d.full_append p.extended.isAbsolute_letters).symm

theorem secondPath?_text :
    Settings.secondPath? d p.text = some (String.ofList (d.full p.second.letters)) := by
  rw [Settings.secondPath?, text, String.toList_ofList, ← letters_full, addEnding?_letters,
    letters_second_full]
  rfl

end NamedPath

end Enrollment
