import Enrollment.FileTree
import Enrollment.Proofs.PathText

/-!
# What a file is called

The values of a file name it by the way from the working directory, which goes up as far as
it has to and then down.  In a file tree this way comes back to every directory that it goes
up through, so it leads where the components do that it was made from
(`FileTree.follow_way`), and these lead where the segments do that can be followed
(`FileTree.follow_components`).  A file that was found is therefore found again under its
name (`FileTree.isNameOf_nameOf`).
-/

namespace Enrollment

namespace Path

theorem isName_iff {s : List Char} :
    isName s = true ↔ isIdle s = false ∧ s ≠ upward ∧ '/' ∉ s := by
  simp [isName, and_assoc]

theorem nil_mem_segments {path : List Char} (h : isAbsolute path = true) : [] ∈ segments path := by
  obtain ⟨rest, rfl⟩ : ∃ rest, path = '/' :: rest := by
    cases path with
    | nil => cases h
    | cons c rest =>
      have hc : c = '/' := by simpa [isAbsolute] using h
      exact ⟨rest, by rw [hc]⟩
  exact List.mem_cons_self

theorem mem_way {s : List Char} {as bs : List (List Char)} (h : s ∈ way as bs) :
    s = upward ∨ s ∈ bs := by
  fun_induction way as bs with
  | case1 a as bs ih => exact (ih h).imp_right (List.mem_cons_of_mem _)
  | case2 a as b bs hne => exact (List.mem_append.1 h).imp_left List.eq_of_mem_replicate
  | case3 as bs => exact (List.mem_append.1 h).imp_left List.eq_of_mem_replicate

theorem segments_ofComponents {cs : List (List Char)} (hne : cs ≠ []) (h : ∀ s ∈ cs, '/' ∉ s) :
    segments (ofComponents false cs) = cs := by
  rw [ofComponents, segments_eq_splitOn]
  exact List.splitOn_intercalate '/' h hne

end Path

/-! ## Paths from a directory -/

namespace Directory

open Enrollment.Path

variable (d : Directory)

theorem isName_of_mem {s : List Char} (h : s ∈ d.names) : Path.isName s = true :=
  List.all_eq_true.1 d.isName s h

theorem segments_path (h : d.names ≠ []) : segments d.path = [] :: d.names := by
  have hnames := segments_ofComponents h fun s hs => (isName_iff.1 (d.isName_of_mem hs)).2.2
  have hroot := segments_append_slash [] (ofComponents false d.names)
  rw [hnames] at hroot
  exact hroot

theorem dropLast_segments_inFront : (segments (inFront d.path)).dropLast = [] :: d.names := by
  by_cases h : d.names = []
  · rw [path, h]
    rfl
  · have hslash : ¬ EndsInSlash d.path := by
      intro hslash
      -- The final segment would be empty, but it is a name.
      have hlast := hslash.segments_append []
      rw [List.append_nil, d.segments_path h] at hlast
      have hmem := congrArg List.getLast? hlast
      rw [segments, List.getLast?_concat, List.getLast?_cons_of_ne_nil h] at hmem
      exact absurd (d.isName_of_mem (List.mem_of_getLast? hmem)) (by decide)
    have hfront : inFront d.path = d.path ++ '/' :: [] := if_neg hslash
    rw [hfront, segments_append_slash, d.segments_path h]
    exact List.dropLast_concat

theorem segments_full {path : List Char} (h : isAbsolute path = false) :
    segments (d.full path) = [] :: (d.names ++ segments path) := by
  rw [d.full_of_not_isAbsolute h, (endsInSlash_inFront d.path).segments_append,
    dropLast_segments_inFront, List.cons_append]

end Directory

/-! ## Following the way -/

namespace Place

open Enrollment.Path

theorem step_of_isIdle (p : Place) {s : List Char} (h : isIdle s = true) : p.step s = p :=
  if_pos h

theorem step_of_isName (p : Place) {s : List Char} (h : isName s = true) :
    p.step s = p.below s := by
  obtain ⟨hidle, hupward, -⟩ := isName_iff.1 h
  rw [step, if_neg (Bool.eq_false_iff.1 hidle), if_neg hupward]

end Place

namespace FileTree

open Enrollment.Path

variable (t : FileTree) {p q : Place}

theorem follow_cons (h : t.isDirectory p = true) (s : List Char) (ss : List (List Char)) :
    t.follow p (s :: ss) = t.follow (p.step s) ss :=
  if_pos h

theorem contentAt?_of_isDirectory (h : t.isDirectory p = true) : t.contentAt? p = none :=
  if_pos h

/-- What leads nowhere can be left out of what can be followed. -/
theorem follow_components {ss : List (List Char)} (h : t.follow p ss = some q) :
    t.follow p (ss.filter fun s => !isIdle s) = some q := by
  induction ss generalizing p with
  | nil => exact h
  | cons s ss ih =>
    cases hdir : t.isDirectory p with
    | false =>
      rw [follow, hdir] at h
      cases h
    | true =>
      rw [t.follow_cons hdir] at h
      cases hs : isIdle s with
      | true =>
        rw [p.step_of_isIdle hs] at h
        rw [List.filter_cons_of_neg (by simp [hs])]
        exact ih h
      | false =>
        rw [List.filter_cons_of_pos (by simp [hs]), t.follow_cons hdir]
        exact ih h

section Way

/-- The working directory lies below a place by the given names. -/
def LiesBelow (p : Place) (names : List (List Char)) : Prop :=
  (∀ s ∈ names, isName s = true) ∧
    t.workingDirectory.names.reverse = names.reverse ++ p.names

variable {t} {names : List (List Char)}

theorem LiesBelow.isDirectory (h : t.LiesBelow p names) : t.isDirectory p = true := by
  refine Bool.or_eq_true_iff.2 (.inl (List.isSuffixOf_iff_suffix.2 ?_))
  exact ⟨names.reverse, h.2.symm⟩

theorem LiesBelow.step {s : List Char} (h : t.LiesBelow p (s :: names)) :
    p.step s = p.below s ∧ t.LiesBelow (p.below s) names := by
  obtain ⟨hs, hnames⟩ := List.forall_mem_cons.1 h.1
  refine ⟨p.step_of_isName hs, hnames, ?_⟩
  rw [h.2, List.reverse_cons, List.append_assoc]
  rfl

/-- The names lead to the working directory. -/
theorem LiesBelow.follow_names (h : t.LiesBelow p names) :
    ∃ q, t.follow p names = some q ∧ t.isDirectory q = true := by
  induction names generalizing p with
  | nil => exact ⟨p, rfl, h.isDirectory⟩
  | cons s names ih =>
    obtain ⟨hstep, hbelow⟩ := h.step
    rw [t.follow_cons h.isDirectory, hstep]
    exact ih hbelow

/-- The way down to the working directory and up again leads nowhere. -/
theorem LiesBelow.follow_back (h : t.LiesBelow p names) (ss : List (List Char)) :
    t.follow p (names ++ (List.replicate names.length upward ++ ss)) = t.follow p ss := by
  induction names generalizing p ss with
  | nil => rfl
  | cons s names ih =>
    obtain ⟨hstep, hbelow⟩ := h.step
    have hup : (p.below s).step upward = p := rfl
    rw [List.length_cons, List.replicate_succ', List.append_assoc, List.cons_append,
      t.follow_cons h.isDirectory, hstep, List.singleton_append, ih hbelow,
      t.follow_cons hbelow.isDirectory, hup]

theorem LiesBelow.follow_way (h : t.LiesBelow p names) (ss : List (List Char)) :
    t.follow p (names ++ way names ss) = t.follow p ss := by
  fun_induction way names ss generalizing p with
  | case1 s names ss ih =>
    obtain ⟨hstep, hbelow⟩ := h.step
    rw [List.cons_append, t.follow_cons h.isDirectory, t.follow_cons h.isDirectory, hstep,
      ih hbelow]
  | case2 s names s' ss hne => exact h.follow_back (s' :: ss)
  | case3 names ss => exact h.follow_back ss

end Way

theorem liesBelow_root : t.LiesBelow .root t.workingDirectory.names :=
  ⟨fun _ hs => t.workingDirectory.isName_of_mem hs, (List.append_nil _).symm⟩

/-- The way from the working directory leads where the components do that it was made from. -/
theorem follow_way (cs : List (List Char)) :
    t.follow .root (t.workingDirectory.names ++ way t.workingDirectory.names cs) =
      t.follow .root cs :=
  t.liesBelow_root.follow_way cs

/-! ## The name of a file -/

/-- A path from the working directory, without anything that leads nowhere, under which the file
is found that another path leads to. -/
structure IsNameOf (path name : String) : Prop where
  relative : isAbsolute name.toList = false
  direct : ∀ s ∈ segments name.toList, isIdle s = false
  found : t.content? name = t.content? path

theorem content?_eq_some_iff {path : String} {content : Bytes} :
    t.content? path = some content ↔
      ∃ place, t.follow .root (segments (t.workingDirectory.full path.toList)) = some place ∧
        t.contentAt? place = some content :=
  Option.bind_eq_some_iff

theorem isNameOf_nameOf {path : String} (h : t.content? path ≠ none) :
    t.IsNameOf path (Settings.nameOf t.workingDirectory path) := by
  obtain ⟨content, hcontent⟩ := Option.ne_none_iff_exists'.1 h
  obtain ⟨place, hplace, hat⟩ := t.content?_eq_some_iff.1 hcontent
  let d := t.workingDirectory
  let cs := components (d.full path.toList)
  have hway : t.follow .root (d.names ++ way d.names cs) = some place :=
    (t.follow_way cs).trans (t.follow_components hplace)
  have hsegment : ∀ s ∈ way d.names cs, isIdle s = false ∧ '/' ∉ s := by
    intro s hs
    rcases mem_way hs with rfl | hs
    · decide
    · obtain ⟨hmem, hidle⟩ := List.mem_filter.1 hs
      rw [Bool.not_eq_true'] at hidle
      exact ⟨hidle, not_mem_of_mem_segments hmem⟩
  have hne : way d.names cs ≠ [] := by
    intro hnil
    -- Without a way the file would be the working directory.
    obtain ⟨here, hhere, hdirectory⟩ := t.liesBelow_root.follow_names
    rw [hnil, List.append_nil, hhere] at hway
    cases hway
    rw [t.contentAt?_of_isDirectory hdirectory] at hat
    cases hat
  have hname : segments (Settings.nameOf d path).toList = way d.names cs := by
    rw [Settings.nameOf, String.toList_ofList]
    exact segments_ofComponents hne fun s hs => (hsegment s hs).2
  have hdirect : ∀ s ∈ segments (Settings.nameOf d path).toList, isIdle s = false := by
    intro s hs
    rw [hname] at hs
    exact (hsegment s hs).1
  have hrelative : isAbsolute (Settings.nameOf d path).toList = false := by
    refine Bool.eq_false_iff.2 fun habs => ?_
    exact absurd (hdirect [] (nil_mem_segments habs)) (by decide)
  refine ⟨hrelative, hdirect, ?_⟩
  rw [hcontent, t.content?_eq_some_iff]
  refine ⟨place, ?_, hat⟩
  rw [d.segments_full hrelative, hname, t.follow_cons t.liesBelow_root.isDirectory]
  exact hway

end FileTree

end Enrollment
