import Enrollment.CommandLine
import Mathlib.Data.List.Basic

/-!
# What arguments ask for

What arguments ask for is said here as a grammar, one constructor for each kind
of item, and reading arguments goes by it: they are misuse where the grammar
says nothing (`scan_of_asks`, `asks_scan`, `scan_eq_misuse_iff`).  A switch for
debugging can be added to options anywhere but after their end or where it would
be taken for a path (`Asks.insert_debug`).
-/

namespace Enrollment.CommandLine

/-- What arguments ask for on top of options that are given already. -/
inductive Asks : Options → List String → Request → Prop
  | nil (o : Options) : Asks o [] (.run o)
  | stop (o : Options) : Asks o ["--"] (.run o)
  | help (o : Options) (rest : List String) : Asks o ("--help" :: rest) .help
  | short (o : Options) (more : String) (rest : List String) : Asks o (("-h" ++ more) :: rest) .help
  | debug {o : Options} {args : List String} {r : Request} (new : o.debug = false)
      (rest : Asks { o with debug := true } args r) : Asks o ("--debug" :: args) r
  | separate {o : Options} {p : String} {args : List String} {r : Request} (new : o.config = none)
      (ne : p ≠ "") (dash : p = "-" ∨ p.toList.head? ≠ some '-')
      (rest : Asks { o with config := some p } args r) : Asks o ("--config" :: p :: args) r
  | attached {o : Options} {p : String} {args : List String} {r : Request} (new : o.config = none)
      (ne : p ≠ "") (rest : Asks { o with config := some p } args r) :
      Asks o (("--config=" ++ p) :: args) r

/-! ## Single arguments -/

theorem isPath_iff {p : String} :
    isPath p = true ↔ p ≠ "" ∧ (p = "-" ∨ p.toList.head? ≠ some '-') := by
  simp [isPath]

theorem toList_isPrefixOf_iff (start a : String) :
    start.toList.isPrefixOf a.toList = true ↔ ∃ rest, a = start ++ rest := by
  rw [List.isPrefixOf_iff_prefix]
  constructor
  · rintro ⟨rest, hrest⟩
    exact ⟨String.ofList rest, by rw [← String.toList_inj, String.toList_append,
      String.toList_ofList, hrest]⟩
  · rintro ⟨rest, rfl⟩
    exact ⟨rest.toList, String.toList_append.symm⟩

theorem ofList_drop_start (start rest : String) :
    String.ofList ((start ++ rest).toList.drop start.toList.length) = rest := by
  rw [String.toList_append, List.drop_left, String.ofList_toList]

theorem attachedPath?_append (p : String) : attachedPath? ("--config=" ++ p) = some p := by
  have hstart : configStart.isPrefixOf ("--config=" ++ p).toList = true :=
    (toList_isPrefixOf_iff _ _).2 ⟨p, rfl⟩
  rw [attachedPath?, if_pos hstart]
  exact congrArg some (ofList_drop_start "--config=" p)

theorem attachedPath?_eq_some_iff {a p : String} :
    attachedPath? a = some p ↔ a = "--config=" ++ p := by
  constructor
  · intro h
    by_cases hstart : configStart.isPrefixOf a.toList = true
    · obtain ⟨rest, rfl⟩ := (toList_isPrefixOf_iff _ _).1 hstart
      rw [attachedPath?_append] at h
      rw [Option.some.inj h]
    · rw [attachedPath?, if_neg hstart] at h
      cases h
  · rintro rfl
    exact attachedPath?_append p

theorem asksHelp_iff {a : String} :
    asksHelp a = true ↔ a = "--help" ∨ ∃ more, a = "-h" ++ more := by
  have hshort : ['-', 'h'].isPrefixOf a.toList = true ↔ ∃ more, a = "-h" ++ more :=
    toList_isPrefixOf_iff "-h" a
  rw [asksHelp, Bool.or_eq_true, decide_eq_true_iff, hshort]

/-- An argument that holds a path is no other item. -/
theorem attached_ne {p a : String} (h : a.toList[1]? ≠ some '-' ∨ a.toList[8]? ≠ some '=') :
    "--config=" ++ p ≠ a := by
  rintro rfl
  simp at h

theorem asksHelp_attached (p : String) : asksHelp ("--config=" ++ p) = false := by
  rw [Bool.eq_false_iff, Ne, asksHelp_iff]
  rintro (h | ⟨more, h⟩)
  · exact attached_ne (.inr (by simp)) h
  · exact attached_ne (.inl (by simp)) h

/-! ## Items in front of others -/

section Items

variable (o : Options) (p : String) (rest : List String)

theorem scan_separate : scan o ("--config" :: p :: rest) =
    if o.config = none ∧ isPath p then scan { o with config := some p } rest else .misuse := by
  rw [scan]

theorem scan_debug : scan o ("--debug" :: rest) =
    if o.debug then .misuse else scan { o with debug := true } rest := by
  rw [scan]
  · rfl
  · simp

theorem scan_stop : scan o ("--" :: rest) = if rest = [] then .run o else .misuse := by
  rw [scan]
  · rfl
  · simp

theorem scan_attached : scan o (("--config=" ++ p) :: rest) =
    if o.config = none ∧ p ≠ "" then scan { o with config := some p } rest else .misuse := by
  have hstop : "--config=" ++ p ≠ "--" := attached_ne (.inr (by simp))
  have hdebug : "--config=" ++ p ≠ "--debug" := attached_ne (.inr (by simp))
  have hconfig : "--config=" ++ p ≠ "--config" := attached_ne (.inr (by simp))
  rw [scan]
  · rw [if_neg (Bool.eq_false_iff.1 (asksHelp_attached p)), if_neg hstop, if_neg hdebug,
      attachedPath?_append]
  · exact fun _ _ h => absurd h hconfig

theorem scan_help {a : String} (h : asksHelp a = true) : scan o (a :: rest) = .help := by
  rw [scan]
  · rw [if_pos h]
  · rintro p rest rfl
    exact absurd h (by decide)

end Items

/-! ## Reading goes by the grammar -/

theorem scan_of_asks {o : Options} {args : List String} {r : Request} (h : Asks o args r) :
    scan o args = r := by
  induction h with
  | nil o => rw [scan]
  | stop o => rw [scan_stop, if_pos rfl]
  | help o rest => exact scan_help o rest (asksHelp_iff.2 (.inl rfl))
  | short o more rest => exact scan_help o rest (asksHelp_iff.2 (.inr ⟨more, rfl⟩))
  | debug new _ ih =>
    rw [scan_debug, new]
    exact ih
  | separate new ne dash _ ih => rw [scan_separate, if_pos ⟨new, isPath_iff.2 ⟨ne, dash⟩⟩, ih]
  | attached new ne _ ih => rw [scan_attached, if_pos ⟨new, ne⟩, ih]

theorem asks_scan (o : Options) (args : List String) :
    scan o args = .misuse ∨ Asks o args (scan o args) := by
  -- The branches that are left to the end are those that find misuse.
  fun_induction scan o args with
  | case1 o => exact .inr (.nil o)
  | case2 o p rest h ih =>
    obtain ⟨ne, dash⟩ := isPath_iff.1 h.2
    exact ih.imp_right (.separate h.1 ne dash)
  | case4 o a rest _ hhelp =>
    obtain rfl | ⟨more, rfl⟩ := asksHelp_iff.1 hhelp
    · exact .inr (.help o rest)
    · exact .inr (.short o more rest)
  | case5 o => exact .inr (.stop o)
  | case8 o rest hdebug _ _ _ ih => exact ih.imp_right (.debug (Bool.eq_false_iff.2 hdebug))
  | case9 o a rest _ _ _ _ p hp h ih =>
    rw [attachedPath?_eq_some_iff.1 hp]
    exact ih.imp_right (.attached h.1 h.2)
  | case3 => exact .inl rfl
  | case6 => exact .inl rfl
  | case7 => exact .inl rfl
  | case10 => exact .inl rfl
  | case11 => exact .inl rfl

theorem not_asks_misuse {o : Options} {args : List String} : ¬Asks o args .misuse := by
  intro h
  generalize hr : Request.misuse = r at h
  induction h with
  | nil => cases hr
  | stop => cases hr
  | help => cases hr
  | short => cases hr
  | debug _ _ ih => exact ih hr
  | separate _ _ _ _ ih => exact ih hr
  | attached _ _ _ ih => exact ih hr

/-- Misuse is what asks for nothing. -/
theorem scan_eq_misuse_iff {o : Options} {args : List String} :
    scan o args = .misuse ↔ ∀ r, ¬Asks o args r := by
  constructor
  · intro h r hr
    have heq := scan_of_asks hr
    rw [h] at heq
    subst heq
    exact not_asks_misuse hr
  · intro h
    exact (asks_scan o args).resolve_right (h _)

/-! ## The switch for debugging -/

theorem Asks.set_debug {o o' : Options} {args : List String} (h : Asks o args (.run o'))
    (hnone : "--debug" ∉ args) :
    Asks { o with debug := true } args (.run { o' with debug := true }) := by
  generalize hr : Request.run o' = r at h
  induction h with
  | nil =>
    cases hr
    exact .nil _
  | stop =>
    cases hr
    exact .stop _
  | help => cases hr
  | short => cases hr
  | debug => exact absurd List.mem_cons_self hnone
  | separate new ne dash _ ih =>
    exact .separate new ne dash
      (ih (fun h => hnone (List.mem_cons_of_mem _ (List.mem_cons_of_mem _ h))) hr)
  | attached new ne _ ih =>
    exact .attached new ne (ih (fun h => hnone (List.mem_cons_of_mem _ h)) hr)

theorem getLast?_ne_of_cons {a b : String} {l : List String} (h : (a :: l).getLast? ≠ some b) :
    l.getLast? ≠ some b := by
  cases l with
  | nil => exact nofun
  | cons c l => rwa [List.getLast?_cons_cons] at h

/-- A switch can be added anywhere, except after the end of the options and where it
would be taken for a path. -/
theorem Asks.insert_debug {o o' : Options} {before after : List String} (new : o.debug = false)
    (h : Asks o (before ++ after) (.run o')) (hnone : "--debug" ∉ before ++ after)
    (hstop : "--" ∉ before) (hpath : before.getLast? ≠ some "--config") :
    Asks o (before ++ "--debug" :: after) (.run { o' with debug := true }) := by
  -- Along what stands before the switch, item by item; an item may be two arguments.
  match before with
  | [] => exact .debug new (h.set_debug hnone)
  | a :: before =>
    generalize hargs : a :: before ++ after = args at h
    cases h with
    | nil => cases hargs
    | stop =>
      cases (List.cons.inj hargs).1
      exact absurd List.mem_cons_self hstop
    | debug =>
      cases (List.cons.inj hargs).1
      exact absurd List.mem_cons_self hnone
    | separate newPath ne dash rest =>
      cases before with
      | nil =>
        obtain ⟨rfl, -⟩ := List.cons.inj hargs
        exact absurd rfl hpath
      | cons p before =>
        obtain ⟨ha, hargs⟩ := List.cons.inj hargs
        obtain ⟨rfl, rfl⟩ := List.cons.inj hargs
        subst ha
        refine .separate newPath ne dash (rest.insert_debug new ?_ ?_ ?_)
        · exact fun hmem => hnone (List.mem_cons_of_mem _ (List.mem_cons_of_mem _ hmem))
        · exact fun hmem => hstop (List.mem_cons_of_mem _ (List.mem_cons_of_mem _ hmem))
        · exact getLast?_ne_of_cons (getLast?_ne_of_cons hpath)
    | attached newPath ne rest =>
      obtain ⟨rfl, rfl⟩ := List.cons.inj hargs
      refine .attached newPath ne (rest.insert_debug new ?_ ?_ ?_)
      · exact fun hmem => hnone (List.mem_cons_of_mem _ hmem)
      · exact fun hmem => hstop (List.mem_cons_of_mem _ hmem)
      · exact getLast?_ne_of_cons hpath

end Enrollment.CommandLine
