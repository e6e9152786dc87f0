import Enrollment.Proofs.SampleRun

/-!
# Command lines as items

A command line that is understood is a list of items, each of which is one or two
arguments, and an end.  Items are read one after another, whatever follows them
(`scan_spell`), as long as they fit: each is allowed by itself and no option is given
twice.  Conversely what arguments ask for is found behind items that fit
(`Asks.exists_items`).  Whether items fit and which options they give does not depend on
their order (`scan_spell_perm`), and a path may stand apart from its option or be
attached to it (`scan_attach`).
-/

namespace Enrollment.CommandLine

/-- One item of a command line. -/
inductive Item where
  | debug
  | separate (path : String)
  | attached (path : String)
  deriving DecidableEq

namespace Item

/-- The arguments that an item is written as. -/
def words : Item → List String
  | debug => ["--debug"]
  | separate p => ["--config", p]
  | attached p => ["--config=" ++ p]

def path? : Item → Option String
  | debug => none
  | separate p => some p
  | attached p => some p

/-- No path is empty, and one that stands apart does not look like an option. -/
def Allowed : Item → Prop
  | debug => True
  | separate p => p ≠ "" ∧ (p = "-" ∨ p.toList.head? ≠ some '-')
  | attached p => p ≠ ""

instance : (i : Item) → Decidable i.Allowed
  | debug => inferInstanceAs (Decidable True)
  | separate p => inferInstanceAs (Decidable (p ≠ "" ∧ (p = "-" ∨ p.toList.head? ≠ some '-')))
  | attached p => inferInstanceAs (Decidable (p ≠ ""))

end Item

def spell (items : List Item) : List String :=
  items.flatMap Item.words

/-- The paths that items give. -/
def paths (items : List Item) : List String :=
  items.filterMap Item.path?

/-- Options with those that items give. -/
def Options.add (o : Options) (items : List Item) : Options :=
  ⟨o.debug || decide (.debug ∈ items), o.config.or (paths items).head?⟩

/-- Items go together with options that are given already: none of them is given twice. -/
structure Fits (o : Options) (items : List Item) : Prop where
  allowed : ∀ i ∈ items, i.Allowed
  debug_once : o.debug.toNat + items.count .debug ≤ 1
  config_once : o.config.toList.length + (paths items).length ≤ 1

instance (o : Options) (items : List Item) : Decidable (Fits o items) :=
  decidable_of_iff ((∀ i ∈ items, i.Allowed) ∧ o.debug.toNat + items.count .debug ≤ 1 ∧
    o.config.toList.length + (paths items).length ≤ 1)
    ⟨fun ⟨h, hd, hc⟩ => ⟨h, hd, hc⟩, fun ⟨h, hd, hc⟩ => ⟨h, hd, hc⟩⟩

/-! ## Items one by one -/

theorem fits_nil (o : Options) : Fits o [] := by
  refine ⟨by simp, ?_, ?_⟩
  · exact Bool.toNat_le o.debug
  · cases o.config <;> simp [paths]

theorem add_nil (o : Options) : o.add [] = o := by
  rw [Options.add, paths, List.filterMap_nil, List.head?_nil, Option.or_none]
  simp

section Cons

variable (o : Options) (p : String) (items : List Item)

theorem fits_debug : Fits o (.debug :: items) ↔ o.debug = false ∧ Fits { o with debug := true } items := by
  have hpaths : paths (.debug :: items) = paths items := rfl
  constructor
  · rintro ⟨hallowed, hdebug, hconfig⟩
    rw [List.count_cons_self] at hdebug
    refine ⟨?_, fun i hi => hallowed i (List.mem_cons_of_mem _ hi), ?_, hconfig⟩
    · cases h : o.debug with
      | false => rfl
      | true =>
        rw [h, Bool.toNat_true] at hdebug
        omega
    · simp only [Bool.toNat_true]
      omega
  · rintro ⟨hnew, hallowed, hdebug, hconfig⟩
    refine ⟨List.forall_mem_cons.2 ⟨trivial, hallowed⟩, ?_, hconfig⟩
    rw [List.count_cons_self, hnew]
    simp only [Bool.toNat_true, Bool.toNat_false] at hdebug ⊢
    omega

theorem fits_path {i : Item} (hi : i.path? = some p) : Fits o (i :: items) ↔
    i.Allowed ∧ o.config = none ∧ Fits { o with config := some p } items := by
  have hpaths : paths (i :: items) = p :: paths items := by
    rw [paths, List.filterMap_cons_some hi, paths]
  have hne : i ≠ .debug := by
    rintro rfl
    cases hi
  constructor
  · rintro ⟨hallowed, hdebug, hconfig⟩
    rw [List.count_cons_of_ne hne] at hdebug
    rw [hpaths, List.length_cons] at hconfig
    have hnone : o.config = none := by
      cases h : o.config with
      | none => rfl
      | some q =>
        rw [h, Option.toList_some, List.length_singleton] at hconfig
        omega
    refine ⟨hallowed i List.mem_cons_self, hnone,
      fun j hj => hallowed j (List.mem_cons_of_mem _ hj), hdebug, ?_⟩
    simp only [Option.toList_some, List.length_singleton]
    omega
  · rintro ⟨hi, hnew, hallowed, hdebug, hconfig⟩
    refine ⟨List.forall_mem_cons.2 ⟨hi, hallowed⟩, ?_, ?_⟩
    · rw [List.count_cons_of_ne hne]
      exact hdebug
    · rw [hpaths, hnew, List.length_cons]
      simp only [Option.toList_some, Option.toList_none, List.length_singleton, List.length_nil]
        at hconfig ⊢
      omega

theorem add_debug : o.add (.debug :: items) = ({ o with debug := true } : Options).add items := by
  have hpaths : paths (.debug :: items) = paths items := rfl
  rw [Options.add, Options.add, hpaths]
  simp

theorem add_path {i : Item} (hi : i.path? = some p) (hnew : o.config = none) :
    o.add (i :: items) = ({ o with config := some p } : Options).add items := by
  have hne : .debug ≠ i := by
    rintro rfl
    cases hi
  rw [Options.add, Options.add, paths, List.filterMap_cons_some hi, hnew]
  simp [hne]

end Cons

/-! ## Reading items -/

theorem scan_path {i : Item} {p : String} (hi : i.path? = some p) (o : Options)
    (rest : List String) : scan o (i.words ++ rest) =
      if o.config = none ∧ i.Allowed then scan { o with config := some p } rest else .misuse := by
  cases i with
  | debug => cases hi
  | separate q =>
    cases hi
    exact (scan_separate o p rest).trans (if_congr (and_congr_right' isPath_iff) rfl rfl)
  | attached q =>
    cases hi
    exact scan_attached o p rest

/-- Items in front are read one after another, and they are misuse unless they fit. -/
theorem scan_spell (o : Options) (items : List Item) (rest : List String) :
    scan o (spell items ++ rest) =
      if Fits o items then scan (o.add items) rest else .misuse := by
  induction items generalizing o with
  | nil =>
    rw [if_pos (fits_nil o), add_nil]
    rfl
  | cons i items ih =>
    have hspell : spell (i :: items) ++ rest = i.words ++ (spell items ++ rest) :=
      List.append_assoc _ _ _
    rw [hspell]
    cases hi : i.path? with
    | none =>
      obtain rfl : i = .debug := by
        cases i with
        | debug => rfl
        | separate p => cases hi
        | attached p => cases hi
      rw [add_debug, if_congr (fits_debug o items) rfl rfl]
      refine (scan_debug o (spell items ++ rest)).trans ?_
      rw [ih]
      cases o.debug with
      | false => simp only [Bool.false_eq_true, if_false, true_and]
      | true => simp only [if_true, Bool.true_eq_false, false_and, if_false]
    | some p =>
      rw [scan_path hi, ih, if_congr (fits_path o p items hi) rfl rfl]
      by_cases hnew : o.config = none
      · rw [add_path o p items hi hnew]
        by_cases hallowed : i.Allowed
        · simp only [hnew, hallowed, true_and, and_self, if_true]
        · simp only [hallowed, and_false, false_and, if_false]
      · simp only [hnew, false_and, and_false, if_false]

/-! ## The order of items -/

section Perm

variable {items items' : List Item} (h : items.Perm items')

include h in
theorem fits_perm (o : Options) : Fits o items ↔ Fits o items' := by
  have hpaths : (paths items).length = (paths items').length := (h.filterMap Item.path?).length_eq
  constructor
  · rintro ⟨hallowed, hdebug, hconfig⟩
    exact ⟨fun i hi => hallowed i (h.mem_iff.2 hi), h.count_eq .debug ▸ hdebug, hpaths ▸ hconfig⟩
  · rintro ⟨hallowed, hdebug, hconfig⟩
    exact ⟨fun i hi => hallowed i (h.mem_iff.1 hi), h.count_eq .debug ▸ hdebug, hpaths ▸ hconfig⟩

include h in
theorem add_perm {o : Options} (hfits : Fits o items) : o.add items = o.add items' := by
  have hperm : (paths items).Perm (paths items') := h.filterMap Item.path?
  have hlen : (paths items).length ≤ 1 := Nat.le_of_add_left_le hfits.config_once
  -- There is at most one path, so there is nothing to rearrange.
  have hpaths : paths items = paths items' := by
    match hone : paths items with
    | [] => exact (hone ▸ hperm).nil_eq
    | [p] => exact (List.perm_singleton.1 (hone ▸ hperm).symm).symm
    | p :: q :: rest =>
      rw [hone] at hlen
      simp at hlen
  rw [Options.add, Options.add, hpaths, decide_eq_decide.2 h.mem_iff]

include h in
/-- Items may come in any order, whatever follows them and whether they fit or not. -/
theorem scan_spell_perm (o : Options) (rest : List String) :
    scan o (spell items ++ rest) = scan o (spell items' ++ rest) := by
  rw [scan_spell, scan_spell]
  by_cases hfits : Fits o items
  · rw [if_pos hfits, if_pos ((fits_perm h o).1 hfits), add_perm h hfits]
  · rw [if_neg hfits, if_neg (mt (fits_perm h o).2 hfits)]

end Perm

/-! ## A path apart or attached -/

/-- Behind an argument that stands by itself, only what the further ones are read as counts. -/
theorem scan_congr {a : String} (ha : a ≠ "--config") {rest rest' : List String} (hne : rest ≠ [])
    (hne' : rest' ≠ []) (h : ∀ o, scan o rest = scan o rest') (o : Options) :
    scan o (a :: rest) = scan o (a :: rest') := by
  rw [scan, scan]
  · simp only [hne, hne', h]
  all_goals exact fun _ _ h => absurd h ha

theorem isPath_attached (p : String) : isPath ("--config=" ++ p) = false := by
  rw [Bool.eq_false_iff, Ne, isPath_iff]
  rintro ⟨-, hdash | hhead⟩
  · exact attached_ne (.inr (by simp)) hdash
  · apply hhead
    simp

section Attach

variable {p : String} (hp : (Item.separate p).Allowed) (after : List String)

include hp in
/-- A path that may stand apart from its option may as well be attached to it, at any place. -/
theorem scan_attach (o : Options) (before : List String) :
    scan o (before ++ "--config" :: p :: after) = scan o (before ++ ("--config=" ++ p) :: after) := by
  match before with
  | [] =>
    have happart := scan_path (i := .separate p) rfl o after
    have hattached := scan_path (i := .attached p) rfl o after
    have hne : (Item.attached p).Allowed := hp.1
    rw [if_congr (and_iff_left hp) rfl rfl] at happart
    rw [if_congr (and_iff_left hne) rfl rfl] at hattached
    exact happart.trans hattached.symm
  | a :: before =>
    by_cases ha : a = "--config"
    · subst ha
      -- The argument after this one is its path, and neither of the two that differ can be one.
      match before with
      | [] =>
        have hoption : isPath "--config" = false := by decide
        have hattached := isPath_attached p
        rw [List.cons_append, List.cons_append, List.nil_append, List.nil_append, scan_separate,
          scan_separate, hoption, hattached]
        simp
      | q :: before =>
        rw [List.cons_append, List.cons_append, List.cons_append, List.cons_append, scan_separate,
          scan_separate, scan_attach _ before]
    · exact scan_congr ha (by simp) (by simp) (fun o => scan_attach o before) o

end Attach

/-! ## What arguments are made of -/

/-- What may stand behind items that give some options, and what it asks for. -/
inductive Ends (o : Options) : List String → Request → Prop
  | nil : Ends o [] (.run o)
  | stop : Ends o ["--"] (.run o)
  | help {a : String} (h : a = "--help" ∨ ∃ more, a = "-h" ++ more) (rest : List String) :
      Ends o (a :: rest) .help

theorem Ends.asks {o : Options} {args : List String} {r : Request} (h : Ends o args r) :
    Asks o args r := by
  cases h with
  | nil => exact .nil o
  | stop => exact .stop o
  | help h rest =>
    rcases h with rfl | ⟨more, rfl⟩
    · exact .help o rest
    · exact .short o more rest

/-- Arguments that ask for something are items that fit and an end. -/
theorem Asks.exists_items {o : Options} {args : List String} {r : Request} (h : Asks o args r) :
    ∃ items rest, Fits o items ∧ args = spell items ++ rest ∧ Ends (o.add items) rest r := by
  induction h with
  | nil o => exact ⟨[], [], fits_nil o, rfl, (add_nil o).symm ▸ .nil⟩
  | stop o => exact ⟨[], _, fits_nil o, rfl, (add_nil o).symm ▸ .stop⟩
  | help o rest => exact ⟨[], _, fits_nil o, rfl, .help (.inl rfl) rest⟩
  | short o more rest => exact ⟨[], _, fits_nil o, rfl, .help (.inr ⟨more, rfl⟩) rest⟩
  | @debug o _ _ new _ ih =>
    obtain ⟨items, rest, hfits, rfl, hends⟩ := ih
    exact ⟨.debug :: items, rest, (fits_debug o items).2 ⟨new, hfits⟩, rfl,
      (add_debug o items).symm ▸ hends⟩
  | @separate o p _ _ new ne dash _ ih =>
    obtain ⟨items, rest, hfits, rfl, hends⟩ := ih
    exact ⟨.separate p :: items, rest, (fits_path o p items rfl).2 ⟨⟨ne, dash⟩, new, hfits⟩, rfl,
      (add_path (i := .separate p) o p items rfl new).symm ▸ hends⟩
  | @attached o p _ _ new ne _ ih =>
    obtain ⟨items, rest, hfits, rfl, hends⟩ := ih
    exact ⟨.attached p :: items, rest, (fits_path o p items rfl).2 ⟨ne, new, hfits⟩, rfl,
      (add_path (i := .attached p) o p items rfl new).symm ▸ hends⟩

theorem read_eq_iff {args : List String} {r : Request} (hr : r ≠ .misuse) :
    read args = r ↔ ∃ items rest, Fits {} items ∧ args = spell items ++ rest ∧
      Ends (({} : Options).add items) rest r := by
  constructor
  · rintro rfl
    exact ((asks_scan {} args).resolve_left hr).exists_items
  · rintro ⟨items, rest, hfits, rfl, hends⟩
    rw [read, scan_spell, if_pos hfits]
    exact scan_of_asks hends.asks

theorem read_eq_run_iff {args : List String} {o : Options} :
    read args = .run o ↔ ∃ items, Fits {} items ∧ o = ({} : Options).add items ∧
      (args = spell items ∨ args = spell items ++ ["--"]) := by
  rw [read_eq_iff (by simp)]
  constructor
  · rintro ⟨items, rest, hfits, rfl, hends⟩
    cases hends with
    | nil => exact ⟨items, hfits, rfl, .inl (List.append_nil _)⟩
    | stop => exact ⟨items, hfits, rfl, .inr rfl⟩
  · rintro ⟨items, hfits, rfl, rfl | rfl⟩
    · exact ⟨items, [], hfits, (List.append_nil _).symm, .nil⟩
    · exact ⟨items, _, hfits, rfl, .stop⟩

theorem read_eq_help_iff {args : List String} :
    read args = .help ↔ ∃ items a rest, Fits {} items ∧
      (a = "--help" ∨ ∃ more, a = "-h" ++ more) ∧ args = spell items ++ a :: rest := by
  rw [read_eq_iff (by simp)]
  constructor
  · rintro ⟨items, _, hfits, rfl, hends⟩
    cases hends with
    | help hhelp rest => exact ⟨items, _, rest, hfits, hhelp, rfl⟩
  · rintro ⟨items, a, rest, hfits, hhelp, rfl⟩
    exact ⟨items, _, hfits, rfl, .help hhelp rest⟩

end Enrollment.CommandLine

namespace Enrollment.Program

open CommandLine (Item Options Fits spell)

section

variable {files : Files} {env : Environment} {args : List String}

theorem run_of_read_eq_run {o : Options} (h : CommandLine.read args = .run o) :
    (run files env args).shown = (demonstrate files env o.config).shown ∧
      (run files env args).log = if o.debug then (demonstrate files env o.config).log else [] := by
  rw [run, h]
  cases hdebug : o.debug <;> simp [hdebug, Outcome.shown]

theorem run_of_read_eq_help (h : CommandLine.read args = .help) :
    run files env args = { code := 0, stdout := bytesOf (helpText env) } := by
  rw [run, h]

theorem code_demonstrate_ne (files : Files) (env : Environment) (path : Option String) :
    (demonstrate files env path).code ≠ 2 := by
  cases hload : Settings.load files env path with
  | ok settings =>
    have hcode := congrArg Prod.fst (shown_demonstrate_of_ok hload)
    exact fun h => nomatch hcode.symm.trans h
  | error f =>
    have hcode := congrArg Prod.fst (shown_demonstrate_of_error hload)
    exact fun h => nomatch hcode.symm.trans h

theorem code_run_eq_two_iff :
    (run files env args).code = 2 ↔ CommandLine.read args = .misuse := by
  cases h : CommandLine.read args with
  | help => simp [run_of_read_eq_help h]
  | misuse => simp [run, h]
  | run o =>
    have hcode : (run files env args).code = (demonstrate files env o.config).code :=
      congrArg Prod.fst (run_of_read_eq_run h).1
    simp [hcode, code_demonstrate_ne]

end

/-- The program is run on items.  It loads settings and makes the sample run with the options of
items that fit, and nothing but the end of options may follow them; it prints the help where items
that fit are followed by a request for it; it takes everything else for misuse.  A path may stand
apart from its option or be attached to it, and items may come in any order. -/
theorem run_follows_items (files : Files) (env : Environment) :
    (∀ args o, CommandLine.read args = .run o ↔ ∃ items, Fits {} items ∧
      o = ({} : Options).add items ∧ (args = spell items ∨ args = spell items ++ ["--"])) ∧
    (∀ args, CommandLine.read args = .help ↔ ∃ items a rest, Fits {} items ∧
      (a = "--help" ∨ ∃ more, a = "-h" ++ more) ∧ args = spell items ++ a :: rest) ∧
    (∀ args o, CommandLine.read args = .run o →
      (run files env args).shown = (demonstrate files env o.config).shown ∧
      (run files env args).log = if o.debug then (demonstrate files env o.config).log else []) ∧
    (∀ args, CommandLine.read args = .help →
      run files env args = { code := 0, stdout := bytesOf (helpText env) }) ∧
    (∀ args, (run files env args).code = 2 ↔
      (∀ o, CommandLine.read args ≠ .run o) ∧ CommandLine.read args ≠ .help) ∧
    (∀ before after p, (Item.separate p).Allowed →
      run files env (before ++ "--config" :: p :: after) =
        run files env (before ++ ("--config=" ++ p) :: after)) ∧
    (∀ items items' rest, items.Perm items' →
      run files env (spell items ++ rest) = run files env (spell items' ++ rest)) := by
  refine ⟨fun _ _ => CommandLine.read_eq_run_iff, fun _ => CommandLine.read_eq_help_iff,
    fun _ _ => run_of_read_eq_run, fun _ => run_of_read_eq_help, fun args => ?_,
    fun before after p hp => ?_, fun items items' rest hperm => ?_⟩
  · rw [code_run_eq_two_iff]
    cases CommandLine.read args <;> simp
  · rw [run, run, CommandLine.read, CommandLine.read, CommandLine.scan_attach hp]
  · rw [run, run, CommandLine.read, CommandLine.read, CommandLine.scan_spell_perm hperm]

/-- A path that is a dash may stand apart; one that looks like an option may not.  A request for help
counts behind items that fit, and not behind a switch given twice. -/
theorem run_follows_items_dashes :
    let files := Files.empty default
    CommandLine.read ["--config", "-", "--debug", "--"] = .run ⟨true, some "-"⟩ ∧
      (run files [] ["--config", "-", "--debug"]).shown = (demonstrate files [] (some "-")).shown ∧
      run files [] ["--debug", "--config=-"] = run files [] ["--config", "-", "--debug"] ∧
      (run files [] ["--config=--debug", "-hV", "--config"]).code = 0 ∧
      (run files [] ["--config", "--debug"]).code = 2 ∧
      (run files [] ["--debug", "--debug", "--help"]).code = 2 := by
  intro files
  obtain ⟨hrun, hhelp, hdemonstrated, hprinted, hmisuse, hattach, hperm⟩ :=
    run_follows_items files []
  have hitems : Fits {} [.separate "-", .debug] := by decide
  have hread : CommandLine.read ["--config", "-", "--debug"] = .run ⟨true, some "-"⟩ :=
    (hrun _ _).2 ⟨_, hitems, rfl, .inl rfl⟩
  have hasked : CommandLine.read ["--config=--debug", "-hV", "--config"] = .help :=
    (hhelp _).2 ⟨[.attached "--debug"], "-hV", ["--config"], by decide, .inr ⟨"V", rfl⟩, rfl⟩
  have hmissing : CommandLine.read ["--config", "--debug"] = .misuse := by decide
  have htwice : CommandLine.read ["--debug", "--debug", "--help"] = .misuse := by decide
  refine ⟨(hrun _ _).2 ⟨_, hitems, rfl, .inr rfl⟩, (hdemonstrated _ _ hread).1, ?_, ?_, ?_, ?_⟩
  · have horder := hperm [.separate "-", .debug] [.debug, .separate "-"] [] (List.Perm.swap _ _ _)
    have hattached := hattach ["--debug"] [] "-" (by decide)
    exact hattached.symm.trans horder.symm
  · rw [hprinted _ hasked]
  · rw [hmisuse, hmissing]
    simp
  · rw [hmisuse, htwice]
    simp

end Enrollment.Program
