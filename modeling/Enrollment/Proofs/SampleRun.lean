import Enrollment.Program
import Enrollment.Proofs.Arguments
import Enrollment.Proofs.Listing

/-!
# The sample run and the program

On a sink that never fails the sample run succeeds and prints its announcements, if
they are wanted, and then a listing (`Sample.runIn_of_reliable`).  The program loads
settings and makes the sample run with them, so all that it shows is told from what
loading gives (`Program.run_loads_and_demonstrates`).
-/

namespace Enrollment

/-! ## Students who differ in their ids -/

theorem find?_eq_some_iff_mem {past : List Student} (h : (past.map Student.id).Nodup)
    {s : Student} :
    past.find? (·.id = s.id) = some s ↔ s ∈ past := by
  constructor
  · exact List.mem_of_find?_eq_some
  · intro hmem
    cases hfind : past.find? (·.id = s.id) with
    | none => simpa using List.find?_eq_none.1 hfind s hmem
    | some t =>
      have hid : t.id = s.id := by simpa using List.find?_some hfind
      rw [List.inj_on_of_nodup_map h (List.mem_of_find?_eq_some hfind) hmem hid]

/-- Where no two entries are made under one id, all those entered are listed. -/
theorem Register.Holds.arranged_perm {past : List Student} {r : Register} (h : r.Holds past)
    (hdistinct : (past.map Student.id).Nodup) (order : Order) : (r.arranged order).Perm past := by
  have henumerates := h.enumerates order
  rw [List.perm_ext_iff_of_nodup henumerates.1.of_map hdistinct.of_map]
  intro s
  rw [henumerates.2, find?_eq_some_iff_mem hdistinct]

namespace Sample

theorem enterAll_of_reliable {r : Registrar} (h : r.sink.device.Reliable)
    (students : List Student) :
    enterAll r students = (.ok (), r.after (students.map .enter)) := by
  induction students generalizing r with
  | nil => rfl
  | cons s rest ih =>
    obtain ⟨hresult, hdevice, -⟩ := Registrar.perform_reliable h (.enter s)
    have hok : ∃ entry, (r.enter s).1 = .ok entry := by
      cases henter : (r.enter s).1 with
      | error fault =>
        rw [Registrar.perform, henter] at hresult
        cases hresult
      | ok entry => exact ⟨entry, rfl⟩
    obtain ⟨entry, hentry⟩ := hok
    have hstep : r.enter s = (.ok entry, (r.enter s).2) := Prod.ext hentry rfl
    rw [enterAll, hstep]
    exact ih (hdevice.symm ▸ h)

theorem entered_map_enter (students : List Student) :
    Call.entered (students.map .enter) = students := by
  induction students with
  | nil => rfl
  | cons s rest ih => exact congrArg (s :: ·) ih

/-- The registrar in which students have been entered, whatever became of them. -/
def afterEntries (settings : Settings) (device : Device) (students : List Student) : Registrar :=
  (Registrar.fresh settings { device }).after (students.map .enter)

section AfterEntries

variable (settings : Settings) {device : Device} (students : List Student)

theorem afterEntries_concat (device : Device) (s : Student) :
    afterEntries settings device (students ++ [s]) =
      ((afterEntries settings device students).perform (.enter s)).2 := by
  rw [afterEntries, List.map_append, List.map_singleton, Registrar.after_concat, afterEntries]

theorem afterEntries_settings (device : Device) :
    (afterEntries settings device students).settings = settings :=
  Registrar.after_settings _ _

theorem afterEntries_holds (device : Device) :
    Register.Holds students (afterEntries settings device students).register := by
  have hholds := Registrar.after_holds settings { device } (students.map .enter)
  rwa [entered_map_enter] at hholds

theorem afterEntries_reliable (h : device.Reliable) :
    (afterEntries settings device students).sink.device.Reliable := by
  have hstart : (Registrar.fresh settings { device }).sink.device.Reliable := h
  exact Registrar.reliable_after hstart (students.map .enter)

end AfterEntries

/-- What is announced of students who are all new. -/
def announcements (settings : Settings) (students : List Student) : String :=
  if settings.announceAdditions then
    String.join (students.map fun s => "Added student: " ++ s.name ++ "\n")
  else ""

theorem announcements_append (settings : Settings) (first later : List Student) :
    announcements settings (first ++ later) =
      announcements settings first ++ announcements settings later := by
  rw [announcements, announcements, announcements]
  cases settings.announceAdditions with
  | true => simp only [if_true, List.map_append, String.join_append]
  | false => rfl

theorem said_of_new {past : List Student} {register : Register} (h : register.Holds past)
    (settings : Settings) {s : Student} (new : s.id ∉ past.map Student.id) :
    (Call.enter s).said register settings = bytesOf (announcements settings [s]) := by
  rw [Call.said, Call.pieces, h.enter_fst, if_neg new, Registrar.notice, announcements]
  cases settings.announceAdditions with
  | true =>
    rw [if_pos rfl, if_pos rfl, Option.elim_some, join_triple, List.map_singleton,
      String.join_cons, String.join_nil, String.append_empty]
  | false => rfl

theorem afterEntries_written (settings : Settings) {device : Device} (h : device.Reliable)
    {students : List Student} (hdistinct : (students.map Student.id).Nodup) :
    (afterEntries settings device students).sink.written =
      bytesOf (announcements settings students) := by
  -- From the right, as what comes of an entry depends on those made before it.
  induction students using List.reverseRecOn with
  | nil =>
    rw [announcements]
    cases settings.announceAdditions <;> rfl
  | append_singleton students s ih =>
    rw [List.map_append, List.nodup_append'] at hdistinct
    obtain ⟨hbefore, -, hnew⟩ := hdistinct
    have hnow := afterEntries_reliable settings students h
    have hwritten := (Registrar.perform_sink (hnow.admits _) (.enter s)).2
    rw [hnow.clip, afterEntries_settings, said_of_new (afterEntries_holds settings students device) _
      fun hmem => hnew hmem (List.mem_singleton_self s.id), ih hbefore, ← bytesOf_append,
      ← announcements_append] at hwritten
    rw [afterEntries_concat]
    exact hwritten

/-- The bytes are what a run that enters these students and then lists them prints, with the
lines of the listing in some order. -/
def Prints (settings : Settings) (students : List Student) (bs : Bytes) : Prop :=
  ∃ lines : List String, lines.Perm (students.map fun s => s.line ++ "\n") ∧
    bs = bytesOf (announcements settings students ++ settings.header ++ "\n" ++ String.join lines)

/-- Enters the students of the sample and lists them in some order. -/
def runIn (order : Order) (settings : Settings) (sink : Sink) : Except SinkFault Unit × Registrar :=
  match enterAll (.fresh settings sink) students with
  | (.error fault, r) => (.error fault, r)
  | (.ok (), r) => r.listIn order

theorem run_eq_runIn (settings : Settings) (sink : Sink) :
    run settings sink = runIn .entry settings sink :=
  rfl

theorem runIn_of_reliable (order : Order) (settings : Settings) {device : Device}
    (h : device.Reliable) :
    (runIn order settings { device }).1 = .ok () ∧
      Prints settings students (runIn order settings { device }).2.sink.written := by
  have hdistinct : (students.map Student.id).Nodup := by decide
  have hstart : (Registrar.fresh settings { device }).sink.device.Reliable := h
  have hentered : enterAll (.fresh settings { device }) students =
      (.ok (), afterEntries settings device students) := enterAll_of_reliable hstart students
  have hperm := (afterEntries_holds settings students device).arranged_perm hdistinct order
  obtain ⟨bs, hlists⟩ := Registrar.exists_lists
    (Registrar.listIn_ok_of_reliable (afterEntries_reliable settings students h) order)
  rw [runIn, hentered]
  refine ⟨hlists.ok, _, hperm.map _, hlists.written.trans ?_⟩
  rw [hlists.eq, afterEntries_settings, afterEntries_written settings h hdistinct, join_listing,
    ← bytesOf_append, ← String.append_assoc, ← String.append_assoc]
  rfl

/-- The sample run itself lists in the order of entry. -/
theorem run_free (settings : Settings) : (run settings {}).1 = .ok () ∧
    Prints settings students (run settings {}).2.sink.written := by
  rw [run_eq_runIn]
  exact runIn_of_reliable .entry settings ⟨rfl, fun _ => rfl⟩

end Sample

namespace Program

open CommandLine (Asks)

/-- What a run shows: all that it comes to but its log. -/
def Outcome.shown (o : Outcome) : Nat × Bytes × String :=
  (o.code, o.stdout, o.stderr)

section Runs

variable {files : Files} {env : Environment}

theorem shown_run_of_asks {args : List String} {options : CommandLine.Options}
    (h : Asks {} args (.run options)) :
    (run files env args).shown = (demonstrate files env options.config).shown := by
  rw [run, CommandLine.read, CommandLine.scan_of_asks h]
  simp only
  split <;> rfl

theorem shown_demonstrate_of_ok {path : Option String} {settings : Settings}
    (h : Settings.load files env path = .ok settings) :
    (demonstrate files env path).shown = (0, (Sample.run settings {}).2.sink.written, "") := by
  obtain ⟨hok, -⟩ := Sample.run_free settings
  rw [demonstrate, h]
  simp only
  rw [← Prod.eta (Sample.run settings {}), hok]
  rfl

theorem shown_demonstrate_of_error {path : Option String} {f : Settings.Failure}
    (h : Settings.load files env path = .error f) :
    (demonstrate files env path).shown = (1, [], report f.message f.reason) := by
  rw [demonstrate, h]
  rfl

end Runs

/-- The program loads settings and makes the sample run with them.  Where arguments ask for a
run and settings are loaded, it prints what the sample run puts in any sink that never fails, the
lines of the listing in some order; where loading fails it prints nothing and reports the failure.
Where arguments ask for nothing it prints nothing.  A switch for debugging that is added to
arguments with none changes nothing of this. -/
theorem run_loads_and_demonstrates (files : Files) (env : Environment) :
    (∀ args options, Asks {} args (.run options) →
      (∀ settings, Settings.load files env options.config = .ok settings →
        (run files env args).code = 0 ∧ (run files env args).stderr = "" ∧
        Sample.Prints settings Sample.students (run files env args).stdout ∧
        ∀ (order : Order) (device : Device), device.Reliable →
          let sampled := Sample.runIn order settings { device }
          sampled.1 = .ok () ∧ Sample.Prints settings Sample.students sampled.2.sink.written) ∧
      (∀ f, Settings.load files env options.config = .error f →
        (run files env args).code = 1 ∧ (run files env args).stdout = [] ∧
        (run files env args).stderr = report f.message f.reason)) ∧
    (∀ args, (∀ request, ¬Asks {} args request) →
      (run files env args).code = 2 ∧ (run files env args).stdout = []) ∧
    (∀ before after options, Asks {} (before ++ after) (.run options) →
      "--debug" ∉ before ++ after → "--" ∉ before → before.getLast? ≠ some "--config" →
      (run files env (before ++ "--debug" :: after)).shown =
        (run files env (before ++ after)).shown) := by
  refine ⟨fun args options hargs => ⟨fun settings hload => ?_, fun f hload => ?_⟩,
    fun args hargs => ?_, fun before after options hargs hnone hstop hpath => ?_⟩
  · have hshown := (shown_run_of_asks hargs).trans (shown_demonstrate_of_ok hload)
    obtain ⟨hcode, hrest⟩ := Prod.mk.inj hshown
    obtain ⟨hstdout, hstderr⟩ := Prod.mk.inj hrest
    refine ⟨hcode, hstderr, ?_, fun order device hdevice =>
      Sample.runIn_of_reliable order settings hdevice⟩
    rw [hstdout]
    exact (Sample.run_free settings).2
  · have hshown := (shown_run_of_asks hargs).trans (shown_demonstrate_of_error hload)
    obtain ⟨hcode, hrest⟩ := Prod.mk.inj hshown
    obtain ⟨hstdout, hstderr⟩ := Prod.mk.inj hrest
    exact ⟨hcode, hstdout, hstderr⟩
  · rw [run, CommandLine.read, CommandLine.scan_eq_misuse_iff.2 hargs]
    exact ⟨rfl, rfl⟩
  · have hmore := hargs.insert_debug rfl hnone hstop hpath
    rw [shown_run_of_asks hargs, shown_run_of_asks hmore]

theorem run_loads_and_demonstrates_two_files :
    let files := ((Files.empty default).write "good" (bytesOf "output.header = \"A\"\n")).write
      "bad" (bytesOf "output = \x7b")
    (run files [] ["--config", "good", "--"]).code = 0 ∧
      (Sample.runIn .entry ⟨"A", true⟩ { device := {} }).1 = .ok () ∧
      (run files [] ["--config=bad"]).code = 1 ∧
      (run files [] ["--config", "good", "--debug", "--debug"]).code = 2 ∧
      (run files [] ["--config", "good", "--debug", "--"]).shown =
        (run files [] ["--config", "good", "--"]).shown := by
  intro files
  have hgood : Settings.load files [] (some "good") = .ok ⟨"A", true⟩ := by decide +kernel
  have hbad : Settings.load files [] (some "bad") = .error (.unparsed "bad") := by decide +kernel
  have hrun : Asks {} ["--config", "good", "--"] (.run ⟨false, some "good"⟩) :=
    .separate rfl (by decide) (.inr (by decide)) (.stop _)
  have hfail : Asks {} ["--config=bad"] (.run ⟨false, some "bad"⟩) :=
    .attached (p := "bad") rfl (by decide) (.nil _)
  have hnone : ∀ request, ¬Asks {} ["--config", "good", "--debug", "--debug"] request :=
    CommandLine.scan_eq_misuse_iff.1 (by decide)
  obtain ⟨hasked, hrejected, hdebug⟩ := run_loads_and_demonstrates files []
  obtain ⟨hcode, -, -, hsample⟩ := (hasked _ _ hrun).1 _ hgood
  exact ⟨hcode, (hsample .entry {} ⟨rfl, fun _ => rfl⟩).1, ((hasked _ _ hfail).2 _ hbad).1,
    (hrejected _ hnone).1,
    hdebug ["--config", "good"] ["--"] _ hrun (by decide) (by decide) (by decide)⟩

end Program

end Enrollment
