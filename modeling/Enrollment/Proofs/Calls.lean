import Enrollment.Proofs.FirstEntry
import Enrollment.Proofs.Room

/-!
# Calls

What can be asked of a registrar, and runs of calls, which go on whatever
became of the calls before.  A call decides on its answer and on what it has to
say by the register alone and brings register and log up to date; then it
publishes what it has to say, if anything (`perform_eq`).  So the register and
the log of a run depend on the calls only (`perform_register`, `perform_log`).
-/

namespace Enrollment

/-- What can be asked of a registrar. -/
inductive Call where
  | enter (s : Student)
  | list (order : Order)
  | get (id : String)
  | contains (id : String)
  | size

/-- What a call gives back when nothing fails. -/
inductive Answer where
  | entry (entry : Entry)
  | listed
  | student (s : Option Student)
  | taken (b : Bool)
  | count (n : Nat)
  deriving DecidableEq

namespace Call

/-- The student whom a call is to enter. -/
def student? : Call → Option Student
  | enter s => some s
  | _ => none

/-- The students whom calls are to enter, in order. -/
def entered (calls : List Call) : List Student :=
  calls.filterMap student?

/-! ## What a call does apart from writing -/

section Effect

variable (register : Register)

def answer : Call → Answer
  | enter s => .entry (register.enter s).1
  | list _ => .listed
  | get id => .student (register.get? id)
  | contains id => .taken (register.contains id)
  | size => .count register.size

/-- What a call has to say, in pieces. -/
def pieces (settings : Settings) : Call → Option (List String)
  | enter s => Registrar.notice settings s (register.enter s).1
  | list order => some (Registrar.listing settings (register.arranged order))
  | _ => none

/-- The bytes that a call has to write. -/
def said (settings : Settings) (c : Call) : Bytes :=
  (c.pieces register settings).elim [] fun ps => bytesOf (String.join ps)

def events : Call → List Event
  | enter s => [Registrar.entryEvent s (register.enter s).1]
  | list _ => [.listing register.size]
  | _ => []

/-- The register that a call leaves. -/
def registerAfter (c : Call) : Register :=
  register.enterAll c.student?.toList

end Effect

theorem entered_cons (c : Call) (calls : List Call) :
    entered (c :: calls) = c.student?.toList ++ entered calls := by
  cases c <;> rfl

/-- What a call has to say takes at least one byte. -/
theorem pieces_ne_nil {settings : Settings} {register : Register} {c : Call} {ps : List String}
    (h : c.pieces register settings = some ps) : bytesOf (String.join ps) ≠ [] := by
  cases c with
  | enter s =>
    simp only [pieces, Registrar.notice] at h
    split at h
    · cases h
      exact bytesOf_join_ne_nil List.mem_cons_self (by decide)
    · split at h
      · cases h
        exact bytesOf_join_ne_nil List.mem_cons_self (by decide)
      · cases h
  | list order =>
    -- the header may be empty, but the line break after it is there
    cases h
    exact bytesOf_join_ne_nil (List.mem_cons_of_mem _ List.mem_cons_self) (by decide)
  | get id => cases h
  | contains id => cases h
  | size => cases h

end Call

namespace Registrar

/-- Makes a call. -/
def perform (r : Registrar) : Call → Except SinkFault Answer × Registrar
  | .enter s => ((r.enter s).1.map .entry, (r.enter s).2)
  | .list order => ((r.listIn order).1.map fun _ => .listed, (r.listIn order).2)
  | .get id => (.ok (.student (r.register.get? id)), r)
  | .contains id => (.ok (.taken (r.register.contains id)), r)
  | .size => (.ok (.count r.register.size), r)

/-- The registrar after calls made one after another, whatever became of them. -/
def after (r : Registrar) (calls : List Call) : Registrar :=
  calls.foldl (fun r c => (r.perform c).2) r

/-- What calls made one after another give back. -/
def answers : Registrar → List Call → List (Except SinkFault Answer)
  | _, [] => []
  | r, c :: rest => (r.perform c).1 :: answers (r.perform c).2 rest

/-! ## One call -/

/-- The registrar with a call taken down, before anything is written. -/
def noted (r : Registrar) (c : Call) : Registrar :=
  { r with register := c.registerAfter r.register, log := r.log ++ c.events r.register }

theorem noted_eq_self {r : Registrar} {c : Call} (hstudent : c.student? = none)
    (hevents : c.events r.register = []) : r.noted c = r := by
  rw [noted, Call.registerAfter, hstudent, hevents, List.append_nil]
  rfl

/-- A call is taken down, and then it publishes what it has to say. -/
theorem perform_eq (r : Registrar) (c : Call) :
    r.perform c = match c.pieces r.register r.settings with
      | none => (.ok (c.answer r.register), r.noted c)
      | some ps => (((r.noted c).publish ps).1.map fun _ => c.answer r.register,
          ((r.noted c).publish ps).2) := by
  cases c with
  | enter s =>
    have hnoted : r.noted (.enter s) =
        { r with
          register := (r.register.enter s).2
          log := r.log ++ [entryEvent s (r.register.enter s).1] } := rfl
    simp only [perform, enter, Call.pieces, Call.answer, hnoted]
    cases notice r.settings s (r.register.enter s).1 with
    | none => rfl
    | some ps =>
      simp only
      rcases publish _ ps with ⟨_ | _, t⟩ <;> rfl
  | list order =>
    have hnoted : r.noted (.list order) =
        { r with log := r.log ++ [Event.listing r.register.size] } := rfl
    simp only [perform, listIn, Call.pieces, Call.answer, hnoted]
  | get id =>
    rw [noted_eq_self rfl rfl]
    rfl
  | contains id =>
    rw [noted_eq_self rfl rfl]
    rfl
  | size =>
    rw [noted_eq_self rfl rfl]
    rfl

theorem perform_of_pieces_eq_none {r : Registrar} {c : Call}
    (h : c.pieces r.register r.settings = none) :
    r.perform c = (.ok (c.answer r.register), r.noted c) := by
  rw [perform_eq, h]

theorem perform_published {r : Registrar} {c : Call} {ps : List String}
    (h : c.pieces r.register r.settings = some ps)
    (hroom : r.sink.device.admits r.sink.written.length = true) :
    Published r.sink (bytesOf (String.join ps)) (c.answer r.register) (r.perform c) := by
  have hpublish := publish_published (r := r.noted c) ps hroom
  rw [perform_eq, h]
  exact hpublish.map fun _ => c.answer r.register

/-- A sink that a call is over with has as much of what the call has to write as
there is room for. -/
theorem perform_sink {r : Registrar} (hroom : r.sink.device.admits r.sink.written.length = true)
    (c : Call) :
    (r.perform c).2.sink.device = r.sink.device ∧
      (r.perform c).2.sink.written =
        r.sink.device.clip (r.sink.written ++ c.said r.register r.settings) := by
  cases hp : c.pieces r.register r.settings with
  | none =>
    have hsaid : c.said r.register r.settings = [] := by rw [Call.said, hp, Option.elim_none]
    rw [perform_of_pieces_eq_none hp, hsaid, List.append_nil, Device.clip_of_admits hroom]
    exact ⟨rfl, rfl⟩
  | some ps =>
    have htold := perform_published hp hroom
    rw [Call.said, hp, Option.elim_some]
    exact ⟨htold.device, htold.written⟩

/-- A call changes the sink and takes itself down, and that is all. -/
theorem perform_snd (r : Registrar) (c : Call) :
    (r.perform c).2 = { r.noted c with sink := (r.perform c).2.sink } := by
  rw [perform_eq]
  split
  · rfl
  · exact publish_eq _ _

theorem perform_register (r : Registrar) (c : Call) :
    (r.perform c).2.register = c.registerAfter r.register := by
  rw [perform_snd, noted]

theorem perform_settings (r : Registrar) (c : Call) : (r.perform c).2.settings = r.settings := by
  rw [perform_snd, noted]

theorem perform_log (r : Registrar) (c : Call) :
    (r.perform c).2.log = r.log ++ c.events r.register := by
  rw [perform_snd, noted]

/-! ## Runs -/

theorem after_append (r : Registrar) (first later : List Call) :
    r.after (first ++ later) = (r.after first).after later :=
  List.foldl_append

theorem after_concat (r : Registrar) (calls : List Call) (c : Call) :
    r.after (calls ++ [c]) = ((r.after calls).perform c).2 :=
  after_append r calls [c]

theorem after_settings (r : Registrar) (calls : List Call) :
    (r.after calls).settings = r.settings := by
  induction calls generalizing r with
  | nil => rfl
  | cons c rest ih => exact (ih (r.perform c).2).trans (perform_settings r c)

/-- The register of a run is the one that its entries make, whatever else is
called and whatever the sink does. -/
theorem after_register (r : Registrar) (calls : List Call) :
    (r.after calls).register = r.register.enterAll (Call.entered calls) := by
  induction calls generalizing r with
  | nil => rfl
  | cons c rest ih =>
    have hrest : (r.after (c :: rest)).register = _ := ih (r.perform c).2
    rw [hrest, perform_register, Call.registerAfter, Call.entered_cons, Register.enterAll_append]

theorem after_holds (settings : Settings) (sink : Sink) (calls : List Call) :
    Register.Holds (Call.entered calls) ((fresh settings sink).after calls).register := by
  rw [after_register]
  exact Register.holds_enterAll _

theorem answers_concat (r : Registrar) (calls : List Call) (c : Call) :
    r.answers (calls ++ [c]) = r.answers calls ++ [((r.after calls).perform c).1] := by
  induction calls generalizing r with
  | nil => rfl
  | cons d rest ih => exact congrArg ((r.perform d).1 :: ·) (ih (r.perform d).2)

end Registrar

end Enrollment
