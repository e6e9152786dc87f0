import Enrollment.Proofs.Calls

/-!
# The log retells the entries

Events are told here by what an observer is shown of them: a level, a message and an id
or a count.  `Logs` says which events one call adds to a log, given the entries made
before it and the log itself, and `Chronicle` puts the calls of a run together.  The
ids of the students whom a log says to have been inserted are the keys of the register,
in the same order (`after_insertedIds`), and from this one fact everything else follows
(`Registrar.log_retells`).  Whether the sink takes what is written plays no part.
-/

namespace Enrollment

/-! ## What an event is about -/

namespace Event

/-- The id that an event shows, if it shows one. -/
def id? : Event → Option String
  | inserted id => some id
  | rejected id => some id
  | listing _ => none
  | loading _ => none

/-- The count that an event shows, if it shows one. -/
def count? : Event → Option Nat
  | listing n => some n
  | inserted _ => none
  | rejected _ => none
  | loading _ => none

end Event

/-- The events that tell of a student inserted. -/
def insertions (log : List Event) : List Event :=
  log.filter (·.message = "inserted student")

/-- The ids of the students whom a log says to have been inserted. -/
def insertedIds (log : List Event) : List String :=
  (insertions log).filterMap Event.id?

theorem insertedIds_append (log events : List Event) :
    insertedIds (log ++ events) = insertedIds log ++ insertedIds events := by
  rw [insertedIds, insertions, List.filter_append, List.filterMap_append]
  rfl

/-- Every insertion shows an id. -/
theorem length_insertedIds (log : List Event) : (insertedIds log).length = (insertions log).length := by
  induction log with
  | nil => rfl
  | cons e log ih =>
    cases e with
    | inserted id => exact congrArg Nat.succ ih
    | rejected id => exact ih
    | listing n => exact ih
    | loading path => exact ih

/-! ## The events of a run -/

/-- The events that a call adds to a log, after the entries made before it. -/
inductive Logs (past : List Student) (log : List Event) : Call → List Event → Prop
  | enter {s : Student} {e : Event} (level : e.level.name = "DEBUG")
      (message : e.message = if s.id ∈ past.map Student.id then "rejected duplicate student id"
        else "inserted student")
      (id : e.id? = some s.id) : Logs past log (.enter s) [e]
  | list {order : Order} {e : Event} (level : e.level.name = "TRACE")
      (message : e.message = "listing students") (count : e.count? = some (insertions log).length) :
      Logs past log (.list order) [e]
  | get {id : String} : Logs past log (.get id) []
  | contains {id : String} : Logs past log (.contains id) []
  | size : Logs past log .size []

/-- The log of calls made one after another. -/
inductive Chronicle : List Call → List Event → Prop
  | nil : Chronicle [] []
  | concat {calls : List Call} {log events : List Event} {c : Call} (before : Chronicle calls log)
      (last : Logs (Call.entered calls) log c events) : Chronicle (calls ++ [c]) (log ++ events)

/-! ## The log and the register -/

theorem Register.keys_enter (r : Register) (s : Student) :
    (r.enter s).2.records.keys =
      r.records.keys ++ insertedIds [Registrar.entryEvent s (r.enter s).1] := by
  unfold Register.enter
  split
  · exact (List.append_nil _).symm
  · next h =>
    have hnew : s.id ∉ r.records.keys := fun hmem => h (Register.contains_iff.2 hmem)
    simp only [Entries.put_of_not_mem hnew, Entries.keys, List.map_append]
    rfl

theorem Call.keys_registerAfter (register : Register) (c : Call) :
    (c.registerAfter register).records.keys =
      register.records.keys ++ insertedIds (c.events register) := by
  cases c with
  | enter s => exact register.keys_enter s
  | list order => exact (List.append_nil _).symm
  | get id => exact (List.append_nil _).symm
  | contains id => exact (List.append_nil _).symm
  | size => exact (List.append_nil _).symm

namespace Registrar

/-- A call keeps the inserted ids the keys of the register. -/
theorem perform_insertedIds {r : Registrar} (h : insertedIds r.log = r.register.records.keys)
    (c : Call) : insertedIds (r.perform c).2.log = (r.perform c).2.register.records.keys := by
  rw [perform_log, perform_register, insertedIds_append, Call.keys_registerAfter, h]

theorem after_insertedIds {r : Registrar} (h : insertedIds r.log = r.register.records.keys)
    (calls : List Call) : insertedIds (r.after calls).log = (r.after calls).register.records.keys := by
  induction calls generalizing r with
  | nil => exact h
  | cons c rest ih => exact ih (perform_insertedIds h c)

theorem logs_events {past : List Student} {r : Registrar} (hholds : r.register.Holds past)
    (hids : insertedIds r.log = r.register.records.keys) (c : Call) :
    Logs past r.log c (c.events r.register) := by
  cases c with
  | enter s =>
    rw [Call.events, hholds.enter_fst]
    by_cases htaken : s.id ∈ past.map Student.id
    · rw [if_pos htaken]
      exact .enter rfl (if_pos htaken).symm rfl
    · rw [if_neg htaken]
      exact .enter rfl (if_neg htaken).symm rfl
  | list order =>
    have hcount : r.register.size = (insertions r.log).length := by
      rw [← length_insertedIds, hids, Entries.keys, List.length_map]
      rfl
    rw [Call.events, hcount]
    exact .list rfl rfl rfl
  | get id => exact .get
  | contains id => exact .contains
  | size => exact .size

theorem chronicle_after (settings : Settings) (sink : Sink) (calls : List Call) :
    Chronicle calls ((fresh settings sink).after calls).log := by
  induction calls using List.reverseRecOn with
  | nil => exact .nil
  | append_singleton calls c ih =>
    rw [after_concat, perform_log]
    exact ih.concat (logs_events (after_holds settings sink calls) (after_insertedIds rfl calls) c)

/-- Calls on a new registrar log what their chronicle says, whatever becomes of what they write.  At
every point the students who are said to have been inserted are those of the register, each of them
once, and every further call adds its own events to the log. -/
theorem log_retells (settings : Settings) (sink : Sink) (calls : List Call) :
    let r := (fresh settings sink).after calls
    Chronicle calls r.log ∧ (insertedIds r.log).Nodup ∧
      (∀ id, id ∈ insertedIds r.log ↔ r.register.contains id = true) ∧
      ∀ c, ∃ events, Logs (Call.entered calls) r.log c events ∧
        (r.perform c).2.log = r.log ++ events := by
  intro r
  have hids : insertedIds r.log = r.register.records.keys := after_insertedIds rfl calls
  refine ⟨chronicle_after settings sink calls, ?_, ?_, ?_⟩
  · rw [hids]
    exact r.register.distinct
  · intro id
    rw [hids, Register.contains_iff]
  · intro c
    exact ⟨_, logs_events (after_holds settings sink calls) hids c, perform_log r c⟩

end Registrar

end Enrollment
