import Enrollment.Proofs.Calls
import Mathlib.Data.List.Infix

/-!
# Transcripts

What a run of calls writes is told here from the history of its entries, with
no register: `Reports` gives the answer and the text of one call and
`Transcript` those of a run.  A call reports what the history says
(`reports_of_holds`), so on a sink that never fails a run answers and writes as
its transcript says, and every text is followed by one flush.
-/

namespace Enrollment

/-- The students are those entered first under each id, each of them once. -/
def Enumerates (past students : List Student) : Prop :=
  (students.map Student.id).Nodup ∧
    ∀ s, s ∈ students ↔ past.find? (·.id = s.id) = some s

/-- What a call comes to when nothing fails. -/
structure Report where
  answer : Answer
  /-- What the call writes, unless it is silent. -/
  text : Option String

/-- What a call comes to after the entries made before it. -/
inductive Reports (settings : Settings) (past : List Student) : Call → Report → Prop
  | duplicate {s : Student} (taken : s.id ∈ past.map Student.id) :
      Reports settings past (.enter s)
        ⟨.entry .duplicate, some ("Student with ID " ++ s.id ++ " already exists\n")⟩
  | announced {s : Student} (new : s.id ∉ past.map Student.id)
      (loud : settings.announceAdditions = true) :
      Reports settings past (.enter s) ⟨.entry .added, some ("Added student: " ++ s.name ++ "\n")⟩
  | silent {s : Student} (new : s.id ∉ past.map Student.id)
      (quiet : settings.announceAdditions = false) :
      Reports settings past (.enter s) ⟨.entry .added, none⟩
  | listing {order : Order} {students : List Student} (all : Enumerates past students) :
      Reports settings past (.list order)
        ⟨.listed, some (settings.header ++ "\n" ++ String.join (students.map fun s =>
          "ID: " ++ s.id ++ ", Name: " ++ s.name ++ ", Age: " ++ toString s.age.toInt ++ "\n"))⟩
  | get {id : String} :
      Reports settings past (.get id) ⟨.student (past.find? (·.id = id)), none⟩
  | contains {id : String} :
      Reports settings past (.contains id) ⟨.taken (decide (id ∈ past.map Student.id)), none⟩
  | size {students : List Student} (all : Enumerates past students) :
      Reports settings past .size ⟨.count students.length, none⟩

/-- What calls come to, one after another, after the entries made before them. -/
inductive Transcript (settings : Settings) : List Student → List Call → List Report → Prop
  | nil {past : List Student} : Transcript settings past [] []
  | cons {past : List Student} {c : Call} {calls : List Call} {report : Report}
      {reports : List Report} (first : Reports settings past c report)
      (rest : Transcript settings (past ++ c.student?.toList) calls reports) :
      Transcript settings past (c :: calls) (report :: reports)

/-- The texts of reports, in order. -/
def texts (reports : List Report) : List String :=
  reports.filterMap Report.text

theorem texts_concat (reports : List Report) (report : Report) :
    texts (reports ++ [report]) = texts reports ++ report.text.toList := by
  rw [texts, List.filterMap_append]
  rcases report with ⟨answer, _ | text⟩ <;> rfl

theorem Transcript.concat {settings : Settings} {past : List Student} {calls : List Call}
    {reports : List Report} {c : Call} {report : Report}
    (h : Transcript settings past calls reports)
    (last : Reports settings (past ++ Call.entered calls) c report) :
    Transcript settings past (calls ++ [c]) (reports ++ [report]) := by
  induction h with
  | nil =>
    rw [Call.entered, List.filterMap_nil, List.append_nil] at last
    exact .cons last .nil
  | cons first _ ih =>
    rw [Call.entered_cons, ← List.append_assoc] at last
    exact .cons first (ih last)

/-! ## A call reports what the history says -/

theorem Register.Holds.enumerates {past : List Student} {r : Register} (h : r.Holds past)
    (order : Order) : Enumerates past (r.arranged order) := by
  refine ⟨r.nodup_map_id_arranged order, fun s => ?_⟩
  rw [Register.mem_arranged_iff, h s.id]

theorem join_triple (s t u : String) : String.join [s, t, u] = s ++ t ++ u := by
  rw [String.join_cons, String.join_cons, String.join_cons, String.join_nil, String.append_empty,
    String.append_assoc]

theorem join_listing (settings : Settings) (students : List Student) :
    String.join (Registrar.listing settings students) =
      settings.header ++ "\n" ++ String.join (students.map fun s =>
        "ID: " ++ s.id ++ ", Name: " ++ s.name ++ ", Age: " ++ toString s.age.toInt ++ "\n") := by
  have hlines : String.join (students.flatMap fun s => [s.line, "\n"]) =
      String.join (students.map fun s =>
        "ID: " ++ s.id ++ ", Name: " ++ s.name ++ ", Age: " ++ toString s.age.toInt ++ "\n") := by
    induction students with
    | nil => rfl
    | cons s rest ih =>
      rw [List.flatMap_cons, String.join_append, ih, List.map_cons, String.join_cons,
        String.join_cons, String.join_cons, String.join_nil, String.append_empty]
      rfl
  rw [Registrar.listing, String.join_cons, String.join_cons, hlines, ← String.append_assoc]

theorem reports_of_holds {past : List Student} {register : Register}
    (h : register.Holds past) (settings : Settings) (c : Call) :
    Reports settings past c
      ⟨c.answer register, (c.pieces register settings).map String.join⟩ := by
  cases c with
  | enter s =>
    simp only [Call.answer, Call.pieces, h.enter_fst s]
    by_cases htaken : s.id ∈ past.map Student.id
    · rw [if_pos htaken, Registrar.notice, Option.map_some, join_triple]
      exact .duplicate htaken
    · rw [if_neg htaken, Registrar.notice]
      cases hloud : settings.announceAdditions with
      | true =>
        rw [if_pos rfl, Option.map_some, join_triple]
        exact .announced htaken hloud
      | false => exact .silent htaken hloud
  | list order =>
    rw [Call.pieces, Option.map_some, join_listing]
    exact .listing (h.enumerates order)
  | get id =>
    rw [Call.answer, h id]
    exact .get
  | contains id =>
    have htaken : register.contains id = decide (id ∈ past.map Student.id) := by
      rw [Bool.eq_iff_iff, h.contains_iff, decide_eq_true_iff]
    rw [Call.answer, htaken]
    exact .contains
  | size =>
    have hsize : register.size = (register.arranged .entry).length := by
      rw [(register.arranged_perm .entry).length_eq, Register.students, List.length_map]
      rfl
    rw [Call.answer, hsize]
    exact .size (h.enumerates .entry)

/-! ## On a sink that never fails -/

namespace Registrar

/-- On a sink that never fails a call gives its answer back, and a text is
written in full and followed by a flush. -/
theorem perform_reliable {r : Registrar} (h : r.sink.device.Reliable) (c : Call) :
    (r.perform c).1 = .ok (c.answer r.register) ∧
      (r.perform c).2.sink.device = r.sink.device ∧
      match (c.pieces r.register r.settings).map String.join with
      | none => (r.perform c).2.sink = r.sink
      | some text =>
        (r.perform c).2.sink.written = r.sink.written ++ bytesOf text ∧
          (r.perform c).2.sink.marks =
            r.sink.marks ++ [(r.sink.written ++ bytesOf text).length] := by
  cases hp : c.pieces r.register r.settings with
  | none =>
    rw [perform_of_pieces_eq_none hp]
    exact ⟨rfl, rfl, rfl⟩
  | some ps =>
    obtain ⟨hdevice, hwritten, hmarks, hresult⟩ := perform_published hp (h.admits _)
    rw [if_pos (h.admits _), h.flushes] at hresult
    rw [h.clip] at hwritten
    rw [if_pos (h.admits _)] at hmarks
    exact ⟨hresult, hdevice, hwritten, hmarks⟩

theorem after_device {r : Registrar} (h : r.sink.device.Reliable) (calls : List Call) :
    (r.after calls).sink.device = r.sink.device := by
  induction calls generalizing r with
  | nil => rfl
  | cons c rest ih =>
    have hdevice := (perform_reliable h c).2.1
    exact (ih (hdevice.symm ▸ h)).trans hdevice

theorem reliable_after {r : Registrar} (h : r.sink.device.Reliable) (calls : List Call) :
    (r.after calls).sink.device.Reliable := by
  rw [after_device h calls]
  exact h

/-- For each text, the number of bytes up to its end. -/
def ends (texts : List String) : List Nat :=
  texts.inits.tail.map fun upTo => (bytesOf (String.join upTo)).length

theorem ends_concat (ts : List String) (t : String) :
    ends (ts ++ [t]) = ends ts ++ [(bytesOf (String.join (ts ++ [t]))).length] := by
  have hne : ts.inits ≠ [] := by
    cases ts <;> exact List.cons_ne_nil _ _
  rw [ends, List.inits_append, List.tail_append_of_ne_nil hne, List.map_append]
  rfl

/-- On a sink that never fails, calls on a new registrar all succeed, with the answers and the
texts of their transcript, and the sink is flushed at the end of each text and at no other time. -/
theorem run_transcript (settings : Settings) (device : Device) (calls : List Call) :
    let start := fresh settings
      { device := { device with limit := none, flushFails := fun _ => false } }
    ∃ reports, Transcript settings [] calls reports ∧
      start.answers calls = reports.map (fun report => .ok report.answer) ∧
      (start.after calls).sink.written = bytesOf (String.join (texts reports)) ∧
      (start.after calls).sink.marks = ends (texts reports) := by
  intro start
  have hstart : start.sink.device.Reliable := ⟨rfl, fun _ => rfl⟩
  induction calls using List.reverseRecOn with
  | nil => exact ⟨[], .nil, rfl, rfl, rfl⟩
  | append_singleton calls c ih =>
    obtain ⟨reports, htranscript, hanswers, hwritten, hmarks⟩ := ih
    have hnow : (start.after calls).sink.device.Reliable := (after_device hstart calls).symm ▸ hstart
    have hholds : (start.after calls).register.Holds (Call.entered calls) := after_holds _ _ _
    have hreport := reports_of_holds hholds settings c
    obtain ⟨hresult, -, hsink⟩ := perform_reliable hnow c
    have hsettings : (start.after calls).settings = settings := after_settings start calls
    rw [hsettings] at hsink
    refine ⟨reports ++ [_], htranscript.concat hreport, ?_, ?_⟩
    · rw [answers_concat, hanswers, hresult, List.map_append]
      rfl
    · rw [after_concat, texts_concat]
      cases htext : (c.pieces (start.after calls).register settings).map String.join with
      | none =>
        rw [htext] at hsink
        rw [hsink, Option.toList_none, List.append_nil]
        exact ⟨hwritten, hmarks⟩
      | some text =>
        rw [htext] at hsink
        have hall : (start.after calls).sink.written ++ bytesOf text =
            bytesOf (String.join (texts reports ++ [text])) := by
          rw [hwritten, String.join_append, bytesOf_append, String.join_cons, String.join_nil,
            String.append_empty]
        rw [Option.toList_some, hsink.1, hsink.2, hall, hmarks]
        exact ⟨rfl, (ends_concat _ _).symm⟩

end Registrar

end Enrollment
