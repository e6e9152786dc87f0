import Enrollment.Proofs.Limit
import Enrollment.Proofs.SampleRun

/-!
# The sample run on a sink that fails

The sample run ends at its first failure.  Such a run (`performAll`) writes in
blocks, one for each call that has something to say, and flushes the sink after
each of them.  Which blocks there are depends on the calls only, so the first
block that does not fit, or whose flush fails, can be told beforehand, and the
run stops there (`performAll_cases`).  What the sample run's blocks are is said
last (`blocks_calls`).
-/

namespace Enrollment

/-- The block of bytes that a call writes, unless it is silent. -/
def Call.block? (settings : Settings) (register : Register) (c : Call) : Option Bytes :=
  (c.pieces register settings).map fun ps => bytesOf (String.join ps)

/-- The blocks that calls write, one after another, when nothing fails. -/
def Call.blocks (settings : Settings) : Register → List Call → List Bytes
  | _, [] => []
  | register, c :: rest =>
    (c.block? settings register).toList ++ blocks settings (c.registerAfter register) rest

theorem Call.blocks_append (settings : Settings) (register : Register) (first later : List Call) :
    blocks settings register (first ++ later) =
      blocks settings register first ++
        blocks settings (register.enterAll (entered first)) later := by
  induction first generalizing register with
  | nil => rfl
  | cons c rest ih =>
    rw [List.cons_append, blocks, blocks, ih, entered_cons, Register.enterAll_append, registerAfter,
      List.append_assoc]

/-! ## Where blocks come to a stop -/

/-- Of blocks that are written to a sink and flushed one after another, the one at a place fails:
up to its end there are more bytes than there is room for, or its flush fails. -/
def Sink.FailsAt (s : Sink) (blocks : List Bytes) (k : Nat) : Prop :=
  s.device.admits (s.written ++ (blocks.take (k + 1)).flatten).length = false ∨
    s.device.flushFails (s.flushes + k + 1) = true

section FailsAt

variable {s t : Sink} {b : Bytes} (hdevice : t.device = s.device)
  (hwritten : t.written = s.written ++ b) (hflushes : t.flushes = s.flushes + 1)

include hdevice hwritten hflushes

/-- After a block has been written and flushed, the places of the others move up by one. -/
theorem Sink.failsAt_succ_iff (bs : List Bytes) (k : Nat) :
    s.FailsAt (b :: bs) (k + 1) ↔ t.FailsAt bs k := by
  rw [FailsAt, FailsAt, hdevice, hwritten, hflushes, List.take_succ_cons, List.flatten_cons,
    List.append_assoc, Nat.add_right_comm s.flushes 1 k, Nat.add_assoc s.flushes k 1]

end FailsAt

namespace Registrar

/-- Makes calls one after another, up to the first that fails. -/
def performAll (r : Registrar) : List Call → Except SinkFault Unit × Registrar
  | [] => (.ok (), r)
  | c :: rest =>
    match r.perform c with
    | (.error fault, t) => (.error fault, t)
    | (.ok _, t) => t.performAll rest

/-- All calls are made, and each of their blocks is written and flushed. -/
structure Through (r : Registrar) (calls : List Call)
    (outcome : Except SinkFault Unit × Registrar) : Prop where
  never : ∀ k < (Call.blocks r.settings r.register calls).length,
    ¬ r.sink.FailsAt (Call.blocks r.settings r.register calls) k
  result : outcome.1 = .ok ()
  made : outcome.2 = r.after calls
  written : outcome.2.sink.written =
    r.sink.written ++ (Call.blocks r.settings r.register calls).flatten
  flushes : outcome.2.sink.flushes =
    r.sink.flushes + (Call.blocks r.settings r.register calls).length

/-- The calls are made up to the one that writes the block at a place, which is the first that
fails.  A block that does not fit is written as far as there is room for it and not flushed. -/
structure StoppedAt (r : Registrar) (calls : List Call) (k : Nat)
    (outcome : Except SinkFault Unit × Registrar) : Prop where
  lt : k < (Call.blocks r.settings r.register calls).length
  fails : r.sink.FailsAt (Call.blocks r.settings r.register calls) k
  first : ∀ j < k, ¬ r.sink.FailsAt (Call.blocks r.settings r.register calls) j
  made : ∃ made, made <+: calls ∧ outcome.2 = r.after made ∧
    Call.blocks r.settings r.register made =
      (Call.blocks r.settings r.register calls).take (k + 1)
  outcome : let upTo := r.sink.written ++
      ((Call.blocks r.settings r.register calls).take (k + 1)).flatten
    outcome.2.sink.written = r.sink.device.clip upTo ∧
    outcome.1 = .error (if r.sink.device.admits upTo.length then .flush r.sink.device.flushText
      else .write r.sink.device.refusal.text) ∧
    outcome.2.sink.flushes =
      r.sink.flushes + if r.sink.device.admits upTo.length then k + 1 else k

section Step

variable {r : Registrar} {c : Call} {rest : List Call}
  {outcome : Except SinkFault Unit × Registrar}

/-! ### A silent call -/

variable (rest) in
theorem performAll_cons_of_silent (h : c.block? r.settings r.register = none) :
    r.performAll (c :: rest) = (r.noted c).performAll rest ∧ (r.perform c).2 = r.noted c ∧
      Call.blocks r.settings r.register (c :: rest) =
        Call.blocks (r.noted c).settings (r.noted c).register rest := by
  have hpieces : c.pieces r.register r.settings = none := Option.map_eq_none_iff.1 h
  have hperform := perform_of_pieces_eq_none hpieces
  refine ⟨?_, congrArg Prod.snd hperform, ?_⟩
  · rw [performAll, hperform]
  · rw [Call.blocks, h]
    rfl

theorem Through.cons_of_silent (h : c.block? r.settings r.register = none)
    (hrest : (r.noted c).Through rest outcome) : r.Through (c :: rest) outcome := by
  obtain ⟨-, hsnd, hblocks⟩ := performAll_cons_of_silent rest h
  refine ⟨?_, hrest.result, ?_, ?_, ?_⟩
  · rw [hblocks]
    exact hrest.never
  · rw [hrest.made, ← hsnd]
    rfl
  · rw [hblocks]
    exact hrest.written
  · rw [hblocks]
    exact hrest.flushes

theorem StoppedAt.cons_of_silent {k : Nat} (h : c.block? r.settings r.register = none)
    (hrest : (r.noted c).StoppedAt rest k outcome) : r.StoppedAt (c :: rest) k outcome := by
  obtain ⟨-, hsnd, hblocks⟩ := performAll_cons_of_silent rest h
  obtain ⟨made, hmade, hafter, htake⟩ := hrest.made
  refine ⟨?_, ?_, ?_, ⟨c :: made, List.cons_prefix_cons.2 ⟨rfl, hmade⟩, ?_, ?_⟩, ?_⟩
  · rw [hblocks]
    exact hrest.lt
  · rw [hblocks]
    exact hrest.fails
  · rw [hblocks]
    exact hrest.first
  · rw [hafter, ← hsnd]
    rfl
  · rw [hblocks, ← htake]
    exact (performAll_cons_of_silent _ h).2.2
  · rw [hblocks]
    exact hrest.outcome

/-! ### A call that writes a block -/

theorem blocks_cons_of_block {b : Bytes} (h : c.block? r.settings r.register = some b)
    (calls : List Call) : Call.blocks r.settings r.register (c :: calls) =
      b :: Call.blocks (r.perform c).2.settings (r.perform c).2.register calls := by
  rw [Call.blocks, h, perform_settings, perform_register]
  rfl

theorem perform_block {b : Bytes} (h : c.block? r.settings r.register = some b)
    (hroom : r.sink.device.admits r.sink.written.length = true) :
    Published r.sink b (c.answer r.register) (r.perform c) := by
  obtain ⟨ps, hps, rfl⟩ := Option.map_eq_some_iff.1 h
  exact perform_published hps hroom

/-- The first block fails, so the call that writes it is the last that is made. -/
theorem stoppedAt_zero {b : Bytes} (h : c.block? r.settings r.register = some b)
    (hroom : r.sink.device.admits r.sink.written.length = true)
    (hfails : r.sink.FailsAt (Call.blocks r.settings r.register (c :: rest)) 0) :
    r.StoppedAt (c :: rest) 0 (r.performAll (c :: rest)) := by
  have htold := perform_block h hroom
  have hblocks := blocks_cons_of_block h rest
  have htake : ((Call.blocks r.settings r.register (c :: rest)).take 1).flatten = b := by
    rw [hblocks, List.take_succ_cons, List.take_zero, List.flatten_singleton]
  have hresult : (r.perform c).1 = .error (if r.sink.device.admits (r.sink.written ++ b).length then
      .flush r.sink.device.flushText else .write r.sink.device.refusal.text) := by
    rw [htold.result]
    split
    · next hadmits =>
      rw [Sink.FailsAt, htake, hadmits] at hfails
      rw [if_pos (hfails.resolve_left Bool.noConfusion)]
    · rfl
  have hstop : r.performAll (c :: rest) = (.error (if r.sink.device.admits
      (r.sink.written ++ b).length then .flush r.sink.device.flushText
      else .write r.sink.device.refusal.text), (r.perform c).2) := by
    rw [performAll, ← Prod.eta (r.perform c), hresult]
  rw [hstop]
  refine ⟨?_, hfails, fun j hj => absurd hj (Nat.not_lt_zero j),
    ⟨[c], List.cons_prefix_cons.2 ⟨rfl, List.nil_prefix⟩, rfl, ?_⟩, ?_⟩
  · rw [hblocks]
    exact Nat.succ_pos _
  · rw [blocks_cons_of_block h, hblocks]
    rfl
  · rw [htake]
    refine ⟨htold.written, rfl, ?_⟩
    rw [Sink.flushes, htold.marks]
    split
    · exact List.length_append
    · rfl

section Goes

variable {b : Bytes} (h : c.block? r.settings r.register = some b)
  (hroom : r.sink.device.admits r.sink.written.length = true)
  (hgoes : ¬ r.sink.FailsAt (Call.blocks r.settings r.register (c :: rest)) 0)

include h hroom hgoes

/-- The first block does not fail: the run goes on, with the block written and flushed. -/
theorem performAll_cons_of_goes :
    r.performAll (c :: rest) = (r.perform c).2.performAll rest ∧
      (r.perform c).2.sink.device = r.sink.device ∧
      (r.perform c).2.sink.written = r.sink.written ++ b ∧
      (r.perform c).2.sink.flushes = r.sink.flushes + 1 ∧
      (r.perform c).2.sink.device.admits (r.perform c).2.sink.written.length = true := by
  have htold := perform_block h hroom
  rw [Sink.FailsAt, blocks_cons_of_block h, List.take_succ_cons, List.take_zero,
    List.flatten_singleton, not_or, Bool.not_eq_false, Bool.not_eq_true] at hgoes
  obtain ⟨hfits, hflush⟩ := hgoes
  have hwritten := htold.written
  rw [Device.clip_of_admits hfits] at hwritten
  have hresult := htold.result
  rw [if_pos hfits, hflush] at hresult
  have hmarks := htold.marks
  rw [if_pos hfits] at hmarks
  refine ⟨?_, htold.device, hwritten, ?_, ?_⟩
  · rw [performAll, ← Prod.eta (r.perform c), hresult]
    rfl
  · rw [Sink.flushes, hmarks]
    exact List.length_append
  · rw [htold.device, hwritten]
    exact hfits

theorem Through.cons_of_goes (hrest : (r.perform c).2.Through rest outcome) :
    r.Through (c :: rest) outcome := by
  obtain ⟨-, hdevice, hwritten, hflushes, -⟩ := performAll_cons_of_goes h hroom hgoes
  have hblocks := blocks_cons_of_block h rest
  refine ⟨?_, hrest.result, hrest.made, ?_, ?_⟩
  · rintro (_ | k) hk
    · exact hgoes
    · rw [hblocks] at hk ⊢
      rw [Sink.failsAt_succ_iff hdevice hwritten hflushes]
      exact hrest.never k (Nat.lt_of_succ_lt_succ hk)
  · rw [hblocks, hrest.written, hwritten, List.flatten_cons, List.append_assoc]
  · rw [hblocks, hrest.flushes, hflushes, List.length_cons, Nat.add_right_comm, Nat.add_assoc]

theorem StoppedAt.cons_of_goes {k : Nat} (hrest : (r.perform c).2.StoppedAt rest k outcome) :
    r.StoppedAt (c :: rest) (k + 1) outcome := by
  obtain ⟨-, hdevice, hwritten, hflushes, -⟩ := performAll_cons_of_goes h hroom hgoes
  have hblocks := blocks_cons_of_block h
  obtain ⟨made, hmade, hafter, htake⟩ := hrest.made
  refine ⟨?_, ?_, ?_, ⟨c :: made, List.cons_prefix_cons.2 ⟨rfl, hmade⟩, hafter, ?_⟩, ?_⟩
  · rw [hblocks]
    exact Nat.succ_lt_succ hrest.lt
  · rw [hblocks, Sink.failsAt_succ_iff hdevice hwritten hflushes]
    exact hrest.fails
  · rintro (_ | j) hj
    · exact hgoes
    · rw [hblocks, Sink.failsAt_succ_iff hdevice hwritten hflushes]
      exact hrest.first j (Nat.lt_of_succ_lt_succ hj)
  · rw [hblocks, hblocks, htake, List.take_succ_cons]
  · have houtcome := hrest.outcome
    rw [hdevice, hwritten, hflushes, List.append_assoc, ← List.flatten_cons,
      ← List.take_succ_cons, ← hblocks] at houtcome
    refine ⟨houtcome.1, houtcome.2.1, houtcome.2.2.trans ?_⟩
    split <;> omega

end Goes

end Step

/-- Calls that end at the first failure are made up to the first block that fails, or all of them
if there is none. -/
theorem performAll_cases {r : Registrar}
    (hroom : r.sink.device.admits r.sink.written.length = true) (calls : List Call) :
    r.Through calls (r.performAll calls) ∨ ∃ k, r.StoppedAt calls k (r.performAll calls) := by
  induction calls generalizing r with
  | nil =>
    refine .inl ⟨fun k hk => absurd hk (Nat.not_lt_zero k), rfl, rfl, ?_, rfl⟩
    exact (List.append_nil _).symm
  | cons c rest ih =>
    cases h : c.block? r.settings r.register with
    | none =>
      rw [(performAll_cons_of_silent _ h).1]
      rcases ih (r := r.noted c) hroom with hthrough | ⟨k, hstopped⟩
      · exact .inl (hthrough.cons_of_silent h)
      · exact .inr ⟨k, hstopped.cons_of_silent h⟩
    | some b =>
      by_cases hfails : r.sink.FailsAt (Call.blocks r.settings r.register (c :: rest)) 0
      · exact .inr ⟨0, stoppedAt_zero h hroom hfails⟩
      · obtain ⟨hgoes, -, -, -, hroom'⟩ := performAll_cons_of_goes h hroom hfails
        rw [hgoes]
        rcases ih hroom' with hthrough | ⟨k, hstopped⟩
        · exact .inl (hthrough.cons_of_goes h hroom hfails)
        · exact .inr ⟨k + 1, hstopped.cons_of_goes h hroom hfails⟩

theorem performAll_append (r : Registrar) (first later : List Call) :
    r.performAll (first ++ later) =
      match r.performAll first with
      | (.error fault, t) => (.error fault, t)
      | (.ok (), t) => t.performAll later := by
  induction first generalizing r with
  | nil => rfl
  | cons c rest ih =>
    rw [List.cons_append, performAll, performAll]
    rcases r.perform c with ⟨_ | _, t⟩
    · rfl
    · exact ih t

theorem performAll_list (r : Registrar) (order : Order) :
    r.performAll [.list order] = r.listIn order := by
  rw [performAll, perform]
  rcases r.listIn order with ⟨_ | _, t⟩ <;> rfl

end Registrar

/-! ## The sample run -/

namespace Sample

/-- The calls of the sample run. -/
def calls (order : Order) : List Call :=
  students.map .enter ++ [.list order]

theorem enterAll_eq_performAll (r : Registrar) (students : List Student) :
    enterAll r students = r.performAll (students.map .enter) := by
  induction students generalizing r with
  | nil => rfl
  | cons s rest ih =>
    rw [enterAll, List.map_cons, Registrar.performAll, Registrar.perform]
    rcases r.enter s with ⟨_ | _, t⟩
    · rfl
    · exact ih t

theorem runIn_eq_performAll (order : Order) (settings : Settings) (sink : Sink) :
    runIn order settings sink = (Registrar.fresh settings sink).performAll (calls order) := by
  rw [runIn, calls, Registrar.performAll_append, enterAll_eq_performAll]
  rcases Registrar.performAll _ (students.map .enter) with ⟨_ | _, t⟩
  · rfl
  · exact (Registrar.performAll_list t order).symm

/-- The blocks that announce students who are all new. -/
def announcementBlocks (settings : Settings) (students : List Student) : List Bytes :=
  if settings.announceAdditions then
    students.map fun s => bytesOf ("Added student: " ++ s.name ++ "\n")
  else []

/-- The block that lists students in this order. -/
def listingBlock (settings : Settings) (students : List Student) : Bytes :=
  bytesOf (settings.header ++ "\n" ++ String.join (students.map fun s => s.line ++ "\n"))

/-- The blocks of the sample run: two announcements, if they are wanted, and the listing. -/
def blocks (order : Order) (settings : Settings) : List Bytes :=
  announcementBlocks settings students ++ [listingBlock settings (order.arrange students)]

theorem block?_enter_of_new {past : List Student} {register : Register} (h : register.Holds past)
    (settings : Settings) {s : Student} (new : s.id ∉ past.map Student.id) :
    ((Call.enter s).block? settings register).toList = announcementBlocks settings [s] := by
  rw [Call.block?, Call.pieces, h.enter_fst, if_neg new, Registrar.notice, announcementBlocks]
  cases settings.announceAdditions with
  | true =>
    rw [if_pos rfl, if_pos rfl, Option.map_some, join_triple]
    rfl
  | false => rfl

theorem blocks_map_enter (settings : Settings) {students : List Student}
    (hdistinct : (students.map Student.id).Nodup) :
    Call.blocks settings .empty (students.map .enter) = announcementBlocks settings students := by
  -- From the right, as what an entry says depends on those made before it.
  induction students using List.reverseRecOn with
  | nil =>
    rw [announcementBlocks]
    cases settings.announceAdditions <;> rfl
  | append_singleton students s ih =>
    rw [List.map_append, List.nodup_append'] at hdistinct
    obtain ⟨hbefore, -, hnew⟩ := hdistinct
    have hblock := block?_enter_of_new (Register.holds_enterAll students) settings (s := s)
      fun hmem => hnew hmem (List.mem_singleton_self s.id)
    rw [List.map_append, Call.blocks_append, ih hbefore, entered_map_enter, List.map_singleton,
      Call.blocks, hblock, Call.blocks, List.append_nil, announcementBlocks, announcementBlocks,
      announcementBlocks]
    cases settings.announceAdditions with
    | true => rw [if_pos rfl, if_pos rfl, if_pos rfl, List.map_append]
    | false => rfl

theorem students_enter_of_new {r : Register} {s : Student} (new : s.id ∉ r.records.keys) :
    (r.enter s).2.students = r.students ++ [s] := by
  have hfree : ¬ r.contains s.id = true := fun h => new (Register.contains_iff.1 h)
  have hrecords : (r.enter s).2.records = r.records.put s.id s := by
    rw [Register.enter, if_neg hfree]
  rw [Register.students, hrecords, Entries.put_of_not_mem new, List.map_append]
  rfl

/-- Where no two entries are made under one id, they are the students of the register. -/
theorem students_enterAll {students : List Student} (hdistinct : (students.map Student.id).Nodup) :
    (Register.empty.enterAll students).students = students := by
  induction students using List.reverseRecOn with
  | nil => rfl
  | append_singleton students s ih =>
    rw [List.map_append, List.nodup_append'] at hdistinct
    obtain ⟨hbefore, -, hnew⟩ := hdistinct
    have hkeys : s.id ∉ (Register.empty.enterAll students).records.keys := by
      rw [← Register.contains_iff, (Register.holds_enterAll students).contains_iff]
      exact fun hmem => hnew hmem (List.mem_singleton_self s.id)
    have hlast := students_enter_of_new hkeys
    rw [ih hbefore] at hlast
    rw [Register.enterAll_append]
    exact hlast

theorem nodup_map_id_students : (students.map Student.id).Nodup := by
  decide

theorem entered_calls (order : Order) : Call.entered (calls order) = students := by
  rw [calls, Call.entered, List.filterMap_append, ← Call.entered, entered_map_enter]
  rfl

theorem blocks_calls (order : Order) (settings : Settings) :
    Call.blocks settings .empty (calls order) = blocks order settings := by
  rw [calls, Call.blocks_append, entered_map_enter, blocks_map_enter settings nodup_map_id_students,
    blocks, listingBlock, Call.blocks, Call.blocks, Call.block?, Call.pieces, Option.map_some,
    Register.arranged, students_enterAll nodup_map_id_students, join_listing]
  rfl

/-! ### On a sink with limited room -/

/-- With room for so many bytes the block at a place fails: up to its end there are more, or its
flush fails. -/
def Fails (device : Device) (limit : Nat) (bs : List Bytes) (k : Nat) : Prop :=
  limit < (bs.take (k + 1)).flatten.length ∨ device.flushFails (k + 1) = true

section Limited

variable (device : Device) (limit : Nat) (bs : List Bytes)

theorem failsAt_limitedTo_iff (k : Nat) :
    Sink.FailsAt { device := device.limitedTo limit } bs k ↔ Fails device limit bs k := by
  rw [Sink.FailsAt, Device.admits_limitedTo, decide_eq_false_iff_not, Nat.not_le, List.nil_append,
    Sink.flushes, List.length_nil, Nat.zero_add, Fails]
  rfl

theorem length_flatten_take_le (k : Nat) : (bs.take k).flatten.length ≤ bs.flatten.length := by
  have hsplit := congrArg List.flatten (List.take_append_drop k bs)
  rw [← hsplit, List.flatten_append, List.length_append]
  exact Nat.le_add_right _ _

/-- No block fails exactly if all of their bytes fit and none of their flushes fails. -/
theorem forall_not_fails_iff : (∀ k < bs.length, ¬ Fails device limit bs k) ↔
    bs.flatten.length ≤ limit ∧ ∀ k < bs.length, device.flushFails (k + 1) = false := by
  simp only [Fails, not_or, Nat.not_lt, Bool.not_eq_true]
  constructor
  · intro h
    refine ⟨?_, fun k hk => (h k hk).2⟩
    cases hlength : bs.length with
    | zero =>
      rw [List.length_eq_zero_iff.1 hlength]
      exact Nat.zero_le limit
    | succ n =>
      have hlast := (h n (by omega)).1
      rwa [List.take_of_length_le hlength.le] at hlast
  · rintro ⟨hfits, hflushes⟩ k hk
    exact ⟨(length_flatten_take_le bs (k + 1)).trans hfits, hflushes k hk⟩

theorem ite_admits_limitedTo {α : Type} (count : Nat) (a b : α) :
    (if (device.limitedTo limit).admits count then a else b) = if limit < count then b else a := by
  rw [Device.admits_limitedTo]
  by_cases hover : limit < count
  · rw [if_pos hover, if_neg (by simpa using hover)]
  · rw [if_neg hover, if_pos (decide_eq_true (Nat.not_lt.1 hover))]

end Limited

/-- All of the sample run has been made. -/
structure Completed (order : Order) (settings : Settings) (r : Registrar) : Prop where
  written : r.sink.written = (blocks order settings).flatten
  flushes : r.sink.flushes = (blocks order settings).length
  students : r.register.students = students

/-- The sample run has come to a stop at the block at a place.  As much as there is room for has been
written up to its end; it has been flushed if all of it fits; and no call after the one that writes
it has been made. -/
structure Stopped (order : Order) (settings : Settings) (device : Device) (limit k : Nat)
    (outcome : Except SinkFault Unit × Registrar) : Prop where
  result : outcome.1 = .error
    (if limit < ((blocks order settings).take (k + 1)).flatten.length
      then .write device.refusal.text else .flush device.flushText)
  written : outcome.2.sink.written = (((blocks order settings).take (k + 1)).flatten).take limit
  flushes : outcome.2.sink.flushes =
    if limit < ((blocks order settings).take (k + 1)).flatten.length then k else k + 1
  made : ∃ made, made <+: calls order ∧
    outcome.2 = (Registrar.fresh settings { device := device.limitedTo limit }).after made ∧
    Call.blocks settings .empty made = (blocks order settings).take (k + 1)

section Run

variable (order : Order) (settings : Settings) (device : Device) (limit : Nat)

/-- The sample run is made to its end, or up to the first block that fails. -/
theorem runIn_cases :
    let bs := blocks order settings
    let outcome := runIn order settings { device := device.limitedTo limit }
    ((∀ k < bs.length, ¬ Fails device limit bs k) ∧ outcome.1 = .ok () ∧
        Completed order settings outcome.2) ∨
      ∃ k < bs.length, Fails device limit bs k ∧ (∀ j < k, ¬ Fails device limit bs j) ∧
        Stopped order settings device limit k outcome := by
  intro bs outcome
  let r := Registrar.fresh settings { device := device.limitedTo limit }
  have hfails : ∀ k, r.sink.FailsAt bs k ↔ Fails device limit bs k :=
    failsAt_limitedTo_iff device limit bs
  have hroom : r.sink.device.admits r.sink.written.length = true := Device.admits_zero _
  have hblocks : Call.blocks r.settings r.register (calls order) = bs := blocks_calls order settings
  have houtcome : outcome = r.performAll (calls order) := runIn_eq_performAll _ _ _
  rw [houtcome]
  rcases r.performAll_cases hroom (calls order) with hthrough | ⟨k, hstopped⟩
  · obtain ⟨hnever, hresult, hmade, hwritten, hflushes⟩ := hthrough
    rw [hblocks] at hnever hwritten hflushes
    refine .inl ⟨fun k hk hfail => hnever k hk ((hfails k).2 hfail), hresult, hwritten,
      hflushes.trans (Nat.zero_add _), ?_⟩
    rw [hmade, Registrar.after_register, entered_calls]
    exact students_enterAll nodup_map_id_students
  · obtain ⟨hlt, hfail, hfirst, hmade, hwritten, hresult, hflushes⟩ := hstopped
    rw [hblocks] at hlt hfail hfirst hmade hwritten hresult hflushes
    refine .inr ⟨k, hlt, (hfails k).1 hfail, fun j hj hfail => hfirst j hj ((hfails j).2 hfail),
      ?_, hwritten, ?_, hmade⟩
    · exact hresult.trans (congrArg _ (ite_admits_limitedTo device limit _ _ _))
    · exact hflushes.trans ((Nat.zero_add _).trans (ite_admits_limitedTo device limit _ _ _))

/-- The sample run on a new sink with room for so many bytes whose flushes fail as they please.  It
succeeds exactly if all of its blocks fit and none of their flushes fails; then the sink has the
blocks, one flush for each of them, and the students of the sample are those of the register.
Otherwise it stops at the first block that does not fit up to its end or whose flush fails.  The
blocks are two announcements, if they are wanted, and a listing of the two students. -/
theorem runIn_stops :
    (order.arrange students).Perm students ∧
    let bs := blocks order settings
    let outcome := runIn order settings { device := device.limitedTo limit }
    (outcome.1 = .ok () ↔
      bs.flatten.length ≤ limit ∧ ∀ k < bs.length, device.flushFails (k + 1) = false) ∧
    (outcome.1 = .ok () → Completed order settings outcome.2) ∧
    ∀ k < bs.length, Fails device limit bs k → (∀ j < k, ¬ Fails device limit bs j) →
      Stopped order settings device limit k outcome := by
  refine ⟨order.perm students, ?_⟩
  intro bs outcome
  rw [← forall_not_fails_iff]
  rcases runIn_cases order settings device limit with
    ⟨hnever, hok, hcompleted⟩ | ⟨i, hi, hfail, hfirst, hstopped⟩
  · exact ⟨⟨fun _ => hnever, fun _ => hok⟩, fun _ => hcompleted,
      fun k hk hfail => absurd hfail (hnever k hk)⟩
  · have hnotok : outcome.1 ≠ .ok () := fun hok => by
      rw [hstopped.result] at hok
      cases hok
    refine ⟨⟨fun hok => absurd hok hnotok, fun hnever => absurd hfail (hnever i hi)⟩,
      fun hok => absurd hok hnotok, fun k _ hfail' hbefore => ?_⟩
    -- Only one place can be the first that fails.
    rcases Nat.lt_trichotomy k i with hki | rfl | hki
    · exact absurd hfail' (hfirst k hki)
    · exact hstopped
    · exact absurd hfail (hbefore i hki)

end Run

/-- With room for 40 bytes the second announcement breaks off, and of two flushes that would fail
neither is reached. -/
theorem runIn_stops_in_second_block :
    let device : Device := { flushFails := fun n => decide (n = 2 ∨ n = 3) }
    let outcome := runIn .entry .standard { device := device.limitedTo 40 }
    outcome.1 = .error (.write "closed") ∧
      outcome.2.sink.written = bytesOf "Added student: Alice Johnson\nAdded stude" ∧
      outcome.2.sink.flushes = 1 := by
  intro device outcome
  have hfirst : ∀ j < 1, ¬ Fails device 40 (blocks .entry .standard) j := by
    intro j hj
    obtain rfl : j = 0 := Nat.lt_one_iff.1 hj
    rw [Fails, not_or]
    decide +kernel
  have hover : 40 < ((blocks .entry .standard).take 2).flatten.length := by decide +kernel
  obtain ⟨hresult, hwritten, hflushes, -⟩ := (runIn_stops .entry .standard device 40).2.2.2 1
    (by decide +kernel) (.inl hover) hfirst
  rw [if_pos hover] at hresult hflushes
  refine ⟨hresult, hwritten.trans ?_, hflushes⟩
  decide +kernel

end Sample

end Enrollment
