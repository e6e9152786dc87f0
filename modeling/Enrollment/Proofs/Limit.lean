import Enrollment.Proofs.Transcript

/-!
# Runs on a sink with limited room

A run on a sink with room for so many bytes is compared with the same run on a
sink without end, which never fails.  At every point the limited sink holds as
much of what the other holds as there is room for, although calls go on after
one has failed (`sink_after`): a sink that has refused a byte is full, and what
comes later finds it full as well.  From this follows when each call fails,
with which fault, and how often the sink is flushed.
-/

namespace Enrollment

/-- Whether a call after some entries writes nothing: an addition that goes
unannounced, or a call that only looks. -/
def Call.silent (settings : Settings) (past : List Student) : Call → Bool
  | enter s => !settings.announceAdditions && decide (s.id ∉ past.map Student.id)
  | list _ => false
  | _ => true

theorem Call.pieces_eq_none_iff {past : List Student} {register : Register}
    (h : register.Holds past) (settings : Settings) (c : Call) :
    c.pieces register settings = none ↔ c.silent settings past = true := by
  cases c with
  | enter s =>
    simp only [pieces, silent, h.enter_fst s]
    by_cases htaken : s.id ∈ past.map Student.id
    · simp [htaken, Registrar.notice]
    · cases hloud : settings.announceAdditions <;> simp [htaken, hloud, Registrar.notice]
  | list order => simp [pieces, silent]
  | get id => simp [pieces, silent]
  | contains id => simp [pieces, silent]
  | size => simp [pieces, silent]

/-- The device with room for so many bytes. -/
def Device.limitedTo (d : Device) (limit : Nat) : Device :=
  { d with limit := some limit }

theorem Device.admits_limitedTo (d : Device) (limit count : Nat) :
    (d.limitedTo limit).admits count = decide (count ≤ limit) :=
  rfl

namespace Registrar

/-- The bytes that calls on a new registrar put in a sink without limit. -/
def total (settings : Settings) (calls : List Call) : Bytes :=
  ((fresh settings {}).after calls).sink.written

/-- The bytes that a call after others has to write. -/
def saidAfter (settings : Settings) (calls : List Call) (c : Call) : Bytes :=
  c.said (Register.empty.enterAll (Call.entered calls)) settings

theorem total_concat (settings : Settings) (calls : List Call) (c : Call) :
    total settings (calls ++ [c]) = total settings calls ++ saidAfter settings calls c := by
  have hfree : (fresh settings {}).sink.device.Reliable := ⟨rfl, fun _ => rfl⟩
  have hnow : ((fresh settings {}).after calls).sink.device.Reliable := reliable_after hfree calls
  have hwritten := (perform_sink (hnow.admits _) c).2
  rw [hnow.clip, after_register, after_settings] at hwritten
  rw [total, after_concat, hwritten]
  rfl

/-! ## One call beside the same call on a sink without limit -/

section Limited

variable (settings : Settings) (device : Device) (before : List Call) (c : Call)

/-- At every point of a run the sink has as much of the bytes as there is room for. -/
theorem sink_after : ((fresh settings { device }).after before).sink.device = device ∧
    ((fresh settings { device }).after before).sink.written =
      device.clip (total settings before) := by
  induction before using List.reverseRecOn with
  | nil => exact ⟨rfl, (Device.clip_of_admits device.admits_zero).symm⟩
  | append_singleton calls c ih =>
    obtain ⟨hdevice, hwritten⟩ := ih
    have hroom : ((fresh settings { device }).after calls).sink.device.admits
        ((fresh settings { device }).after calls).sink.written.length = true := by
      rw [hdevice, hwritten]
      exact Device.admits_clip _ _
    obtain ⟨hdevice', hwritten'⟩ := perform_sink hroom c
    rw [after_concat, hdevice', hwritten', hdevice, hwritten, after_register, after_settings,
      total_concat]
    exact ⟨rfl, Device.clip_clip_append _ _ _⟩

theorem admits_after : ((fresh settings { device }).after before).sink.device.admits
    ((fresh settings { device }).after before).sink.written.length = true := by
  rw [(sink_after settings device before).1, (sink_after settings device before).2]
  exact Device.admits_clip _ _

theorem silent_iff : c.silent settings (Call.entered before) = true ↔
    c.pieces ((fresh settings { device }).after before).register
      ((fresh settings { device }).after before).settings = none := by
  rw [after_settings]
  exact (Call.pieces_eq_none_iff (after_holds _ _ _) settings c).symm

theorem said_eq_saidAfter : c.said ((fresh settings { device }).after before).register
    ((fresh settings { device }).after before).settings = saidAfter settings before c := by
  rw [after_register, after_settings]
  rfl

/-- A silent call succeeds, and nothing is heard of it. -/
theorem perform_silent (h : c.silent settings (Call.entered before) = true) :
    let r := (fresh settings { device }).after before
    total settings (before ++ [c]) = total settings before ∧
      (r.perform c).1 = .ok (c.answer r.register) ∧ (r.perform c).2.sink = r.sink := by
  intro r
  have hnone := (silent_iff settings device before c).1 h
  have hsaid := said_eq_saidAfter settings device before c
  rw [Call.said, hnone, Option.elim_none] at hsaid
  rw [total_concat, ← hsaid, List.append_nil, perform_of_pieces_eq_none hnone]
  exact ⟨rfl, rfl, rfl⟩

/-- A call that is not silent fails to write where the sink without limit holds more
than there is room for; otherwise it makes one flush. -/
theorem perform_loud (h : c.silent settings (Call.entered before) = false) :
    let r := (fresh settings { device }).after before
    let fits := device.admits (total settings (before ++ [c])).length
    total settings (before ++ [c]) ≠ total settings before ∧
      (r.perform c).1 =
        (if fits then
          if device.flushFails (r.sink.flushes + 1) then .error (.flush device.flushText)
          else .ok (c.answer r.register)
        else .error (.write device.refusal.text)) ∧
      (r.perform c).2.sink.flushes = r.sink.flushes + if fits then 1 else 0 := by
  intro r fits
  cases hp : c.pieces r.register r.settings with
  | none =>
    rw [(silent_iff settings device before c).2 hp] at h
    cases h
  | some ps =>
    have hsaid := said_eq_saidAfter settings device before c
    rw [Call.said, hp, Option.elim_some] at hsaid
    have hne := Call.pieces_ne_nil hp
    obtain ⟨-, -, hmarks, hresult⟩ := perform_published hp (admits_after settings device before)
    have hfits : r.sink.device.admits (r.sink.written ++ bytesOf (String.join ps)).length = fits := by
      rw [(sink_after settings device before).1, (sink_after settings device before).2,
        Device.admits_clip_append _ _ hne, hsaid, ← total_concat]
    rw [hfits] at hmarks hresult
    refine ⟨?_, ?_, ?_⟩
    · rw [total_concat, ← hsaid]
      simpa using hne
    · rw [hresult, (sink_after settings device before).1]
    · rw [Sink.flushes, hmarks]
      split
      · exact List.length_append
      · rfl

end Limited

/-! ## A run -/

/-- Whether the call with a number flushes a sink with room for so many bytes:
it is not silent, and all that is written by its end fits. -/
def flushing (settings : Settings) (limit : Nat) (calls : List Call) (number : Nat) : Bool :=
  calls[number]?.any (fun c => !c.silent settings (Call.entered (calls.take number))) &&
    decide ((total settings (calls.take (number + 1))).length ≤ limit)

/-- How many of the calls flush a sink with room for so many bytes. -/
def flushesDue (settings : Settings) (limit : Nat) (calls : List Call) : Nat :=
  (List.range calls.length).countP (flushing settings limit calls)

theorem flushing_concat (settings : Settings) (limit : Nat) (calls : List Call) (c : Call)
    {number : Nat} (h : number < calls.length) :
    flushing settings limit (calls ++ [c]) number = flushing settings limit calls number := by
  rw [flushing, flushing, List.getElem?_append_left h, List.take_append_of_le_length h.le,
    List.take_append_of_le_length h]

theorem flushesDue_concat (settings : Settings) (limit : Nat) (calls : List Call) (c : Call) :
    flushesDue settings limit (calls ++ [c]) = flushesDue settings limit calls +
      if c.silent settings (Call.entered calls) = false ∧
        (total settings (calls ++ [c])).length ≤ limit then 1 else 0 := by
  have hlast : flushing settings limit (calls ++ [c]) calls.length =
      (!c.silent settings (Call.entered calls) &&
        decide ((total settings (calls ++ [c])).length ≤ limit)) := by
    rw [flushing, List.getElem?_concat_length, Option.any_some, List.take_left,
      List.take_of_length_le (by simp)]
  have hbefore : (List.range calls.length).countP (flushing settings limit (calls ++ [c])) =
      (List.range calls.length).countP (flushing settings limit calls) :=
    List.countP_congr fun number hn => by
      rw [flushing_concat settings limit calls c (List.mem_range.1 hn)]
  rw [flushesDue, List.length_append, List.length_singleton, List.range_succ, List.countP_append,
    hbefore, List.countP_singleton, hlast, flushesDue]
  congr 1
  simp

variable (settings : Settings) (device : Device) (limit : Nat)

theorem flushes_concat (before : List Call) (c : Call) :
    let start := fresh settings { device := device.limitedTo limit }
    (start.after (before ++ [c])).sink.flushes = (start.after before).sink.flushes +
      if c.silent settings (Call.entered before) = false ∧
        (total settings (before ++ [c])).length ≤ limit then 1 else 0 := by
  intro start
  rw [after_concat]
  cases hs : c.silent settings (Call.entered before) with
  | true =>
    obtain ⟨-, -, hsink⟩ := perform_silent settings (device.limitedTo limit) before c hs
    rw [hsink, if_neg (fun h => Bool.noConfusion h.1), Nat.add_zero]
  | false =>
    obtain ⟨-, -, hflushes⟩ := perform_loud settings (device.limitedTo limit) before c hs
    rw [hflushes, Device.admits_limitedTo]
    simp only [true_and, decide_eq_true_eq]
    rfl

theorem flushes_after (calls : List Call) :
    ((fresh settings { device := device.limitedTo limit }).after calls).sink.flushes =
      flushesDue settings limit calls := by
  induction calls using List.reverseRecOn with
  | nil => rfl
  | append_singleton calls c ih =>
    rw [flushes_concat settings device limit calls c, ih, flushesDue_concat]

/-- What becomes of a call after others on a new registrar, whose sink has room for so many bytes
in all and whose flushes fail as they please, at whatever pace the device works.  The sink holds as
much as there is room for.  The call fails with the fault of the write if it writes anything and
what is written by its end without limit is too much; otherwise, unless it is silent, it makes one
flush, and fails with the fault of that flush if that flush fails; otherwise it succeeds.  So the
flushes are those of the calls that are not silent and whose writing fits. -/
theorem run_limited (before : List Call) (c : Call) :
    let start := fresh settings { device := device.limitedTo limit }
    let r := start.after before
    let whole := total settings (before ++ [c])
    let silent := c.silent settings (Call.entered before)
    (start.after (before ++ [c])).sink.written = whole.take limit ∧
      (r.perform c).1 =
        (if whole ≠ total settings before ∧ limit < whole.length then
          .error (.write device.refusal.text)
        else if silent = false ∧ device.flushFails (r.sink.flushes + 1) = true then
          .error (.flush device.flushText)
        else .ok (c.answer r.register)) ∧
      (start.after (before ++ [c])).sink.flushes =
        r.sink.flushes + (if silent = false ∧ whole.length ≤ limit then 1 else 0) ∧
      (start.after (before ++ [c])).sink.flushes = flushesDue settings limit (before ++ [c]) := by
  intro start r whole silent
  refine ⟨(sink_after settings _ _).2, ?_, flushes_concat settings device limit before c,
    flushes_after settings device limit _⟩
  cases hs : silent with
  | true =>
    obtain ⟨hsame, hresult, -⟩ := perform_silent settings (device.limitedTo limit) before c hs
    rw [hresult, if_neg (fun h => h.1 hsame), if_neg (fun h => Bool.noConfusion h.1)]
  | false =>
    obtain ⟨hmore, hresult, -⟩ := perform_loud settings (device.limitedTo limit) before c hs
    rw [hresult, Device.admits_limitedTo]
    by_cases hroom : whole.length ≤ limit
    · have hno : ¬(whole ≠ total settings before ∧ limit < whole.length) :=
        fun h => Nat.not_le.2 h.2 hroom
      rw [if_neg hno, if_pos (decide_eq_true hroom)]
      simp only [true_and]
      rfl
    · have hover : whole ≠ total settings before ∧ limit < whole.length :=
        ⟨hmore, Nat.not_le.1 hroom⟩
      rw [if_pos hover, if_neg (by simpa using hroom)]
      rfl

end Registrar

end Enrollment
