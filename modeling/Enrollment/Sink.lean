import Enrollment.Text.Utf8

/-!
# Sinks

A sink takes bytes, may have room for only so many, and may fail when it is
flushed.  One call may take fewer bytes than it is offered or be interrupted;
`Sink.put` goes on until all bytes are taken or the sink refuses, so the pace
at which a device works never shows in what arrives.  A text comes in pieces,
and `Sink.putAll` stops at the first piece that does not fit.
-/

namespace Enrollment

/-- How a device answers a call once it has no room left. -/
inductive Refusal where
  | error (text : String)
  /-- It takes no byte and reports nothing. -/
  | takesNothing
  deriving DecidableEq

/-- The text of a failed write.  Taking nothing is itself a failure to write. -/
def Refusal.text : Refusal → String
  | .error text => text
  | .takesNothing => "failed to write whole buffer"

structure Pace where
  /-- The number of interrupted calls before the call of this number that is served. -/
  interruptions : Nat → Nat
  /-- How many of the bytes offered the served call of this number takes; it takes
  at least one and never more than there are. -/
  portion : Nat → Nat → Nat

/-- The pace of a device that takes all it is offered at once. -/
def Pace.steady : Pace := ⟨fun _ => 0, fun _ offered => offered⟩

structure Device where
  /-- The number of bytes it has room for, if there is an end to it. -/
  limit : Option Nat := none
  refusal : Refusal := .error "closed"
  /-- Whether the flush of this number fails; the first has number 1. -/
  flushFails : Nat → Bool := fun _ => false
  flushText : String := "flush failed"
  pace : Pace := .steady

/-- A device with what it has taken so far. -/
structure Sink where
  device : Device := {}
  written : Bytes := []
  /-- For each flush, failed ones included, the number of bytes taken before it. -/
  marks : List Nat := []
  /-- The number of write calls it has served. -/
  served : Nat := 0
  /-- The number of calls it has interrupted since it last served one. -/
  interrupted : Nat := 0

inductive SinkFault where
  | write (text : String)
  | flush (text : String)
  deriving DecidableEq

def SinkFault.text : SinkFault → String
  | .write text => text
  | .flush text => text

def SinkFault.message (f : SinkFault) : String :=
  "failed to write to output sink: " ++ f.text

namespace Sink

inductive Reply where
  | interrupted
  | taken (count : Nat)
  | refused
  deriving DecidableEq

/-- How many of `offered` bytes the next served call takes. -/
def capacity (s : Sink) (offered : Nat) : Nat :=
  let share := max 1 (min offered (s.device.pace.portion s.served offered))
  match s.device.limit with
  | none => share
  | some limit => min (limit - s.written.length) share

def offer (s : Sink) (bs : Bytes) : Reply × Sink :=
  if s.interrupted < s.device.pace.interruptions s.served then
    (.interrupted, { s with interrupted := s.interrupted + 1 })
  else if s.capacity bs.length = 0 then (.refused, s)
  else
    let n := s.capacity bs.length
    (.taken n,
      { s with written := s.written ++ bs.take n, served := s.served + 1, interrupted := 0 })

private theorem offer_taken {s t : Sink} {bs : Bytes} {n : Nat} (h : s.offer bs = (.taken n, t)) :
    0 < n := by
  unfold offer at h
  split at h
  · simp at h
  · split at h
    · simp at h
    · simp only [Prod.mk.injEq, Reply.taken.injEq] at h
      omega

private theorem offer_interrupted {s t : Sink} {bs : Bytes} (h : s.offer bs = (.interrupted, t)) :
    t.device.pace.interruptions t.served - t.interrupted <
      s.device.pace.interruptions s.served - s.interrupted := by
  unfold offer at h
  split at h
  · simp only [Prod.mk.injEq, true_and] at h
    subst h
    simp only
    omega
  · split at h <;> simp at h

/-- Writes all of the bytes, call by call, or as many as the sink has room for. -/
def put (s : Sink) (bs : Bytes) : Except SinkFault Unit × Sink :=
  if hbs : bs = [] then (.ok (), s)
  else match h : s.offer bs with
    | (.interrupted, t) =>
      have := offer_interrupted h
      t.put bs
    | (.taken n, t) =>
      have : bs.length - n < bs.length := by
        have := offer_taken h
        have := List.length_pos_iff.2 hbs
        omega
      t.put (bs.drop n)
    | (.refused, t) => (.error (.write t.device.refusal.text), t)
termination_by (bs.length, s.device.pace.interruptions s.served - s.interrupted)
decreasing_by
  · exact Prod.Lex.right _ this
  · exact Prod.Lex.left _ _ (by rwa [List.length_drop])

/-- Writes one piece after another, up to the first that fails. -/
def putAll (s : Sink) : List Bytes → Except SinkFault Unit × Sink
  | [] => (.ok (), s)
  | bs :: rest =>
    match s.put bs with
    | (.error fault, t) => (.error fault, t)
    | (.ok (), t) => t.putAll rest

/-- The number of flushes, failed ones included. -/
def flushes (s : Sink) : Nat :=
  s.marks.length

def flush (s : Sink) : Except SinkFault Unit × Sink :=
  (if s.device.flushFails (s.flushes + 1) then .error (.flush s.device.flushText) else .ok (),
    { s with marks := s.marks ++ [s.written.length] })

end Sink

end Enrollment
