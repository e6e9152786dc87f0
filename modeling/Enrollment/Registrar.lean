import Enrollment.Register
import Enrollment.Sink

/-!
# The registrar

A registrar enters students into a register and reports to a sink: a line for
each entry, and listings on request.  The register is brought up to date before
anything is written, so a sink that fails never undoes an entry.  A sample run
enters two students and then lists them; it ends at the first failure.
-/

namespace Enrollment

/-- A register with the sink to which its entries and listings are reported. -/
structure Registrar where
  settings : Settings
  sink : Sink
  register : Register := .empty
  /-- What has happened so far, the earliest first. -/
  log : List Event := []

namespace Registrar

def fresh (settings : Settings) (sink : Sink) : Registrar :=
  { settings, sink }

/-- Writes the pieces of a text and flushes the sink.  After a failed write nothing is flushed. -/
def publish (r : Registrar) (pieces : List String) : Except SinkFault Unit × Registrar :=
  match r.sink.putAll (pieces.map bytesOf) with
  | (.error fault, sink) => (.error fault, { r with sink })
  | (.ok (), sink) => (sink.flush.1, { r with sink := sink.flush.2 })

/-- The text that reports an entry, in pieces; an addition may go unannounced. -/
def notice (settings : Settings) (s : Student) : Entry → Option (List String)
  | .duplicate => some ["Student with ID ", s.id, " already exists\n"]
  | .added => if settings.announceAdditions then some ["Added student: ", s.name, "\n"] else none

/-- The event that an entry is. -/
def entryEvent (s : Student) : Entry → Event
  | .added => .inserted s.id
  | .duplicate => .rejected s.id

/-- Enters a student and reports what became of it. -/
def enter (r : Registrar) (s : Student) : Except SinkFault Entry × Registrar :=
  let (entry, register) := r.register.enter s
  let r := { r with register, log := r.log ++ [entryEvent s entry] }
  match notice r.settings s entry with
  | none => (.ok entry, r)
  | some pieces => ((r.publish pieces).1.map fun _ => entry, (r.publish pieces).2)

/-- The text of a listing, in pieces: the header, then a line for each student. -/
def listing (settings : Settings) (students : List Student) : List String :=
  settings.header :: "\n" :: students.flatMap fun s => [s.line, "\n"]

/-- Lists all students in some order. -/
def listIn (r : Registrar) (order : Order) : Except SinkFault Unit × Registrar :=
  { r with log := r.log ++ [Event.listing r.register.size] }.publish
    (listing r.settings (r.register.arranged order))

def list (r : Registrar) : Except SinkFault Unit × Registrar :=
  r.listIn .entry

end Registrar

/-! ## A sample run -/

namespace Sample

def students : List Student :=
  [⟨"1001", "Alice Johnson", 20⟩, ⟨"1002", "Bob Smith", 21⟩]

/-- Enters students one after another, up to the first failure. -/
def enterAll : Registrar → List Student → Except SinkFault Unit × Registrar
  | r, [] => (.ok (), r)
  | r, s :: rest =>
    match r.enter s with
    | (.error fault, r) => (.error fault, r)
    | (.ok _, r) => enterAll r rest

def run (settings : Settings) (sink : Sink) : Except SinkFault Unit × Registrar :=
  match enterAll { settings, sink } students with
  | (.error fault, r) => (.error fault, r)
  | (.ok (), r) => r.list

end Sample

end Enrollment
