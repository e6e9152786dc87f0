import Enrollment.Text.Utf8

/-!
# Students, settings and events

What is kept, what can be chosen and what is told to an observer.  Where
something is taken in an order that nothing fixes, an arrangement stands for it.
-/

namespace Enrollment

/-! ## Arrangements -/

/-- An order in which members of a list are taken, which may be any rearrangement. -/
structure Arrangement (α : Type) where
  arrange : List α → List α
  perm : ∀ members, (arrange members).Perm members

/-- Members are taken as they come. -/
def Arrangement.arrival {α : Type} : Arrangement α := ⟨id, fun _ => .rfl⟩

/-! ## Students -/

/-- A student as entered.  All of it is taken as given: nothing is checked or trimmed, and an
empty name or a negative age is as good as any other. -/
structure Student where
  id : String
  name : String
  age : Int32
  deriving DecidableEq, Hashable

/-- The line that a listing shows for a student, without its newline. -/
def Student.line (s : Student) : String :=
  "ID: " ++ s.id ++ ", Name: " ++ s.name ++ ", Age: " ++ toString s.age.toInt

/-! ## Settings -/

/-- What can be chosen about the text that a registrar writes. -/
structure Settings where
  header : String
  announceAdditions : Bool
  deriving DecidableEq

namespace Settings

/-- The settings that hold where nothing is chosen. -/
def standard : Settings := ⟨"All Students:", true⟩

instance : Inhabited Settings := ⟨standard⟩

end Settings

/-! ## Events -/

inductive Level where
  | debug
  | trace
  deriving DecidableEq

def Level.name : Level → String
  | .debug => "DEBUG"
  | .trace => "TRACE"

/-- What a registrar and the loading of settings tell an observer while they work. -/
inductive Event where
  /-- A student was entered under a new id. -/
  | inserted (id : String)
  /-- An entry was turned away because its id was taken. -/
  | rejected (id : String)
  /-- A listing was begun, of so many students. -/
  | listing (count : Nat)
  /-- Settings are being loaded by way of a path. -/
  | loading (path : String)
  deriving DecidableEq

namespace Event

def level : Event → Level
  | .listing _ => .trace
  | _ => .debug

/-- The text of an event, without what it is about. -/
def message : Event → String
  | .inserted _ => "inserted student"
  | .rejected _ => "rejected duplicate student id"
  | .listing _ => "listing students"
  | .loading _ => "loading config"

end Event

end Enrollment
