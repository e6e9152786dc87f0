import Enrollment.Settings.Failure
import Enrollment.Text.LowerCase

/-!
# The environment

Variables are named and valued by bytes.  Those whose names begin with
`ROSTER_`, in any case of letters, make up a layer of settings.
-/

namespace Enrollment

/-- The variables that are set, each with its value. -/
abbrev Environment := List (Bytes × Bytes)

namespace Environment

/-- The text of a variable that is named exactly so, if its value is one. -/
def text? (env : Environment) (name : String) : Option String :=
  ((env.lookup (bytesOf name)).bind Utf8.decode?).map String.ofList

/-- Whether a variable that is named exactly so has any value but the empty one. -/
def isFilled (env : Environment) (name : String) : Bool :=
  match env.lookup (bytesOf name) with
  | some value => !value.isEmpty
  | none => false

/-- What the names of variables that count begin with, in lower case. -/
def start : List Char := "roster_".toList

/-- The name of a variable in lower case and without its beginning, if it counts. -/
def settingName? (name : Bytes) : Option (List Char) :=
  (Utf8.decode? name).bind fun cs =>
    let w := Text.lower cs
    if start.isPrefixOf w then some (w.drop start.length) else none

/-- The key that a name stands for: two underscores lead one level down. -/
def keyOfName : List Char → List Char
  | '_' :: '_' :: r => '.' :: keyOfName r
  | c :: r => c :: keyOfName r
  | [] => []

/-- What the text of a variable says: a boolean or a number if it is written as one. -/
def scalarOfText (cs : List Char) : Scalar :=
  let w := Text.lower cs
  if w = "true".toList then .boolean true
  else if w = "false".toList then .boolean false
  else match Decimal.word? cs with
    | some n => .integer n
    | none =>
      match Binary64.parse? cs with
      | some x => .float x
      | none => .text (String.ofList cs)

/-- The origin of values from the environment. -/
def origin : Settings.Origin := some "the environment"

/-- The layer that variables add to one already gathered. -/
def layerFrom :
    Entries Settings.Value → Environment → Except Settings.Failure (Entries Settings.Value)
  | es, [] => .ok es
  | es, (name, value) :: env =>
    match settingName? name with
    | none => layerFrom es env
    | some n =>
      match Utf8.decode? value with
      | none => .error (.undecodable (String.ofList n) value)
      | some cs =>
        let k := String.ofList (keyOfName n)
        layerFrom (Entries.put k (.leaf origin (scalarOfText cs)) es) env

/-- The layer that the variables make up.  Of two variables for one key the later one counts. -/
def layer (env : Environment) : Except Settings.Failure (Entries Settings.Value) :=
  layerFrom [] env

end Environment

end Enrollment
