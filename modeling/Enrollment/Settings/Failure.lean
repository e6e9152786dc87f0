import Enrollment.Number.Binary64
import Enrollment.Settings.Value
import Enrollment.Text.CharacterClass

/-!
# Why settings cannot be loaded

A file may be no document, a variable may be no text, and what was gathered may
not have the shape or the types of settings.
-/

namespace Enrollment.Settings

inductive Setting where
  | header
  | announceAdditions
  deriving DecidableEq

namespace Setting

def key : Setting → String
  | .header => "header"
  | .announceAdditions => "announce_additions"

/-- The place of a setting where settings are given as a list. -/
def index : Setting → Nat
  | .header => 0
  | .announceAdditions => 1

/-- What the value of a setting has to be. -/
def wanted : Setting → String
  | .header => "a string"
  | .announceAdditions => "a boolean"

end Setting

/-- Where the value of a setting stands in the gathered tree. -/
inductive Position where
  /-- Under its key in a table. -/
  | keyed (s : Setting)
  /-- At its place in a list. -/
  | listed (s : Setting)
  deriving DecidableEq

namespace Position

def setting : Position → Setting
  | .keyed s => s
  | .listed s => s

def text : Position → String
  | .keyed s => "output." ++ s.key
  | .listed s => "output[" ++ toString s.index ++ "]"

end Position

/-- A value as far as a message describes it. -/
inductive Found where
  | nothing
  | boolean (b : Bool)
  | integer (n : Int)
  | float (x : Binary64)
  | text (s : String)
  | list
  | table
  deriving DecidableEq

namespace Found

def ofValue : Value → Found
  | .leaf _ .nil => .nothing
  | .leaf _ (.boolean b) => .boolean b
  | .leaf _ (.integer n) => .integer n
  | .leaf _ (.float x) => .float x
  | .leaf _ (.text s) => .text s
  | .list _ _ => .list
  | .table _ _ => .table

/-- The text of a number in a message: a finite one shows that it need not be whole. -/
def floatText : Binary64 → List Char
  | .finite negative m e =>
    let ds := (Binary64.finite negative m e).text
    if '.' ∈ ds then ds else ds ++ ['.', '0']
  | x => x.text

def description : Found → String
  | .nothing => "unit value"
  | .boolean b => "boolean `" ++ (if b then "true" else "false") ++ "`"
  | .integer n => "integer `" ++ toString n ++ "`"
  | .float x => "floating point `" ++ String.ofList (floatText x) ++ "`"
  | .text s => "string " ++ String.ofList (Text.quoted s.toList)
  | .list => "sequence"
  | .table => "map"

end Found

inductive Failure where
  | unparsed (file : String)
  /-- The value of a variable is no text. -/
  | undecodable (name : String) (value : Bytes)
  /-- The gathered settings are neither a table nor a list. -/
  | misshapen (found : Found)
  /-- A value cannot be read as its setting. -/
  | mistyped (found : Found) (position : Position) (origin : Origin)
  deriving DecidableEq

namespace Failure

/-- Why loading failed, without what all failures begin with.  The `cannot parse` of a file that is
no document stands for the message of the reader of documents, which tells the place and the
cause and is not modelled. -/
def reason : Failure → String
  | .unparsed file => "cannot parse " ++ file
  | .undecodable name value =>
    "env variable " ++ String.ofList (Text.quoted name.toList) ++ " contains non-Unicode data: " ++
      String.ofList (Text.quotedBytes value)
  | .misshapen found =>
    "invalid type: " ++ found.description ++ ", expected struct OutputConfig for key `output`"
  | .mistyped found position origin =>
    "invalid type: " ++ found.description ++ ", expected " ++ position.setting.wanted ++
      " for key `" ++ position.text ++ "`" ++
      match origin with
      | some o => " in " ++ o
      | none => ""

def message (f : Failure) : String :=
  "invalid configuration: " ++ f.reason

end Failure

end Enrollment.Settings
