import DataAgent.Json.Node
import DataAgent.Text.Shown

/-!
# Json — Mismatch

Why a JSON text does not hold a value of the type that was asked for. Either the text is
malformed, or it holds something else; the wording is in `DecodeError.message`.
-/

namespace DataAgent

/-- What stands in a text. -/
inductive Found
  | null
  | bool (value : Bool)
  | num (value : Number)
  | string (value : String)
  | sequence
  | map
  deriving Repr

/-- How messages describe what stands there. -/
def Found.message : Found → String
  | .null => "null"
  | .bool b => "boolean `" ++ (if b then "true" else "false") ++ "`"
  | .num (.int n) => "integer `" ++ String.ofList (intChars n) ++ "`"
  | .num (.double x) => "floating point `" ++ String.ofList x.chars ++ "`"
  | .string s => "string " ++ shown s
  | .sequence => "sequence"
  | .map => "map"

/-- What was asked for. -/
inductive Expected
  | string
  | boolean
  | unsigned (bits : Nat)
  | sequence
  | map
  | unit
  | record (name : String)
  | tagged (name : String)
  | variantTag
  | stringOrMap
  | singleKey
  | variantIndex (count : Nat)
  /-- A record written as an array, by its description. -/
  | fields (description : String) (count : Nat)
  | items (count : Nat)
  deriving Repr

/-- A number of elements. -/
def elements (count : Nat) : String :=
  toString count ++ if count = 1 then " element" else " elements"

/-- How messages describe what was asked for. -/
def Expected.message : Expected → String
  | .string => "a string"
  | .boolean => "a boolean"
  | .unsigned bits => "u" ++ toString bits
  | .sequence => "a sequence"
  | .map => "a map"
  | .unit => "unit"
  | .record name => "struct " ++ name
  | .tagged name => "internally tagged enum " ++ name
  | .variantTag => "variant identifier"
  | .stringOrMap => "string or map"
  | .singleKey => "map with a single key"
  | .variantIndex count => "variant index 0 <= i < " ++ toString count
  | .fields description count => description ++ " with " ++ elements count
  | .items count => elements count ++ " in sequence"

/-- Why a well-formed text is not of the type. -/
inductive Mismatch
  | missingField (name : String)
  | duplicateField (name : String)
  | unknownVariant (name : String) (known : List String)
  | invalidType (found : Found) (expected : Expected)
  | invalidValue (found : Found) (expected : Expected)
  | invalidLength (length : Nat) (expected : Expected)
  | noVariant (name : String)
  deriving Repr

/-- A name in backticks. -/
def ticked (name : String) : String := "`" ++ name ++ "`"

/-- The names of the variants of a type. -/
def alternatives : List String → String
  | [] => "there are no variants"
  | [a] => "expected " ++ ticked a
  | [a, b] => "expected " ++ ticked a ++ " or " ++ ticked b
  | names => "expected one of " ++ ", ".intercalate (names.map ticked)

/-- The wording of a mismatch. -/
def Mismatch.message : Mismatch → String
  | .missingField name => "missing field " ++ ticked name
  | .duplicateField name => "duplicate field " ++ ticked name
  | .unknownVariant name known => "unknown variant " ++ ticked name ++ ", " ++ alternatives known
  | .invalidType found expected =>
    "invalid type: " ++ found.message ++ ", expected " ++ expected.message
  | .invalidValue found expected =>
    "invalid value: " ++ found.message ++ ", expected " ++ expected.message
  | .invalidLength length expected =>
    "invalid length " ++ toString length ++ ", expected " ++ expected.message
  | .noVariant name => "data did not match any variant of untagged enum " ++ name

/-- Why a text does not hold a value of the type. -/
inductive DecodeError
  /-- It is malformed; the place is known when the fault is one of the text alone. -/
  | malformed (cause : FaultCause) (place : Option Place)
  | mismatch (reason : Mismatch)
  deriving Repr

namespace DecodeError

/-- A fault of the text. -/
def ofFault (f : Fault) : DecodeError := .malformed f.cause (some f.place)

/-- The wording of an error. -/
def message : DecodeError → String
  | .malformed cause _ => cause.message
  | .mismatch reason => reason.message

end DecodeError

/-- What stands at a node. -/
def Node.found : Node → Except Fault Found
  | .null => .ok .null
  | .bool b => .ok (.bool b)
  | .num n => .ok (.num n)
  | .str s => .ok (.string s)
  | .arr _ _ _ => .ok .sequence
  | .obj _ _ => .ok .map
  | .flawed f _ => .error f
  | .broken f _ => .error f

/-- The error of a node that is not what was asked for. -/
def Node.unexpected (node : Node) (expected : Expected) : DecodeError :=
  match node.found with
  | .ok found => .mismatch (.invalidType found expected)
  | .error f => .ofFault f

end DataAgent
