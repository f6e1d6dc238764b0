import DataAgent.Json.Decode
import DataAgent.Text.Blank

/-!
# Catalog — ScalarType

The three types a column has for a client, and how a declared type is read as one of them: by
its lower-case name, without what stands in parentheses.
-/

namespace DataAgent

/-- The type of a column's values. -/
inductive ScalarType
  | string
  | number
  | bool
  deriving DecidableEq, Repr

namespace ScalarType

/-- All types. -/
def all : List ScalarType := [.string, .number, .bool]

/-- The name of a type. -/
def name : ScalarType → String
  | .string => "string"
  | .number => "number"
  | .bool   => "bool"

/-- The type of a document. -/
def decoder : Decoder ScalarType := Decode.choice (all.map fun t => (t.name, t))

/-- The aggregates of a column of the type, each with the type of its result. -/
def aggregates : ScalarType → List (String × ScalarType)
  | .number => [("avg", .number), ("max", .number), ("min", .number), ("sum", .number)]
  | .string => [("max", .string), ("min", .string)]
  | .bool   => []

/-- The type that a plain lower-case name declares. -/
def ofName : String → Option ScalarType
  | "bool" | "boolean" => some .bool
  | "number" | "numeric" | "integer" | "int" | "bigint" | "smallint" | "tinyint" => some .number
  | "double" | "double precision" | "float" | "real" | "decimal" => some .number
  | "string" | "text" | "char" | "varchar" | "nvarchar" | "nchar" | "character" | "clob" =>
    some .string
  | _ => none

/-- The type that a column's declaration gives it, if it is a known one. Only ASCII letters are
lowered: the lower case of no other character occurs in a known name. -/
def ofDeclared (declared : String) : Option ScalarType :=
  let base := (declared.toList.map Char.toLower).takeWhile (· ≠ '(')
  ofName (String.ofList (trimBlanks base))

end ScalarType

end DataAgent
