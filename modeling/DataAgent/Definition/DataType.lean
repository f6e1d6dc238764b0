import DataAgent.Definition.Reader

/-!
# Definition — DataType

Declared types. A known type has the arguments it may have, and some have a second word; any
other name is a type too, with any list of arguments.
-/

namespace DataAgent.Definition

open Reader

/-- A declared type as text. -/
structure DataType where
  text : String
  /-- The name is one of the known ones. -/
  known : Bool
  deriving DecidableEq, Repr

/-- Types without arguments. -/
def bareTypes : List String :=
  ["BOOLEAN", "BOOL", "REAL", "FLOAT4", "FLOAT8", "FLOAT32", "FLOAT64", "INT16", "INT32", "INT64",
    "INT128", "INT256", "UINT8", "UINT16", "UINT32", "UINT64", "UINT128", "UINT256", "TINYBLOB",
    "MEDIUMBLOB", "LONGBLOB", "UUID", "DATE", "DATE32", "INTERVAL", "JSON", "JSONB", "REGCLASS", "TEXT",
    "TINYTEXT", "MEDIUMTEXT", "LONGTEXT", "BYTEA", "TRIGGER"]

/-- Types with a length or precision, if one is given. -/
def sizedTypes : List String :=
  ["FLOAT", "CLOB", "BINARY", "VARBINARY", "BLOB", "BYTES", "DATETIME", "STRING", "TIMESTAMPTZ", "TIMETZ"]

/-- Integers, which may be unsigned. -/
def integerTypes : List String :=
  ["TINYINT", "INT2", "SMALLINT", "MEDIUMINT", "INT", "INT4", "INT8", "INTEGER", "BIGINT"]

/-- Numbers with a precision and a scale, if they are given. -/
def exactTypes : List String := ["NUMERIC", "DECIMAL", "DEC", "BIGNUMERIC", "BIGDECIMAL"]

/-- An argument in parentheses, if a parenthesis opens. -/
def argument (r : Reader String) : Reader String := do
  if ← symbol "(" then
    let s ← r
    must (symbol ")")
    return "(" ++ s ++ ")"
  else return ""

/-- A length or precision. -/
def size : Reader String := argument natural

/-- A length in characters or octets. -/
def characterLength : Reader String := argument do
  if ← keyword "MAX" then return "MAX"
  let n ← natural
  let _ ← oneOf ["CHARACTERS", "OCTETS"]
  return n

/-- A precision, and a scale after a comma. -/
def precisionScale : Reader String := argument do
  let precision ← natural
  if ← symbol "," then return precision ++ "," ++ (← natural) else return precision

/-- Whether a time has a zone. -/
def timeZone : Reader String := do
  if ← keyword "WITH" then
    must (keywords ["TIME", "ZONE"])
    return " WITH TIME ZONE"
  if ← keyword "WITHOUT" then
    must (keywords ["TIME", "ZONE"])
    return " WITHOUT TIME ZONE"
  return ""

/-- Characters, of a varying length or in a large object. -/
def characters : Reader String := do
  if ← keyword "VARYING" then return " VARYING" ++ (← characterLength)
  if ← keywords ["LARGE", "OBJECT"] then return " LARGE OBJECT" ++ (← size)
  characterLength

/-- The arguments of a type that is not known, up to the closing parenthesis. -/
def modifiers : Nat → Reader Unit
  | 0 => failure
  | fuel + 1 => do
    match ← next with
    | .symbol ")" => return ()
    | .symbol "," | .word _ _ | .number _ | .text _ => modifiers fuel
    | _ => failure

/-- A type that is not known. A quoted name is not the name of a known type. -/
def otherType : Reader DataType := do
  let quoted := match ← ahead with
    | .word _ true :: _ => true
    | _                 => false
  let parts ← path
  if ← symbol "(" then
    let tokens ← ahead
    modifiers tokens.length
  let text := ".".intercalate parts
  return { text := if quoted then "\"" ++ text else text, known := false }

/-- The rest of a known type after its name, if the name is known. -/
def knownRest (name : String) : Option (Reader String) :=
  if bareTypes.contains name then some (return "")
  else if sizedTypes.contains name then some size
  else if exactTypes.contains name then some precisionScale
  else if integerTypes.contains name then some do
    let args ← size
    return args ++ (if ← keyword "UNSIGNED" then " UNSIGNED" else "")
  else match name with
    | "DOUBLE" => some do return if ← keyword "PRECISION" then " PRECISION" else ""
    | "VARCHAR" | "NVARCHAR" => some characterLength
    | "CHARACTER" | "CHAR" => some characters
    | "BIT" => some do
      if ← keyword "VARYING" then return " VARYING" ++ (← size) else size
    | "TIMESTAMP" | "TIME" => some do
      let precision ← size
      return precision ++ (← timeZone)
    | "ENUM" | "SET" => some do
      let _ ← parens (commas text)
      return ""
    | "ARRAY" => some failure
    | "FIXEDSTRING" => some (parens natural)
    | _ => none

/-- A declared type. -/
def dataType : Reader DataType := do
  match ← ahead with
  | .word s false :: _ =>
    match knownRest s.toUpper with
    | some rest => do
      let _ ← next
      return { text := s.toUpper ++ (← rest), known := true }
    | none => otherType
  | .word _ true :: _ => otherType
  | _ => failure

end DataAgent.Definition
