import DataAgent.Json.Record

/-!
# Config — Secret

Values of the configuration that are given inline or by the name of an environment variable, and
the environments they are read from.
-/

namespace DataAgent

open Decode

/-- A value given inline, or by the variable that holds it. -/
inductive Secret
  | plain (value : String)
  | fromVariable (variableName : String)
  deriving DecidableEq, Repr

/-- Why a variable cannot be read. -/
inductive VariableError
  | missing (name : String)
  | notText (name : String)
  deriving DecidableEq, Repr

/-- The wording of an error. -/
def VariableError.message : VariableError → String
  | .missing name => "the environment variable " ++ name ++ " is not set"
  | .notText name => "the environment variable " ++ name ++ " is not valid unicode"

/-- What a process finds in its environment: the text of a variable, or that it is not text. -/
abbrev Environment := String → Except VariableError String

/-- The environment of variables with the given bytes. The first entry for a name counts. -/
def Environment.ofBytes (values : List (String × List UInt8)) : Environment := fun name =>
  match values.lookup name with
  | none => .error (.missing name)
  | some bytes =>
    match (Text.ofBytes bytes).toString? with
    | some s => .ok s
    | none => .error (.notText name)

namespace Secret

/-- The secret as a document. -/
def json : Secret → Json
  | .plain value       => .str value
  | .fromVariable name => .obj [("variable", .str name)]

/-- The name of a variable, in an object. -/
def variableDecoder : Decoder Secret :=
  record "Secret" (.cons (.required "variable" string) .nil) fun (name, ()) => .fromVariable name

/-- The secret of a document. -/
def decoder : Decoder Secret :=
  untagged "Secret" fun node => match node with
    | .str s   => some (.plain s)
    | .obj _ _ => (variableDecoder .buffered node).toOption
    | _        => none

/-- The value of a secret. -/
def resolve (environment : Environment) : Secret → Except VariableError String
  | .plain value       => .ok value
  | .fromVariable name => environment name

end Secret

end DataAgent
