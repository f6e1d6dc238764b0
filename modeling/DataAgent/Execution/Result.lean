import DataAgent.Response.Rows
import DataAgent.Sql.Aggregate

/-!
# Execution — Result

From the rows of a statement to the answer: there has to be one row, whose result column holds
the text of the answer.
-/

namespace DataAgent

/-- A row of a statement's result: the text in each column, or null. -/
abbrev ResultRow := Members (Option String)

/-- Why a compiled statement gives no answer. -/
inductive ExecutionError
  | engine (error : Sql.EngineError)
  /-- The statement did not end within so many seconds. -/
  | timeout (seconds : Nat)
  | noRows
  | tooManyRows (count : Nat)
  | missingColumn (column : String)
  | nullResult (column : String)
  | malformedOutput (error : DecodeError)
  deriving Repr

namespace ExecutionError

/-- The wording of an error; what the engine says is its own. -/
def message : ExecutionError → String
  | .engine _             => "the engine failed"
  | .timeout seconds      =>
    "the statement did not complete within " ++ toString (seconds * 1000) ++ " ms"
  | .noRows               => "the statement returned no rows"
  | .tooManyRows count    => "the statement returned " ++ toString count ++ " rows, expected one"
  | .missingColumn column => "no column found for name: " ++ column
  | .nullResult column    => "the result column '" ++ column ++ "' is null"
  | .malformedOutput e    => "malformed engine output: " ++ e.message

end ExecutionError

/-- The text in the result column of the only row. -/
def singleResult (column : String) : List ResultRow → Except ExecutionError String
  | [] => .error .noRows
  | [row] =>
    match Members.get? row column with
    | some (some text) => .ok text
    | some none        => .error (.nullResult column)
    | none             => .error (.missingColumn column)
  | rows => .error (.tooManyRows rows.length)

/-- The answer that the rows of a statement hold. -/
def decodeResult (column : String) (rows : List ResultRow) :
    Except ExecutionError QueryResponse := do
  let text ← singleResult column rows
  match decodeString QueryResponse.decoder text with
  | .ok response => .ok response
  | .error e     => .error (.malformedOutput e)

end DataAgent
