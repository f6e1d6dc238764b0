import DataAgent.Execution.Memory
import DataAgent.Service.Options
import DataAgent.Service.Route

/-!
# Main

The command line: reads the options and the configuration, then answers the requests that come
in on the standard input, each a request line, headers, an empty line and a body of as many bytes
as its `content-length` says. Databases are held in memory.
-/

namespace DataAgent.CommandLine

/-- What is said of options that are not accepted. -/
def optionsMessage : OptionsError → String
  | .badValue        => "error: invalid value for an option"
  | .noValue         => "error: an option lacks its value"
  | .unknownArgument => "error: unexpected argument found"
  | .repeated        => "error: an option cannot be used multiple times"
  | .surplusValue    => "error: unexpected value for an option"
  | .helpWanted      =>
    "Options: --configuration <DIRECTORY> --port <PORT> --host <HOST> --permissive-cors [<BOOL>]"
  | .versionWanted   => "0.1.1"

/-- A text without blanks at its ends. -/
def trimmed (s : String) : String := String.ofList (trimBlanks s.toList)

/-- A header by its line. -/
def headerOf (line : String) : String × Text :=
  let value := (line.toList.dropWhile (· ≠ ':')).drop 1
  (trimmed (String.ofList (line.toList.takeWhile (· ≠ ':'))),
    .ofString (trimmed (String.ofList value)))

/-- A request without its body, by its first line and its headers. -/
def requestOf (first : String) (headers : List (String × Text)) : HttpRequest :=
  let rest := (first.toList.dropWhile (· ≠ ' ')).drop 1
  { method := .ofString (String.ofList (first.toList.takeWhile (· ≠ ' ')))
    target := String.ofList (rest.takeWhile (· ≠ ' '))
    headers }

/-- The number of bytes in the body of a request. -/
def bodySize (r : HttpRequest) : Nat :=
  (((r.header? "content-length").bind Text.toString?).bind String.toNat?).getD 0

/-- A response as it is sent. -/
def responseText (r : HttpResponse) : String :=
  let lines := r.headers.map fun (name, value) => name ++ ": " ++ value ++ "\r\n"
  "HTTP/1.1 " ++ toString r.status.code ++ "\r\n" ++ lines.foldl (· ++ ·) "" ++
    "content-length: " ++ toString r.body.utf8ByteSize ++ "\r\n\r\n" ++ r.body

/-- The text of the configuration file, if it can be read. -/
def configurationText (folder : String) : IO (Option Text) := do
  try
    let bytes ← IO.FS.readBinFile (folder ++ "/" ++ ConfigurationFile.fileName)
    return some (.ofBytes bytes.toList)
  catch _ => return none

/-- The variables that the databases of a configuration are found by. -/
def neededVariables (file : ConfigurationFile) : IO (List (String × List UInt8)) := do
  let names := file.databases.filterMap fun (_, s) => match s.path with
    | .fromVariable name => some name
    | .plain _           => none
  let found ← names.mapM fun name => do
    return (← IO.getEnv name).map fun value => (name, value.toUTF8.toList)
  return found.filterMap id

/-- The header lines up to the empty one. -/
partial def readHeaders (input : IO.FS.Stream) : IO (List (String × Text)) := do
  let line := trimmed (← input.getLine)
  if line.isEmpty then return []
  return headerOf line :: (← readHeaders input)

/-- So many bytes, or fewer at the end of the input. -/
partial def readBytes (input : IO.FS.Stream) (count : Nat) : IO (List UInt8) := do
  if count = 0 then return []
  let chunk ← input.read count.toUSize
  if chunk.isEmpty then return []
  return chunk.toList ++ (← readBytes input (count - chunk.size))

/-- Answers requests until the input ends. -/
partial def serve (agent : Agent Storage) (anySite : Bool) (state : AgentState Storage) :
    IO Unit := do
  let input ← IO.getStdin
  let line ← input.getLine
  if line.isEmpty then return
  let request := requestOf (trimmed line) (← readHeaders input)
  let body ← readBytes input (bodySize request)
  let (responses, state) :=
    (agent.serveAll anySite [{ request with body := .ofBytes body }]).run state
  for response in responses do
    IO.print (responseText response)
  (← IO.getStdout).flush
  serve agent anySite state

/-- The message of an error, and the exit code of a failure. -/
def fail (message : String) : IO UInt32 := do
  IO.eprintln message
  return 1

/-- Serves with the options. -/
def start (options : ServerOptions) : IO UInt32 := do
  match ConfigurationFile.ofFile (← configurationText options.configuration) with
  | .error e => fail e.message
  | .ok file =>
    match file.resolve (.ofBytes (← neededVariables file)) with
    | .error e => fail e.message
    | .ok configuration =>
      let agent : Agent Storage :=
        { configuration, engine := Storage.engine, read := Definition.read }
      serve agent options.permissiveCors { engine := {} }
      return 0

end DataAgent.CommandLine

open DataAgent in
/-- Runs the agent with the arguments of the command line. -/
def main (args : List String) : IO UInt32 := do
  match ServerOptions.ofArguments args with
  | .ok options => CommandLine.start options
  | .error e =>
    match e with
    | .helpWanted | .versionWanted =>
      IO.println (CommandLine.optionsMessage e)
      return 0
    | _ =>
      IO.eprintln (CommandLine.optionsMessage e)
      return 2
