import DataAgent.Service.Address
import DataAgent.Text.Blank

/-!
# Service — Options

The options of the command line. An option's value is checked when the next known option is met,
or at the end, so an argument that nobody knows is reported before a bad value ahead of it.
-/

namespace DataAgent

/-- A text that means yes: `1`, `true`, `t`, `yes` or `y` in any case. Only ASCII letters are
lowered: the lower case of no other character occurs in these words. -/
def isTruthy (s : String) : Bool :=
  ["1", "true", "t", "yes", "y"].contains
    (String.ofList (trimBlanks (s.toList.map Char.toLower)))

/-- How the agent is to be served. -/
structure ServerOptions where
  /-- The directory with the configuration file. -/
  configuration : String := "."
  port : Nat := 8100
  host : IpAddress := .v4 [0, 0, 0, 0]
  /-- Requests from any origin are allowed. -/
  permissiveCors : Bool := false
  deriving DecidableEq, Repr

/-- Why the command line gives no options. -/
inductive OptionsError
  /-- A value cannot be read. -/
  | badValue
  /-- A value is missing or empty. -/
  | noValue
  | unknownArgument
  /-- An option is given twice. -/
  | repeated
  /-- A value for an option that takes none. -/
  | surplusValue
  | helpWanted
  | versionWanted
  deriving DecidableEq, Repr

namespace ServerOptions

/-- An option with a value. -/
inductive Key
  | configuration
  | port
  | host
  | permissiveCors
  deriving DecidableEq, Repr

/-- The option of a long name. -/
def key? : String → Option Key
  | "configuration"   => some .configuration
  | "port"            => some .port
  | "host"            => some .host
  | "permissive-cors" => some .permissiveCors
  | _                 => none

/-- A port: a decimal of sixteen bits, perhaps with a plus sign. -/
def readPort (s : String) : Option Nat :=
  let digits := match s.toList with
    | '+' :: rest => rest
    | cs          => cs
  let n := digits.foldl (fun n c => 10 * n + (c.toNat - 48)) 0
  if !digits.isEmpty && digits.all Char.isDigit && n < 65536 then some n else none

/-- The options with the value of one of them. Only the last may do without. -/
def assign (o : ServerOptions) : Key → Option String → Except OptionsError ServerOptions
  | .permissiveCors, value => .ok { o with permissiveCors := value.all isTruthy }
  | _, none => .error .noValue
  | .configuration, some s =>
    if s.isEmpty then .error .noValue else .ok { o with configuration := s }
  | .port, some s =>
    match readPort s with
    | some port => .ok { o with port }
    | none => .error .badValue
  | .host, some s =>
    match IpAddress.ofString? s with
    | some host => .ok { o with host }
    | none => .error .badValue

/-- The options so far, which were given, and the last one if it is not settled yet. -/
structure Progress where
  options : ServerOptions := {}
  given : List Key := []
  pending : Option (Key × Option String) := none

namespace Progress

/-- An option with its value. -/
def take (p : Progress) (key : Key) (value : Option String) : Except OptionsError Progress := do
  if value.isNone && key ≠ .permissiveCors then throw .noValue
  if p.given.contains key then throw .repeated
  return { options := ← p.options.assign key value, given := key :: p.given }

/-- With the last option settled. -/
def settle (p : Progress) : Except OptionsError Progress :=
  match p.pending with
  | none              => .ok p
  | some (key, value) => { p with pending := none }.take key value

/-- A known option is met, by its long name; `=` may have a value follow it. -/
def meet (p : Progress) (key : Key) (value : Option String) : Except OptionsError Progress := do
  let p ← p.settle
  match value with
  | some _ => p.take key value
  | none   => return { p with pending := some (key, none) }

/-- A long option without its dashes. -/
def long (p : Progress) (text : List Char) : Except OptionsError Progress :=
  let name := String.ofList (text.takeWhile (· ≠ '='))
  let value := match text.dropWhile (· ≠ '=') with
    | '=' :: rest => some (String.ofList rest)
    | _           => none
  match key? name, name with
  | some key, _ => p.meet key value
  | none, "help" => do
    if value.isSome then throw .surplusValue
    let _ ← p.settle
    throw .helpWanted
  | none, "version" => do
    if value.isSome then throw .surplusValue
    let _ ← p.settle
    throw .versionWanted
  | none, _ => .error .unknownArgument

/-- A short option without its dash. -/
def short (p : Progress) (c : Char) : Except OptionsError Progress := do
  if c ≠ 'h' && c ≠ 'V' then throw .unknownArgument
  let _ ← p.settle
  throw (if c = 'h' then .helpWanted else .versionWanted)

/-- An argument: an option, or the value of the last one. -/
def argument (p : Progress) (arg : String) : Except OptionsError Progress :=
  match arg.toList with
  | '-' :: '-' :: text => p.long text
  | '-' :: c :: _ => p.short c
  | _ =>
    match p.pending with
    | some (key, none) => .ok { p with pending := some (key, some arg) }
    | _ => .error .unknownArgument

/-- All arguments. After `--` there may be none. -/
def arguments (p : Progress) : List String → Except OptionsError Progress
  | [] => .ok p
  | ["--"] => .ok p
  | "--" :: _ => .error .unknownArgument
  | arg :: args => do (← p.argument arg).arguments args

end Progress

/-- The options of the arguments of a command line. -/
def ofArguments (args : List String) : Except OptionsError ServerOptions := do
  return (← (← ({} : Progress).arguments args).settle).options

end ServerOptions

end DataAgent
