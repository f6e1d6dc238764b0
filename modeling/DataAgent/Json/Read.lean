import DataAgent.Json.Node

/-!
# Json — Read

Reading a text into its outline (`Node.read`). The reader goes as far as the text can be
followed at all; what it meets on the way that only a close reading objects to is noted in the
outline. Containers nest at most 127 deep for a close reading.
-/

namespace DataAgent

namespace Node

/-- The text after its leading blanks. -/
def skipBlanks : Text → Text
  | [] => []
  | s :: rest =>
    if s.is ' ' || s.is '\n' || s.is '\t' || s.is '\r' then skipBlanks rest else s :: rest

/-- A fault at the first symbol of a text, which counts as one byte. -/
def faultAt (cause : FaultCause) (text : Text) : Fault := ⟨cause, { rest := text, ahead := 1 }⟩

/-- A fault at the end of the text. -/
def faultAtEnd (cause : FaultCause) : Fault := ⟨cause, .atEnd⟩

/-- A value that stops here, however closely it is read. -/
def stop (f : Fault) : Node × Option Text := (.broken f f, none)

/-! ### Words -/

/-- A value written as a word, the letters of which are due. -/
def word (value : Node) : List Char → Text → Node × Option Text
  | [], text => (value, some text)
  | _ :: _, [] => stop (faultAtEnd .endInValue)
  | c :: letters, s :: rest =>
    if s.is c then word value letters rest else stop (faultAt .expectedIdent (s :: rest))

/-! ### Numbers -/

/-- The value of a decimal digit. -/
def digit? : Symbol → Option Nat
  | .char c => if c.isDigit then some (c.toNat - '0'.toNat) else none
  | .stray => none

/-- The leading digits of a text, and the rest. -/
def digits : Text → List Nat × Text
  | [] => ([], [])
  | s :: rest => match digit? s with
    | some d => let (ds, rest) := digits rest; (d :: ds, rest)
    | none => ([], s :: rest)

/-- The natural of some digits. -/
def natural (ds : List Nat) : Nat := ds.foldl (fun n d => 10 * n + d) 0

/-- A number that the text ends in: skipping finds it malformed. -/
def unfinished : Node × Option Text :=
  (.broken (faultAtEnd .endInValue) (faultAtEnd .invalidNumber), none)

/-- The double of a decimal. One beyond the largest cannot be read. -/
def double (x : Decimal) (rest : Text) : Node × Option Text :=
  match x.nearest with
  | some d => (.num (.double d), some rest)
  | none => (.flawed ⟨.numberOutOfRange, { rest }⟩ (.num (.int 0)), some rest)

/-- A number without fraction and exponent: an integer if it fits sixty-four bits, unsigned or
with a sign, else a double. Zero with a sign is a double. -/
def whole (negative : Bool) (n : Nat) (rest : Text) : Node × Option Text :=
  if !negative && n < Nat.pow 2 64 then (.num (.int n), some rest)
  else if negative && 0 < n && n ≤ Nat.pow 2 63 then (.num (.int (-n)), some rest)
  else double { negative, digits := n } rest

/-- The exponent of a number, from its sign on. -/
def exponent (x : Decimal) (text : Text) : Node × Option Text :=
  let (negative, rest) := match text with
    | s :: rest => if s.is '+' then (false, rest) else if s.is '-' then (true, rest) else (false, text)
    | [] => (false, [])
  match digits rest with
  | ([], []) => unfinished
  | ([], rest) => stop (faultAt .invalidNumber rest)
  | (ds, rest) =>
    let e : Int := natural ds
    double { x with exponent := x.exponent + if negative then -e else e } rest

/-- What follows the digits before the point. -/
def afterWhole (negative : Bool) (ds : List Nat) (text : Text) : Node × Option Text :=
  match text with
  | [] => whole negative (natural ds) []
  | s :: rest =>
    if s.is '.' then
      match digits rest with
      | ([], []) => unfinished
      | ([], rest) => stop (faultAt .invalidNumber rest)
      | (fs, rest) =>
        let x : Decimal :=
          { negative, digits := natural (ds ++ fs), exponent := -(fs.length : Int) }
        match rest with
        | [] => double x []
        | s :: after => if s.is 'e' || s.is 'E' then exponent x after else double x rest
    else if s.is 'e' || s.is 'E' then exponent { negative, digits := natural ds } rest
    else whole negative (natural ds) text

/-- A number after its sign. -/
def unsigned (negative : Bool) (text : Text) : Node × Option Text :=
  match digits text with
  | ([], []) => unfinished
  | ([], rest) => stop (faultAt .invalidNumber rest)
  | (0 :: _ :: _, _) => stop (faultAt .invalidNumber text.tail)
  | (ds, rest) => afterWhole negative ds rest

/-! ### Strings -/

/-- A string literal, as far as it can be followed. -/
inductive Scanned
  | closed (key : Key) (rest : Text)
  | stopped (strict skipped : Fault)

/-- The value of a hexadecimal digit. -/
def hexDigit? : Symbol → Option Nat
  | .char c =>
    if c.isDigit then some (c.toNat - '0'.toNat)
    else if 'a' ≤ c ∧ c ≤ 'f' then some (c.toNat - 'a'.toNat + 10)
    else if 'A' ≤ c ∧ c ≤ 'F' then some (c.toNat - 'A'.toNat + 10)
    else none
  | .stray => none

/-- The value of four hexadecimal digits. -/
def hex4? (a b c d : Symbol) : Option Nat := do
  return (((← hexDigit? a) * 16 + (← hexDigit? b)) * 16 + (← hexDigit? c)) * 16 + (← hexDigit? d)

/-- The character of an escape of one letter. -/
def shortEscape? : Symbol → Option Char
  | .char '"' => some '"'
  | .char '\\' => some '\\'
  | .char '/' => some '/'
  | .char 'b' => some '\x08'
  | .char 'f' => some '\x0c'
  | .char 'n' => some '\n'
  | .char 'r' => some '\r'
  | .char 't' => some '\t'
  | _ => none

/-- A lead surrogate. -/
def isLead (n : Nat) : Bool := 0xD800 ≤ n && n ≤ 0xDBFF

/-- A trail surrogate. -/
def isTrail (n : Nat) : Bool := 0xDC00 ≤ n && n ≤ 0xDFFF

/-- What has been read of a string literal. -/
structure Scanning where
  /-- The characters, last first. -/
  read : List Char := []
  /-- A lead surrogate that waits for its trail. -/
  lead : Option Nat := none
  /-- The first thing a close reading objects to. -/
  flaw : Option Fault := none
  /-- There is a stray byte. -/
  stray : Bool := false

namespace Scanning

/-- A further objection, which the first one hides. -/
def object (s : Scanning) (f : Fault) : Scanning := { s with flaw := s.flaw <|> some f }

/-- Something other than an escaped trail surrogate follows, at `text`. -/
def unpaired (s : Scanning) (text : Text) : Scanning :=
  if s.lead.isSome then { s.object (faultAt .unfinishedSurrogate text) with lead := none } else s

/-- One more character. -/
def push (s : Scanning) (c : Char) : Scanning := { s with read := c :: s.read }

/-- An escaped code unit, before `rest`. A lead and a trail make one character. -/
def unit (s : Scanning) (n : Nat) (rest : Text) : Scanning :=
  match s.lead with
  | some lead =>
    if isTrail n then
      { s with lead := none }.push (Char.ofNat (0x10000 + (lead - 0xD800) * 0x400 + (n - 0xDC00)))
    else { s.object ⟨.loneSurrogate, { rest }⟩ with lead := if isLead n then some n else none }
  | none =>
    if isTrail n then s.object ⟨.loneSurrogate, { rest }⟩
    else if isLead n then { s with lead := some n }
    else s.push (Char.ofNat n)

/-- The literal ends before `rest`. -/
def close (s : Scanning) (rest : Text) : Scanned :=
  let s := if s.stray then s.object ⟨.invalidUnicode, { rest }⟩ else s
  .closed { text := String.ofList s.read.reverse, flaw := s.flaw } rest

/-- The literal cannot be followed any further. -/
def halt (s : Scanning) (f : Fault) : Scanned := .stopped (s.flaw.getD f) f

end Scanning

/-- A string literal after its opening quote. -/
def scan (s : Scanning) : Text → Scanned
  | [] => s.halt (faultAtEnd .endInString)
  | .char '"' :: rest => (s.unpaired (.char '"' :: rest)).close rest
  | [.char '\\'] => s.halt (faultAtEnd .endInString)
  | .char '\\' :: .char 'u' :: a :: b :: c :: d :: rest => match hex4? a b c d with
    | some n => scan (s.unit n rest) rest
    | none => s.halt ⟨.invalidEscape, { rest := a :: b :: c :: d :: rest, ahead := 4 }⟩
  | .char '\\' :: .char 'u' :: rest =>
    if Text.size rest < 4 then s.halt (faultAtEnd .endInString)
    else s.halt ⟨.invalidEscape, { rest, ahead := 4 }⟩
  | .char '\\' :: e :: rest =>
    let s := s.unpaired (e :: rest)
    match shortEscape? e with
    | some c => scan (s.push c) rest
    | none => s.halt (faultAt .invalidEscape (e :: rest))
  | .char c :: rest =>
    let s := s.unpaired (.char c :: rest)
    if c.toNat < 0x20 then s.halt ⟨.controlCharacter, { rest := .char c :: rest }⟩
    else scan (s.push c) rest
  | .stray :: rest => scan { s.unpaired (.stray :: rest) with stray := true } rest

/-- A string value after its opening quote. -/
def string (text : Text) : Node × Option Text :=
  match scan {} text with
  | .closed { text, flaw := none } rest => (.str text, some rest)
  | .closed { text, flaw := some f } rest => (.flawed f (.str text), some rest)
  | .stopped strict skipped => (.broken strict skipped, none)

/-! ### Values -/

/-- The items of an array as far as they go, and the text after it. -/
structure ItemsRead where
  items : List Node := []
  starts : List Place := []
  ending : Ending
  rest : Option Text := none

/-- The members of an object as far as they go, and the text after it. -/
structure MembersRead where
  members : List (Key × Node) := []
  ending : Ending
  rest : Option Text := none

/-- A container, which a close reading does not enter when no level is left. -/
def container (level : Nat) (text : Text) (node : Node) : Node :=
  if level = 0 then .flawed (faultAt .tooDeep text) node else node

mutual

/-- The value at the start of a text, and what follows it if it can be read to its end. Each
call spends a unit of `fuel`, and two units a symbol suffice; `level` more containers may nest
here. -/
def value : Nat → Nat → Text → Node × Option Text
  | 0, _, text => stop (faultAt .expectedValue text)
  | fuel + 1, level, text => match skipBlanks text with
    | [] => stop (faultAtEnd .endInValue)
    | s :: rest =>
      if s.is 'n' then word .null ['u', 'l', 'l'] rest
      else if s.is 't' then word (.bool true) ['r', 'u', 'e'] rest
      else if s.is 'f' then word (.bool false) ['a', 'l', 's', 'e'] rest
      else if s.is '"' then string rest
      else if s.is '-' then unsigned true rest
      else if (digit? s).isSome then unsigned false (s :: rest)
      else if s.is '[' then
        let r := items fuel (level - 1) true rest
        (container level (s :: rest) (.arr r.items r.starts r.ending), r.rest)
      else if s.is '\x7b' then
        let r := members fuel (level - 1) true rest
        (container level (s :: rest) (.obj r.members r.ending), r.rest)
      else stop (faultAt .expectedValue (s :: rest))

/-- The items from here on; `first` before any of them. -/
def items : Nat → Nat → Bool → Text → ItemsRead
  | 0, _, _, _ => { ending := .missing }
  | fuel + 1, level, first, text =>
    let item (text : Text) : ItemsRead :=
      let start : Place := { rest := text, ahead := 1 }
      match value fuel level text with
      | (node, none) => { items := [node], starts := [start], ending := .broken }
      | (node, some rest) =>
        let r := items fuel level false rest
        { r with items := node :: r.items, starts := start :: r.starts }
    match skipBlanks text with
    | [] => { ending := .missing }
    | s :: rest =>
      if s.is ']' then { ending := .closed, rest := some rest }
      else if first then item (s :: rest)
      else if s.is ',' then match skipBlanks rest with
        | [] => { ending := .missingAfterComma }
        | s :: rest =>
          if s.is ']' then { ending := .trailingComma { rest := s :: rest, ahead := 1 } }
          else item (s :: rest)
      else { ending := .unseparated { rest := s :: rest, ahead := 1 } }

/-- The members from here on; `first` before any of them. -/
def members : Nat → Nat → Bool → Text → MembersRead
  | 0, _, _, _ => { ending := .missing }
  | fuel + 1, level, first, text =>
    let member (text : Text) : MembersRead :=
      match scan {} text with
      | .stopped strict skipped => { ending := .brokenKey strict skipped }
      | .closed key rest => match skipBlanks rest with
        | [] =>
          let f := faultAtEnd .endInObject
          { members := [(key, .broken f f)], ending := .broken }
        | s :: rest =>
          if s.is ':' then match value fuel level rest with
            | (node, none) => { members := [(key, node)], ending := .broken }
            | (node, some rest) =>
              let r := members fuel level false rest
              { r with members := (key, node) :: r.members }
          else
            let f := faultAt .expectedColon (s :: rest)
            { members := [(key, .broken f f)], ending := .broken }
    match skipBlanks text with
    | [] => { ending := .missing }
    | s :: rest =>
      if s.is '\x7d' then { ending := .closed, rest := some rest }
      else if first then
        if s.is '"' then member rest
        else { ending := .badKey { rest := s :: rest, ahead := 1 } }
      else if s.is ',' then match skipBlanks rest with
        | [] => { ending := .missingAfterComma }
        | s :: rest =>
          if s.is '"' then member rest
          else if s.is '\x7d' then { ending := .trailingComma { rest := s :: rest, ahead := 1 } }
          else { ending := .badKey { rest := s :: rest, ahead := 1 } }
      else { ending := .unseparated { rest := s :: rest, ahead := 1 } }

end

/-- The levels a close reading enters. -/
def depthLimit : Nat := 127

/-- The outline of the value at the start of a text, and what follows it. -/
def read (text : Text) : Node × Option Text := value (2 * text.length + 2) depthLimit text

end Node

end DataAgent
