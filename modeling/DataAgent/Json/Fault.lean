import DataAgent.Text.Symbol

/-!
# Json — Fault

Why a text is not a JSON document, and where. A place is what remains of the text from there on,
so a reader that carries the rest of its text needs no counter; lines and columns are counted
when a fault is reported (`Place.lineColumn`).
-/

namespace DataAgent

/-- A place in a text: `ahead` bytes past the start of what remains. -/
structure Place where
  rest : Text
  ahead : Nat := 0
  deriving DecidableEq, Repr, Inhabited

namespace Place

/-- The end of the text. -/
def atEnd : Place := { rest := [] }

/-- The bytes of the text before the place. -/
def offset (text : Text) (place : Place) : Nat :=
  text.size - place.rest.size + min place.ahead place.rest.size

/-- The line and the column after `bytes` bytes of a text. -/
def count : Nat → Text → Nat × Nat → Nat × Nat
  | _, [], at_ => at_
  | bytes, s :: rest, (line, column) =>
    if bytes < s.size then (line, column + bytes)
    else count (bytes - s.size) rest (if s.is '\n' then (line + 1, 0) else (line, column + s.size))

/-- The line, from one, and the bytes on that line before the place. -/
def lineColumn (text : Text) (place : Place) : Nat × Nat :=
  count (place.offset text) text (1, 0)

end Place

/-- Why a text cannot be read on. -/
inductive FaultCause
  | endInValue
  | endInString
  | endInList
  | endInObject
  | expectedValue
  | expectedIdent
  | expectedColon
  | expectedListSeparator
  | expectedObjectSeparator
  | keyNotString
  | trailingComma
  | trailingCharacters
  | invalidNumber
  | numberOutOfRange
  | invalidEscape
  | loneSurrogate
  | unfinishedSurrogate
  | controlCharacter
  | invalidUnicode
  | tooDeep
  deriving DecidableEq, Repr, Inhabited

/-- The wording of a cause. -/
def FaultCause.message : FaultCause → String
  | .endInValue => "EOF while parsing a value"
  | .endInString => "EOF while parsing a string"
  | .endInList => "EOF while parsing a list"
  | .endInObject => "EOF while parsing an object"
  | .expectedValue => "expected value"
  | .expectedIdent => "expected ident"
  | .expectedColon => "expected `:`"
  | .expectedListSeparator => "expected `,` or `]`"
  | .expectedObjectSeparator => "expected `,` or `\x7d`"
  | .keyNotString => "key must be a string"
  | .trailingComma => "trailing comma"
  | .trailingCharacters => "trailing characters"
  | .invalidNumber => "invalid number"
  | .numberOutOfRange => "number out of range"
  | .invalidEscape => "invalid escape"
  | .loneSurrogate => "lone leading surrogate in hex escape"
  | .unfinishedSurrogate => "unexpected end of hex escape"
  | .controlCharacter => "control character (\\u0000-\\u001F) found while parsing a string"
  | .invalidUnicode => "invalid unicode code point"
  | .tooDeep => "recursion limit exceeded"

/-- A cause and its place. -/
structure Fault where
  cause : FaultCause
  place : Place
  deriving DecidableEq, Repr, Inhabited

end DataAgent
