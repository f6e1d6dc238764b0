/-!
# Text — Symbol

Text that arrived as bytes. A symbol is a character, or a byte that is part of no character
(`Symbol.stray`); text made of a string has no stray bytes.
-/

namespace DataAgent

/-- A character of a text, or a byte that belongs to none. -/
inductive Symbol
  | char (c : Char)
  | stray
  deriving DecidableEq, Repr, Inhabited

/-- A text, symbol by symbol. -/
abbrev Text := List Symbol

namespace Symbol

/-- The number of bytes of a symbol. -/
def size : Symbol → Nat
  | .char c => c.utf8Size
  | .stray  => 1

/-- The symbol is the character `c`. -/
def is (c : Char) (s : Symbol) : Bool := s == .char c

end Symbol

namespace Text

/-- The number of bytes of a text. -/
def size (t : Text) : Nat := t.foldl (fun n s => n + s.size) 0

/-- The symbols of a string. -/
def ofString (s : String) : Text := s.toList.map .char

/-- The low six bits of a byte `10xxxxxx`. -/
def continuation (b : UInt8) : Option Nat :=
  if b &&& 0xC0 == 0x80 then some (b &&& 0x3F).toNat else none

/-- The character of a code point, if there is one and it needs `size` bytes. -/
def scalar (size n : Nat) : Option Char :=
  let c := Char.ofNat n
  if c.toNat = n ∧ c.utf8Size = size then some c else none

/-- The character that starts with a byte, and how many of the next bytes belong to it. -/
def character (b : UInt8) (next : List UInt8) : Option (Char × Nat) := do
  if b < 0x80 then
    pure (← scalar 1 b.toNat, 0)
  else if b &&& 0xE0 == 0xC0 then
    let n := (b &&& 0x1F).toNat * 64 + (← continuation (← next[0]?))
    pure (← scalar 2 n, 1)
  else if b &&& 0xF0 == 0xE0 then
    let n := (b &&& 0x0F).toNat * 64 + (← continuation (← next[0]?))
    let n := n * 64 + (← continuation (← next[1]?))
    pure (← scalar 3 n, 2)
  else if b &&& 0xF8 == 0xF0 then
    let n := (b &&& 0x07).toNat * 64 + (← continuation (← next[0]?))
    let n := n * 64 + (← continuation (← next[1]?))
    let n := n * 64 + (← continuation (← next[2]?))
    pure (← scalar 4 n, 3)
  else none

/-- The symbols of a sequence of bytes, the first `taken` of which belong to a character
already read. -/
def ofBytesAfter : Nat → List UInt8 → Text
  | _, [] => []
  | taken + 1, _ :: rest => ofBytesAfter taken rest
  | 0, b :: rest => match character b rest with
    | some (c, taken) => .char c :: ofBytesAfter taken rest
    | none => .stray :: ofBytesAfter 0 rest

/-- The symbols of a sequence of bytes, read as UTF-8. -/
def ofBytes (bytes : List UInt8) : Text := ofBytesAfter 0 bytes

/-- The string of a text, if no byte of it is stray. -/
def toString? (t : Text) : Option String :=
  (t.mapM fun | Symbol.char c => some c | Symbol.stray => none).map String.ofList

end Text

end DataAgent
