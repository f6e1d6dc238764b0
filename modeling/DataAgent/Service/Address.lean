import DataAgent.Number.Layout

/-!
# Service — Address

The addresses a server listens on: four bytes, or eight groups of sixteen bits. They are read
strictly, without leading zeros in bytes, and written in the canonical form, where the first
longest run of zero groups becomes `::`.
-/

namespace DataAgent

/-- An address. -/
inductive IpAddress
  | v4 (bytes : List Nat)
  | v6 (groups : List Nat)
  deriving DecidableEq, Repr

namespace IpAddress

/-- The value of a digit of a base up to sixteen. -/
def digit? (base : Nat) (c : Char) : Option Nat :=
  let n :=
    if c.isDigit then c.toNat - 48
    else if 'a' ≤ c && c ≤ 'f' then c.toNat - 87
    else if 'A' ≤ c && c ≤ 'F' then c.toNat - 55
    else base
  if n < base then some n else none

/-- A number of at most `most` digits and less than `limit`, and what follows. -/
def number (base most limit : Nat) (zeros : Bool) (text : List Char) :
    Option (Nat × List Char) :=
  let digits := text.takeWhile fun c => (digit? base c).isSome
  let n := (digits.filterMap (digit? base)).foldl (fun n d => base * n + d) 0
  if digits.isEmpty || most < digits.length || limit ≤ n then none
  else if !zeros && digits.head? = some '0' && 1 < digits.length then none
  else some (n, text.drop digits.length)

/-- What follows a character, if it stands first. -/
def after (c : Char) : List Char → Option (List Char)
  | d :: rest => if c = d then some rest else none
  | []        => none

/-- Four bytes, and what follows. -/
def bytes (text : List Char) : Option (List Nat × List Char) := do
  let (a, rest) ← number 10 3 256 false text
  let (b, rest) ← number 10 3 256 false (← after '.' rest)
  let (c, rest) ← number 10 3 256 false (← after '.' rest)
  let (d, rest) ← number 10 3 256 false (← after '.' rest)
  return ([a, b, c, d], rest)

/-- Two groups from four bytes. -/
def pairUp : List Nat → List Nat
  | [a, b, c, d] => [256 * a + b, 256 * c + d]
  | _            => []

/-- Up to `limit` groups with colons between, the last two perhaps written as four bytes; whether
they were; and what follows. -/
def groups : (limit : Nat) → (isFirst : Bool) → List Char → List Nat × Bool × List Char
  | 0, _, text => ([], false, text)
  | limit + 1, isFirst, text =>
    match (if isFirst then some text else after ':' text) with
    | none => ([], false, text)
    | some rest =>
      match (if limit = 0 then none else bytes rest) with
      | some (four, rest) => (pairUp four, true, rest)
      | none =>
        match number 16 4 65536 true rest with
        | none => ([], false, text)
        | some (n, rest) =>
          let (more, embedded, rest) := groups limit false rest
          (n :: more, embedded, rest)

/-- Eight groups, some of which `::` may stand for, and what follows. -/
def sixteenBytes (text : List Char) : Option (List Nat × List Char) := do
  let (head, embedded, rest) := groups 8 true text
  if head.length = 8 then return (head, rest)
  if embedded then none
  let rest ← after ':' (← after ':' rest)
  let (tail, _, rest) := groups (7 - head.length) true rest
  return (head ++ List.replicate (8 - head.length - tail.length) 0 ++ tail, rest)

/-- The address that a text is. -/
def ofString? (s : String) : Option IpAddress :=
  let found := (bytes s.toList).map (fun (b, rest) => (v4 b, rest)) <|>
    (sixteenBytes s.toList).map fun (g, rest) => (v6 g, rest)
  match found with
  | some (address, []) => some address
  | _                  => none

/-- A group in hexadecimal. -/
def group (n : Nat) : String := String.ofList (Nat.toDigits 16 n)

/-- The length of the run of zeros at the start. -/
def zerosAhead (gs : List Nat) : Nat := (gs.takeWhile (· = 0)).length

/-- The start and the length of the first longest run of zeros. -/
def longestRun (gs : List Nat) : Nat × Nat :=
  (List.range gs.length).foldl
    (fun best start =>
      let length := zerosAhead (gs.drop start)
      if best.2 < length then (start, length) else best)
    (0, 0)

/-- Bytes with points between. -/
def writeBytes (bs : List Nat) : String := ".".intercalate (bs.map toString)

/-- Groups with colons between. -/
def writeGroups (gs : List Nat) : String := ":".intercalate (gs.map group)

/-- The canonical form. -/
def toString : IpAddress → String
  | .v4 bs => writeBytes bs
  | .v6 gs =>
    match gs with
    | [0, 0, 0, 0, 0, 0xFFFF, a, b] => "::ffff:" ++ writeBytes [a / 256, a % 256, b / 256, b % 256]
    | gs =>
      let (start, length) := longestRun gs
      if length ≤ 1 then writeGroups gs
      else writeGroups (gs.take start) ++ "::" ++ writeGroups (gs.drop (start + length))

end IpAddress

end DataAgent
