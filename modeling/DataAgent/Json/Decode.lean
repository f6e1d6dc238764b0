import DataAgent.Json.Mismatch
import DataAgent.Json.Read

/-!
# Json — Decode

Decoders of outlines into types. A decoder reads an outline in the order of its text and stops
at the first thing that is wrong, be it a fault of the text or a mismatch. The content of a tagged
or untagged choice is read completely before it is decoded (`Mode.buffered`), and a few forms are
judged differently there.
-/

namespace DataAgent

/-- Whether a value is decoded as its text is read, or out of content read before. -/
inductive Mode
  | direct
  | buffered
  deriving DecidableEq, Repr

/-- A way to get a value out of an outline. -/
abbrev Decoder (α : Type) := Mode → Node → Except DecodeError α

/-- A fault, if there is one, is an error. -/
def DecodeError.check : Option Fault → Except DecodeError Unit
  | none   => .ok ()
  | some f => .error (.ofFault f)

/-- A step on the text alone. -/
def DecodeError.lift {α : Type} : Except Fault α → Except DecodeError α
  | .ok a    => .ok a
  | .error f => .error (.ofFault f)

/-- The key of a member, if it can be read. -/
def Key.read (key : Key) : Except DecodeError String :=
  match key.flaw with
  | none => .ok key.text
  | some f => .error (.ofFault f)

namespace Decode

variable {α : Type}

/-- A string. -/
def string : Decoder String
  | _, .str s => .ok s
  | _, node   => .error (node.unexpected .string)

/-- A boolean. -/
def boolean : Decoder Bool
  | _, .bool b => .ok b
  | _, node    => .error (node.unexpected .boolean)

/-- A natural of so many bits. -/
def unsigned (bits : Nat) : Decoder Nat
  | _, .num (.int n) =>
    if 0 ≤ n ∧ n < Int.pow 2 bits then .ok n.toNat
    else .error (.mismatch (.invalidValue (.num (.int n)) (.unsigned bits)))
  | _, node => .error (node.unexpected (.unsigned bits))

/-- A document of any form. -/
def any : Decoder Json := fun _ node => DecodeError.lift node.json

/-- Null, or a value. -/
def nullable (d : Decoder α) : Decoder (Option α)
  | _, .null => .ok none
  | m, node  => some <$> d m node

/-- The items of an array. -/
def list (d : Decoder α) : Decoder (List α)
  | m, .arr items _ ending => do
    let values ← items.mapM (d m)
    DecodeError.check ending.listFault
    return values
  | _, node => .error (node.unexpected .sequence)

/-- The members of an object in the order of the text, repeated keys included. -/
def entries (d : Decoder α) : Decoder (List (String × α))
  | m, .obj members ending => do
    let values ← members.mapM fun (key, node) => do return (← key.read, ← d m node)
    DecodeError.check ending.objectFault
    return values
  | _, node => .error (node.unexpected .map)

/-- The members of an object: a repeated key keeps its place and takes the last value. -/
def members (d : Decoder α) : Decoder (Members α) :=
  fun m node => Members.ofList <$> entries d m node

/-! ### Choices without content -/

/-- The choice of a name. -/
def variant (choices : List (String × α)) (name : String) : Except DecodeError α :=
  match choices.find? fun (known, _) => known = name with
  | some (_, a) => .ok a
  | none => .error (.mismatch (.unknownVariant name (choices.map Prod.fst)))

/-- Something other than a value stands there. -/
def notAValue : DecodeError := .malformed .expectedValue none

/-- What stops a reader that only looks whether a quote or a brace opens here. -/
def notAChoice : Node → DecodeError
  | .flawed f (.str _) => .ofFault f
  | .broken f _ =>
    match f.cause with
    | .expectedIdent | .invalidNumber => notAValue
    | _ => .ofFault f
  | _ => notAValue

/-- A choice by name, written directly as a string, or as an object of the name and `null`. -/
def choiceDirect (choices : List (String × α)) : Node → Except DecodeError α
  | .str s => variant choices s
  | .obj [] ending =>
    match ending with
    | .badKey place => .error ((Node.read place.rest).1.unexpected .variantTag)
    | .brokenKey f _ => .error (.ofFault f)
    | .missing => .error (.malformed .endInValue none)
    | _ => .error notAValue
  | .obj ((key, value) :: more) ending => do
    let a ← variant choices (← key.read)
    match value with
    | .null =>
      match more, ending with
      | [], .closed => return a
      | [], .missing => .error (.malformed .endInObject none)
      | _, _ => .error notAValue
    | value => .error (value.unexpected .unit)
  | node => .error (notAChoice node)

/-- A choice by name out of content: an object has one member, and its value may be empty. -/
def choiceBuffered (choices : List (String × α)) : Node → Except DecodeError α
  | .str s => variant choices s
  | .obj [(key, value)] _ => do
    let a ← variant choices key.text
    match value with
    | .null | .obj [] _ => return a
    | value => .error (value.unexpected .unit)
  | .obj _ _ => .error (.mismatch (.invalidValue .map .singleKey))
  | node => .error (node.unexpected .stringOrMap)

/-- A choice by name. -/
def choice (choices : List (String × α)) : Decoder α
  | .direct, node   => choiceDirect choices node
  | .buffered, node => choiceBuffered choices node

/-- A choice without names on it: its content is read completely, and whatever does not fit is
the same error. -/
def untagged (name : String) (fits : Node → Option α) : Decoder α := fun _ node => do
  let _ ← DecodeError.lift node.json
  match fits node with
  | some a => return a
  | none => .error (.mismatch (.noVariant name))

end Decode

/-- The value at the start of a text; what follows it is ignored. -/
def decodeLeading {α : Type} (d : Decoder α) (text : Text) : Except DecodeError α :=
  d .direct (Node.read text).1

/-- The value that a text holds, and nothing else but blanks. -/
def decodeText {α : Type} (d : Decoder α) (text : Text) : Except DecodeError α := do
  let (node, rest) := Node.read text
  let a ← d .direct node
  match Node.skipBlanks (rest.getD []) with
  | [] => return a
  | rest => .error (.ofFault (Node.faultAt .trailingCharacters rest))

/-- The value that a string holds. -/
def decodeString {α : Type} (d : Decoder α) (s : String) : Except DecodeError α :=
  decodeText d (.ofString s)

end DataAgent
