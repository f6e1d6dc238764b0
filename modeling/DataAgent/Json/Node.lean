import DataAgent.Json.Fault
import DataAgent.Json.Value

/-!
# Json — Node

The outline of a text that is meant to be JSON: all of its structure up to the first point where
nothing more can be read. What a reader makes of it depends on how closely it looks. Reading a
value stops at any fault (`Node.json`); skipping a value that nobody asked for lets numbers out
of range, unpaired surrogates and deep nesting pass (`Node.skip`). Duplicate keys are kept.
-/

namespace DataAgent

/-- How the items of an array or the members of an object end. -/
inductive Ending
  /-- With the closing bracket. -/
  | closed
  /-- The text ends where a comma or the closing bracket was due. -/
  | missing
  /-- Something else stands there. -/
  | unseparated (place : Place)
  /-- The closing bracket follows a comma. -/
  | trailingComma (place : Place)
  /-- The text ends after a comma. -/
  | missingAfterComma
  /-- A key is due and something else stands there. -/
  | badKey (place : Place)
  /-- A key is a string that cannot be read to its end. -/
  | brokenKey (strict skipped : Fault)
  /-- The last value cannot be read to its end. -/
  | broken
  deriving Repr

namespace Ending

/-- What stops the reading of an array at its end. -/
def listFault : Ending → Option Fault
  | .closed | .broken => none
  | .missing => some ⟨.endInList, .atEnd⟩
  | .unseparated p => some ⟨.expectedListSeparator, p⟩
  | .trailingComma p => some ⟨.trailingComma, p⟩
  | .missingAfterComma => some ⟨.endInValue, .atEnd⟩
  | .badKey p => some ⟨.keyNotString, p⟩
  | .brokenKey f _ => some f

/-- What stops the reading of an object at its end. -/
def objectFault : Ending → Option Fault
  | .missing => some ⟨.endInObject, .atEnd⟩
  | .unseparated p => some ⟨.expectedObjectSeparator, p⟩
  | ending => ending.listFault

/-- What stops the skipping of an array at its end. -/
def listSkipFault : Ending → Option Fault
  | .trailingComma p => some ⟨.expectedValue, p⟩
  | ending => ending.listFault

/-- What stops the skipping of an object at its end. -/
def objectSkipFault : Ending → Option Fault
  | .trailingComma p => some ⟨.keyNotString, p⟩
  | .missingAfterComma => some ⟨.endInObject, .atEnd⟩
  | .brokenKey _ f => some f
  | ending => ending.objectFault

/-- What stops a reader that wants no further item of an array. -/
def surplusFault : Ending → Option Fault
  | .unseparated p => some ⟨.trailingCharacters, p⟩
  | .missingAfterComma => some ⟨.trailingCharacters, .atEnd⟩
  | ending => ending.listFault

end Ending

/-- The key of a member, and what is wrong with it. -/
structure Key where
  text : String
  flaw : Option Fault := none
  deriving Repr

/-- The outline of a text. -/
inductive Node
  | null
  | bool (value : Bool)
  | num (value : Number)
  | str (value : String)
  /-- The items, and the place at which each of them starts. -/
  | arr (items : List Node) (starts : List Place) (ending : Ending)
  | obj (members : List (Key × Node)) (ending : Ending)
  /-- A value that can be skipped but not read. -/
  | flawed (fault : Fault) (inner : Node)
  /-- A value that ends in the middle: what stops its reading, and what stops its skipping. -/
  | broken (strict skipped : Fault)
  deriving Repr, Inhabited

/-- A fault, if there is one, is an error. -/
def Fault.check : Option Fault → Except Fault Unit
  | none   => .ok ()
  | some f => .error f

namespace Node

mutual

/-- The document, or the first fault of the text. Of members with one key the last value
counts. -/
def json : Node → Except Fault Json
  | .null => .ok .null
  | .bool b => .ok (.bool b)
  | .num n => .ok (.num n)
  | .str s => .ok (.str s)
  | .arr items _ ending => do
    let items ← jsonItems items
    Fault.check ending.listFault
    return .arr items
  | .obj members ending => do
    let members ← jsonMembers members
    Fault.check ending.objectFault
    return .obj (Members.ofList members)
  | .flawed f _ => .error f
  | .broken f _ => .error f

/-- The documents of the items. -/
def jsonItems : List Node → Except Fault (List Json)
  | [] => .ok []
  | item :: rest => do return (← item.json) :: (← jsonItems rest)

/-- The documents of the members. -/
def jsonMembers : List (Key × Node) → Except Fault (List (String × Json))
  | [] => .ok []
  | (key, value) :: rest => do
    Fault.check key.flaw
    return (key.text, ← value.json) :: (← jsonMembers rest)

end

mutual

/-- What stops the skipping of a value. -/
def skip : Node → Except Fault Unit
  | .null | .bool _ | .num _ | .str _ => .ok ()
  | .arr items _ ending => do
    skipItems items
    Fault.check ending.listSkipFault
  | .obj members ending => do
    skipMembers members
    Fault.check ending.objectSkipFault
  | .flawed _ inner => inner.skip
  | .broken _ f => .error f

/-- What stops the skipping of items. -/
def skipItems : List Node → Except Fault Unit
  | [] => .ok ()
  | item :: rest => do
    item.skip
    skipItems rest

/-- What stops the skipping of members. -/
def skipMembers : List (Key × Node) → Except Fault Unit
  | [] => .ok ()
  | (_, value) :: rest => do
    value.skip
    skipMembers rest

end

end Node

end DataAgent
