import DataAgent.Json.Decode

/-!
# Json — Record

Records and tagged choices. A record is described by its layout, the list of the members it
expects (`Layout`), and decoded from an object, in any order of the members, or from an array of
its values in order. A tagged choice is an object with a member `type`, or an array whose first
item is the tag; the rest is a record.
-/

namespace DataAgent

/-- One member of a record. -/
structure Slot (α : Type) where
  name : String
  /-- Another key that is accepted. -/
  aliases : List String := []
  decode : Decoder α
  /-- The value of a member that is not there. -/
  absent : Option α := none
  /-- The value of an item that is not there, in an array. -/
  unwritten : Option α := none

namespace Slot

variable {α : Type}

/-- A member that has to be there. -/
def required (name : String) (d : Decoder α) : Slot α := { name, decode := d }

/-- A member with a default. -/
def withDefault (name : String) (d : Decoder α) (a : α) : Slot α :=
  { name, decode := d, absent := some a, unwritten := some a }

/-- A member that may be null or missing. -/
def optional (name : String) (d : Decoder α) : Slot (Option α) :=
  withDefault name (Decode.nullable d) none

end Slot

/-- The members a record expects, in order. -/
inductive Layout : List Type → Type 1
  | nil : Layout []
  | cons {α : Type} {αs : List Type} (slot : Slot α) (rest : Layout αs) : Layout (α :: αs)

/-- One value for each member. -/
abbrev Values : List Type → Type
  | [] => Unit
  | α :: αs => α × Values αs

/-- The members met so far. -/
abbrev Draft : List Type → Type
  | [] => Unit
  | α :: αs => Option α × Draft αs

namespace Layout

/-- No member met. -/
def blank : {αs : List Type} → Layout αs → Draft αs
  | _, .nil => ()
  | _, .cons _ rest => (none, rest.blank)

/-- The number of members. -/
def size : {αs : List Type} → Layout αs → Nat
  | _, .nil => 0
  | _, .cons _ rest => rest.size + 1

/-- One more member. A key that no member has is skipped. -/
def put (m : Mode) (key : String) (node : Node) :
    {αs : List Type} → Layout αs → Draft αs → Except DecodeError (Draft αs)
  | _, .nil, () =>
    match m with
    | .direct => DecodeError.lift node.skip
    | .buffered => .ok ()
  | _, .cons slot rest, (value, draft) =>
    if key = slot.name ∨ key ∈ slot.aliases then
      match value with
      | some _ => .error (.mismatch (.duplicateField slot.name))
      | none => do return (some (← slot.decode m node), draft)
    else do return (value, ← rest.put m key node draft)

/-- The members of an object, in the order of the text. -/
def putAll {αs : List Type} (layout : Layout αs) (m : Mode) :
    List (Key × Node) → Draft αs → Except DecodeError (Draft αs)
  | [], draft => .ok draft
  | (key, node) :: rest, draft => do
    let draft ← layout.put m (← key.read) node draft
    layout.putAll m rest draft

/-- The values, when all members have been met. -/
def finish : {αs : List Type} → Layout αs → Draft αs → Except DecodeError (Values αs)
  | _, .nil, () => .ok ()
  | _, .cons slot rest, (value, draft) =>
    match value <|> slot.absent with
    | some a => do return (a, ← rest.finish draft)
    | none => .error (.mismatch (.missingField slot.name))

/-- A record written as an object. -/
def ofMembers {αs : List Type} (layout : Layout αs) (m : Mode) (members : List (Key × Node))
    (ending : Ending) : Except DecodeError (Values αs) := do
  let draft ← layout.putAll m members layout.blank
  DecodeError.check ending.objectFault
  layout.finish draft

/-- No item is left over, `count` having been taken. -/
def noSurplus (m : Mode) (count : Nat) (items : List Node) (starts : List Place)
    (ending : Ending) : Except DecodeError Unit :=
  match m, items with
  | _, [] => DecodeError.check ending.surplusFault
  | .direct, _ :: _ => .error (.malformed .trailingCharacters starts.head?)
  | .buffered, items =>
    .error (.mismatch (.invalidLength (count + items.length) (.items count)))

/-- A record written as an array, of which `count` items have been taken. -/
def ofItems (description : String) (total : Nat) (m : Mode) :
    {αs : List Type} → Layout αs → Nat → List Node → List Place → Ending →
      Except DecodeError (Values αs)
  | _, .nil, count, items, starts, ending => noSurplus m count items starts ending
  | _, .cons slot rest, count, item :: items, starts, ending => do
    let a ← slot.decode m item
    return (a, ← rest.ofItems description total m (count + 1) items starts.tail ending)
  | _, .cons slot rest, count, [], starts, ending => do
    DecodeError.check ending.listFault
    match slot.unwritten with
    | some a => return (a, ← rest.ofItems description total m (count + 1) [] starts ending)
    | none => .error (.mismatch (.invalidLength count (.fields description total)))

end Layout

/-- A record of the given name. -/
def Decode.record {α : Type} {αs : List Type} (name : String) (layout : Layout αs)
    (make : Values αs → α) : Decoder α
  | m, .obj members ending => make <$> layout.ofMembers m members ending
  | m, .arr items starts ending =>
    make <$> layout.ofItems ("struct " ++ name) layout.size m 0 items starts ending
  | _, node => .error (node.unexpected (.record name))

/-! ### Tagged choices -/

/-- One alternative of a tagged choice: its tag, and how its content is decoded once it has been
read, from the members beside the tag or from the items after it. -/
structure Alternative (α : Type) where
  tag : String
  ofMembers : List (Key × Node) → Except DecodeError α
  ofItems : List Node → Except DecodeError α

namespace Alternative

variable {α : Type}

/-- An alternative that holds nothing. Members beside the tag are ignored. -/
def unit (tag : String) (value : α) : Alternative α where
  tag
  ofMembers _ := .ok value
  ofItems items := do
    Layout.noSurplus .buffered 0 items [] .closed
    return value

/-- An alternative that holds a record, with its name in messages. -/
def record {αs : List Type} (tag name : String) (layout : Layout αs) (make : Values αs → α) :
    Alternative α where
  tag
  ofMembers members := make <$> layout.ofMembers .buffered members .closed
  ofItems items :=
    make <$> layout.ofItems ("struct variant " ++ name) layout.size .buffered 0 items [] .closed

/-- The alternative of a tag. Out of content, a natural is the position of an alternative. -/
def select (alternatives : List (Alternative α)) :
    Mode → Node → Except DecodeError (Alternative α)
  | _, .str s =>
    match alternatives.find? fun a => a.tag = s with
    | some a => .ok a
    | none => .error (.mismatch (.unknownVariant s (alternatives.map (·.tag))))
  | .buffered, .num (.int (.ofNat n)) =>
    match alternatives[n]? with
    | some a => .ok a
    | none => .error
      (.mismatch (.invalidValue (.num (.int n)) (.variantIndex alternatives.length)))
  | _, node => .error (node.unexpected .variantTag)

/-- Content has no fault once it has been read. -/
def readContent : Mode → Node → Except DecodeError Unit
  | .direct, node => (fun _ => ()) <$> DecodeError.lift node.json
  | .buffered, _  => .ok ()

/-- The tag and the other members of an object. -/
def untag (alternatives : List (Alternative α)) (m : Mode) :
    List (Key × Node) → Option (Alternative α) →
      Except DecodeError (Option (Alternative α) × List (Key × Node))
  | [], tag => .ok (tag, [])
  | (key, node) :: rest, tag => do
    if (← key.read) = "type" then
      if tag.isSome then .error (.mismatch (.duplicateField "type"))
      else untag alternatives m rest (some (← select alternatives m node))
    else
      readContent m node
      let (tag, others) ← untag alternatives m rest tag
      return (tag, (key, node) :: others)

end Alternative

/-- A tagged choice of the given name. -/
def Decode.tagged {α : Type} (name : String) (alternatives : List (Alternative α)) : Decoder α
  | m, .obj members ending => do
    let (tag, others) ← Alternative.untag alternatives m members none
    DecodeError.check ending.objectFault
    match tag with
    | some a => a.ofMembers others
    | none => .error (.mismatch (.missingField "type"))
  | m, .arr items _ ending => do
    match items with
    | [] =>
      DecodeError.check ending.listFault
      .error (.mismatch (.missingField "type"))
    | first :: rest =>
      let a ← Alternative.select alternatives m first
      rest.forM (Alternative.readContent m)
      DecodeError.check ending.listFault
      a.ofItems rest
  | _, node => .error (node.unexpected (.tagged name))

end DataAgent
