/-!
# Service — MediaType

Media types as content types give them: a type, a subtype, perhaps with a suffix after its last
plus sign, and parameters, of which only the form is checked.
-/

namespace DataAgent

/-- A media type, in lower case and without its parameters. -/
structure MediaType where
  type : String
  /-- The subtype without its suffix. -/
  subtype : String
  suffix : Option String
  deriving DecidableEq, Repr

namespace MediaType

/-- The character may stand in a token. -/
def isTokenChar (c : Char) : Bool :=
  c.isAlphanum || ['!', '#', '$', '%', '&', '\'', '*', '+', '-', '.', '^', '_', '|', '~'].contains c ||
    c.toNat = 0x60

/-- The character may stand between quotes. -/
def isQuotable (c : Char) : Bool := 32 ≤ c.toNat && c.toNat < 127

/-- How far the parameters are read. -/
inductive Stage
  | between
  | name
  | valueStart
  | value
  | quotedStart
  | quoted
  | quotedEnd
  deriving DecidableEq, Repr

namespace Stage

/-- The stage after a character, which may be out of place. The first character between quotes
is never the closing one. -/
def next : Stage → Char → Option Stage
  | .between,     c => if c = ' ' then some .between else if isTokenChar c then some .name else none
  | .name,        c => if c = '=' then some .valueStart else if isTokenChar c then some .name else none
  | .valueStart,  c =>
    if c = '"' then some .quotedStart else if isTokenChar c then some .value else none
  | .value,       c => if c = ';' then some .between else if isTokenChar c then some .value else none
  | .quotedStart, c => if isQuotable c then some .quoted else none
  | .quoted,      c => if c = '"' then some .quotedEnd else if isQuotable c then some .quoted else none
  | .quotedEnd,   c => if c = ';' then some .between else if c = ' ' then some .quotedEnd else none

/-- The parameters may end here. -/
def isFinal : Stage → Bool
  | .between | .valueStart | .value | .quotedEnd => true
  | .name | .quotedStart | .quoted               => false

end Stage

/-- The parameters, after the first semicolon, have their form. -/
def wellFormed (parameters : List Char) : Bool :=
  (parameters.foldlM Stage.next Stage.between).any Stage.isFinal

/-- A subtype, parted at its last plus sign, unless that is where it starts. -/
def splitSuffix (subtype : List Char) : List Char × Option (List Char) :=
  let reversed := subtype.reverse
  match reversed.dropWhile (· ≠ '+') with
  | '+' :: c :: front =>
    ((c :: front).reverse, some (reversed.takeWhile (· ≠ '+')).reverse)
  | _ => (subtype, none)

/-- A text in lower case. -/
def lower (text : List Char) : String := String.ofList (text.map Char.toLower)

/-- The media type of a text. -/
def ofString? (s : String) : Option MediaType :=
  match s.toList.takeWhile isTokenChar, s.toList.dropWhile isTokenChar with
  | [], _ => none
  | type, '/' :: rest =>
    let subtype := rest.takeWhile isTokenChar
    let (base, suffix) := splitSuffix subtype
    let found : MediaType := { type := lower type, subtype := lower base, suffix := suffix.map lower }
    match rest.dropWhile isTokenChar with
    | [] => some found
    | ';' :: parameters =>
      if !subtype.isEmpty && wellFormed parameters then some found else none
    | _ => none
  | _, _ => none

/-- Content of the type is JSON. -/
def isJson (m : MediaType) : Bool :=
  m.type = "application" && (m.subtype = "json" || m.suffix = some "json")

end MediaType

end DataAgent
