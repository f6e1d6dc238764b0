import DataAgent.Json.Read
import Mathlib

/-!
# Proofs — Json — Reading

The reader gets the printed text of a document back (`Node.read_print`). An outline is not a function of
the document, because it notes where the items of an array start; what the text of a document gives is
an outline that shows it (`Node.Shows`).

The document has to be regular (`Json.Regular`): an object with a key twice would lose a member, and an
integer of more than sixty-four bits would become a double. It must nest no deeper than a close reading
goes (`Json.depth`).

The induction is over the document, for any text after it (`Node.value_chars`). The reader spends a unit
of fuel at each value and at each separator, so twice the length of the text suffices. What follows a
value is the end of the text, a comma, a closing bracket or a blank (`Node.Delimited`), and therefore no
part of a number.
-/

namespace DataAgent

/-! ### Documents -/

namespace Json

mutual

/-- How many containers nest in a document. -/
def depth : Json → Nat
  | .arr items   => itemsDepth items + 1
  | .obj members => membersDepth members + 1
  | _            => 0

/-- How many containers nest in any of some items. -/
def itemsDepth : List Json → Nat
  | []           => 0
  | item :: rest => max item.depth (itemsDepth rest)

/-- How many containers nest in any of some members. -/
def membersDepth : List (String × Json) → Nat
  | []                 => 0
  | (_, value) :: rest => max value.depth (membersDepth rest)

end

mutual

/-- No object of the document has a key twice, and its numbers are integers of sixty-four bits, with a
sign or without. -/
def Regular : Json → Prop
  | .num (.int n)    => -Int.pow 2 63 ≤ n ∧ n < Int.pow 2 64
  | .num (.double _) => False
  | .arr items       => RegularItems items
  | .obj members     => (members.map Prod.fst).Nodup ∧ RegularMembers members
  | _                => True

/-- All items are regular. -/
def RegularItems : List Json → Prop
  | []           => True
  | item :: rest => item.Regular ∧ RegularItems rest

/-- All values of members are regular. -/
def RegularMembers : List (String × Json) → Prop
  | []                 => True
  | (_, value) :: rest => value.Regular ∧ RegularMembers rest

end

theorem itemsDepth_le_iff {items : List Json} {n : Nat} :
    itemsDepth items ≤ n ↔ ∀ item ∈ items, item.depth ≤ n := by
  induction items with
  | nil => simp [itemsDepth]
  | cons item rest ih => simp [itemsDepth, ih]

theorem membersDepth_le_iff {members : List (String × Json)} {n : Nat} :
    membersDepth members ≤ n ↔ ∀ member ∈ members, member.2.depth ≤ n := by
  induction members with
  | nil => simp [membersDepth]
  | cons member rest ih => simp [membersDepth, ih]

theorem regularItems_iff {items : List Json} :
    RegularItems items ↔ ∀ item ∈ items, item.Regular := by
  induction items with
  | nil => simp [RegularItems]
  | cons item rest ih => simp [RegularItems, ih]

theorem regularMembers_iff {members : List (String × Json)} :
    RegularMembers members ↔ ∀ member ∈ members, member.2.Regular := by
  induction members with
  | nil => simp [RegularMembers]
  | cons member rest ih => simp [RegularMembers, ih]

end Json

namespace Node

mutual

/-- The outline is one of a text that holds the document, with nothing wrong about it. -/
inductive Shows : Node → Json → Prop
  | null : Shows .null .null
  | bool (b : Bool) : Shows (.bool b) (.bool b)
  | num (n : Number) : Shows (.num n) (.num n)
  | str (s : String) : Shows (.str s) (.str s)
  | arr {nodes : List Node} {items : List Json} (starts : List Place) (h : ShowsItems nodes items) :
      Shows (.arr nodes starts .closed) (.arr items)
  | obj {nodes : List (Key × Node)} {members : List (String × Json)} (h : ShowsMembers nodes members) :
      Shows (.obj nodes .closed) (.obj members)

/-- Outlines of items. -/
inductive ShowsItems : List Node → List Json → Prop
  | nil : ShowsItems [] []
  | cons {node : Node} {item : Json} {nodes : List Node} {items : List Json} (h : Shows node item)
      (t : ShowsItems nodes items) : ShowsItems (node :: nodes) (item :: items)

/-- Outlines of members, the keys of which are read to their ends. -/
inductive ShowsMembers : List (Key × Node) → List (String × Json) → Prop
  | nil : ShowsMembers [] []
  | cons {key : String} {node : Node} {value : Json} {nodes : List (Key × Node)}
      {members : List (String × Json)} (h : Shows node value) (t : ShowsMembers nodes members) :
      ShowsMembers (({ text := key }, node) :: nodes) ((key, value) :: members)

end

/-! ### Strings -/

theorem hex4?_control {n : Nat} (h : n < 32) :
    hex4? (.char '0') (.char '0') (.char (Nat.digitChar (n / 16))) (.char (Nat.digitChar (n % 16))) =
      some n := by
  have hall : ∀ n : Fin 32, hex4? (.char '0') (.char '0') (.char (Nat.digitChar (n.val / 16)))
      (.char (Nat.digitChar (n.val % 16))) = some n.val := by decide
  exact hall ⟨n, h⟩

/-- An escape of one letter is read as the character it stands for. -/
theorem scan_shortEscape (read : List Char) {e c : Char} (h : shortEscape? (.char e) = some c)
    (hu : e ≠ 'u') (text : Text) :
    scan { read } (.char '\\' :: .char e :: text) = scan { read := c :: read } text := by
  rw [scan]
  · simp [h, Scanning.unpaired, Scanning.push]
  · simp [hu]
  · simp [hu]

/-- A character that is written is read. -/
theorem scan_escape (read : List Char) (c : Char) (text : Text) :
    scan { read } ((Json.escape c).map .char ++ text) = scan { read := c :: read } text := by
  unfold Json.escape
  split_ifs with hquote hback hb hf hn hr ht hcontrol
  · subst hquote
    exact scan_shortEscape read rfl (by decide) text
  · subst hback
    exact scan_shortEscape read rfl (by decide) text
  · subst hb
    exact scan_shortEscape read rfl (by decide) text
  · subst hf
    exact scan_shortEscape read rfl (by decide) text
  · subst hn
    exact scan_shortEscape read rfl (by decide) text
  · subst hr
    exact scan_shortEscape read rfl (by decide) text
  · subst ht
    exact scan_shortEscape read rfl (by decide) text
  · -- A control is no surrogate, so its code unit stands for itself.
    have htrail : isTrail c.toNat = false := by simp [isTrail]; omega
    have hlead : isLead c.toNat = false := by simp [isLead]; omega
    have hunit : Scanning.unit { read } c.toNat text = { read := c :: read } := by
      simp [Scanning.unit, htrail, hlead, Scanning.push]
    simp [scan, hex4?_control hcontrol, hunit]
  · simp [scan, Scanning.unpaired, Scanning.push, hback, hcontrol]

theorem scan_escapes (cs read : List Char) (rest : Text) :
    scan { read } ((cs.flatMap Json.escape ++ ['"']).map .char ++ rest) =
      .closed { text := String.ofList (read.reverse ++ cs) } rest := by
  induction cs generalizing read with
  | nil => simp [scan, Scanning.unpaired, Scanning.close]
  | cons c cs ih =>
    have hc := scan_escape read c ((cs.flatMap Json.escape ++ ['"']).map .char ++ rest)
    simp only [List.flatMap_cons, List.append_assoc, List.map_append] at hc ih ⊢
    rw [hc, ih]
    simp

/-- The text of a string after its opening quote. -/
def closing (s : String) : Text := (s.toList.flatMap Json.escape ++ ['"']).map .char

theorem quote_eq (s : String) : (Json.quote s).map .char = .char '"' :: closing s := rfl

theorem scan_closing (s : String) (rest : Text) :
    scan {} (closing s ++ rest) = .closed { text := s } rest := by
  simpa [closing] using scan_escapes s.toList [] rest

/-! ### Numbers -/

/-- The characters that may stand between the parts of a text. -/
def blanks : List Char := [' ', '\n', '\t', '\r']

/-- What may follow a value: nothing, a comma, a closing bracket or a blank. -/
def Delimited : Text → Prop
  | []     => True
  | s :: _ => s ∈ (',' :: ']' :: '\x7d' :: blanks).map Symbol.char

theorem Delimited.cases {s : Symbol} {rest : Text} (h : Delimited (s :: rest)) :
    s = .char ',' ∨ s = .char ']' ∨ s = .char '\x7d' ∨ s = .char ' ' ∨ s = .char '\n' ∨
      s = .char '\t' ∨ s = .char '\r' := by
  simpa [Delimited, blanks] using h

theorem digits_delimited {rest : Text} (h : Delimited rest) : digits rest = ([], rest) := by
  cases rest with
  | nil => rfl
  | cons s rest => rcases h.cases with rfl | rfl | rfl | rfl | rfl | rfl | rfl <;> rfl

theorem digits_append {cs : List Char} (hcs : ∀ c ∈ cs, c.isDigit = true) {rest : Text}
    (hrest : digits rest = ([], rest)) :
    digits (cs.map .char ++ rest) = (cs.map fun c => c.toNat - '0'.toNat, rest) := by
  induction cs with
  | nil => exact hrest
  | cons c cs ih =>
    have hc : digit? (.char c) = some (c.toNat - '0'.toNat) := if_pos (hcs c (List.mem_cons_self ..))
    have htail := ih fun d hd => hcs d (List.mem_cons_of_mem c hd)
    simp only [List.map_cons, List.cons_append, digits, hc, htail]

theorem isDigit_digitsOf {n : Nat} {c : Char} (h : c ∈ Decimal.digitsOf n) : c.isDigit = true :=
  Nat.isDigit_of_mem_toDigits (by decide) (by decide) h

/-- Only zero starts with the digit zero. -/
theorem digitsOf_head {n : Nat} (h : 0 < n) :
    ∃ c cs, Decimal.digitsOf n = c :: cs ∧ 48 < c.toNat := by
  unfold Decimal.digitsOf
  induction n using Nat.strongRecOn with
  | ind n ih =>
    by_cases hn : n < 10
    · refine ⟨n.digitChar, [], Nat.toDigits_of_lt_base hn, ?_⟩
      rw [Nat.toNat_digitChar_of_lt_ten hn]
      omega
    · obtain ⟨c, cs, hcs, hc⟩ := ih (n / 10) (by omega) (by omega)
      exact ⟨c, cs ++ [(n % 10).digitChar], by
        rw [Nat.toDigits_of_base_le (by decide) (by omega), hcs, List.cons_append], hc⟩

theorem natural_digitsOf (n : Nat) :
    natural ((Decimal.digitsOf n).map fun c => c.toNat - '0'.toNat) = n := by
  rw [natural, List.foldl_map]
  exact Nat.ofDigitChars_toDigits (by decide) (by decide)

theorem afterWhole_delimited {rest : Text} (h : Delimited rest) (negative : Bool) (ds : List Nat) :
    afterWhole negative ds rest = whole negative (natural ds) rest := by
  cases rest with
  | nil => rfl
  | cons s rest => rcases h.cases with rfl | rfl | rfl | rfl | rfl | rfl | rfl <;> rfl

theorem unsigned_of_digits {negative : Bool} {text rest : Text} {ds : List Nat}
    (h : digits text = (ds, rest)) (hnil : ds ≠ []) (hzero : ∀ d more, ds ≠ 0 :: d :: more) :
    unsigned negative text = afterWhole negative ds rest := by
  unfold unsigned
  rw [h]
  split
  · exact absurd (congrArg Prod.fst ‹_›) hnil
  · exact absurd (congrArg Prod.fst ‹_›) hnil
  · exact absurd (congrArg Prod.fst ‹_›) (hzero _ _)
  · cases ‹(ds, rest) = _›
    rfl

theorem unsigned_digitsOf (negative : Bool) (n : Nat) {rest : Text} (h : Delimited rest) :
    unsigned negative ((Decimal.digitsOf n).map .char ++ rest) = whole negative n rest := by
  have hdigits := digits_append (fun c => isDigit_digitsOf (n := n)) (digits_delimited h)
  rw [unsigned_of_digits hdigits, afterWhole_delimited h, natural_digitsOf]
  · simp [Decimal.digitsOf]
  · intro d more hmore
    rcases Nat.eq_zero_or_pos n with rfl | hn
    · simp [Decimal.digitsOf, Nat.toDigits_of_lt_base] at hmore
    · obtain ⟨c, cs, hcs, hc⟩ := digitsOf_head hn
      simp only [hcs, List.map_cons, List.cons.injEq] at hmore
      have hzero : c.toNat - 48 = 0 := hmore.1
      omega

/-! ### Values -/

@[simp] theorem is_char (c d : Char) : (Symbol.char c).is d = decide (c = d) := by
  by_cases h : c = d <;> simp [Symbol.is, h]

theorem skipBlanks_char {c : Char} (h : c ∉ blanks) (rest : Text) :
    skipBlanks (.char c :: rest) = .char c :: rest := by
  simp only [blanks, List.mem_cons, List.not_mem_nil, or_false, not_or] at h
  simp [skipBlanks, h]

/-- A character that values start with: no blank and no closing bracket. -/
structure Opening (c : Char) : Prop where
  blank : c ∉ blanks
  closing : c ≠ ']'

theorem opening_of_isDigit {c : Char} (h : c.isDigit = true) : Opening c := by
  constructor
  · intro hblank
    simp only [blanks, List.mem_cons, List.not_mem_nil, or_false] at hblank
    rcases hblank with rfl | rfl | rfl | rfl <;> exact absurd h (by decide)
  · rintro rfl
    exact absurd h (by decide)

theorem value_digit (fuel level : Nat) {c : Char} (h : c.isDigit = true) (rest : Text) :
    value (fuel + 1) level (.char c :: rest) = unsigned false (.char c :: rest) := by
  have hletter : c ≠ 'n' ∧ c ≠ 't' ∧ c ≠ 'f' ∧ c ≠ '"' ∧ c ≠ '-' := by
    refine ⟨?_, ?_, ?_, ?_, ?_⟩ <;> (rintro rfl; exact absurd h (by decide))
  rw [value, skipBlanks_char (opening_of_isDigit h).blank]
  simp [hletter, digit?, h]

theorem value_intChars (fuel level : Nat) {n : Int} (hn : (Json.num (.int n)).Regular) {rest : Text}
    (h : Delimited rest) :
    value (fuel + 1) level ((intChars n).map .char ++ rest) = (.num (.int n), some rest) := by
  obtain ⟨hlow, hhigh⟩ : -Int.pow 2 63 ≤ n ∧ n < Int.pow 2 64 := by simpa [Json.Regular] using hn
  unfold intChars
  split_ifs with hneg
  · have hread := unsigned_digitsOf true n.natAbs h
    have hwhole : whole true n.natAbs rest = (.num (.int n), some rest) := by
      have hbound : n.natAbs ≤ Nat.pow 2 63 := by
        rw [show Int.pow 2 63 = 9223372036854775808 from rfl] at hlow
        rw [show Nat.pow 2 63 = 9223372036854775808 from rfl]
        omega
      have hpos : 0 < n.natAbs := by omega
      have hvalue : -(n.natAbs : Int) = n := by omega
      simp only [whole, hbound, hpos, hvalue, decide_true, Bool.not_true, Bool.false_and, Bool.and_self,
        Bool.false_eq_true, if_false, if_true]
    simpa [value, skipBlanks, hwhole] using hread
  · have hread := unsigned_digitsOf false n.natAbs h
    have hwhole : whole false n.natAbs rest = (.num (.int n), some rest) := by
      have hbound : n.natAbs < Nat.pow 2 64 := by
        rw [show Int.pow 2 64 = 18446744073709551616 from rfl] at hhigh
        rw [show Nat.pow 2 64 = 18446744073709551616 from rfl]
        omega
      have hvalue : (n.natAbs : Int) = n := by omega
      simp only [whole, hbound, hvalue, decide_true, Bool.not_false, Bool.and_self, if_true]
    cases hdigits : Decimal.digitsOf n.natAbs with
    | nil => exact absurd hdigits Nat.toDigits_ne_nil
    | cons c cs =>
      have hc : c.isDigit = true := isDigit_digitsOf (n := n.natAbs) (by simp [hdigits])
      rw [hdigits, hwhole] at hread
      rw [List.map_cons, List.cons_append, value_digit fuel level hc]
      exact hread

theorem intChars_opening (n : Int) : ∃ c cs, intChars n = c :: cs ∧ Opening c := by
  unfold intChars
  split_ifs with hneg
  · exact ⟨'-', _, rfl, by decide, by decide⟩
  · cases hdigits : Decimal.digitsOf n.natAbs with
    | nil => exact absurd hdigits Nat.toDigits_ne_nil
    | cons c cs =>
      have hc : c.isDigit = true := isDigit_digitsOf (n := n.natAbs) (by simp [hdigits])
      exact ⟨c, cs, rfl, opening_of_isDigit hc⟩

theorem chars_opening {j : Json} (h : j.Regular) : ∃ c cs, j.chars = c :: cs ∧ Opening c := by
  cases j with
  | null => exact ⟨'n', _, rfl, by decide, by decide⟩
  | bool b => cases b <;> exact ⟨_, _, rfl, by decide, by decide⟩
  | num n =>
    cases n with
    | int n => exact intChars_opening n
    | double x => exact h.elim
  | str s => exact ⟨'"', _, rfl, by decide, by decide⟩
  | arr items => cases items <;> exact ⟨'[', _, rfl, by decide, by decide⟩
  | obj members => cases members <;> exact ⟨'\x7b', _, rfl, by decide, by decide⟩

/-- Items that were read to their end. -/
structure ItemsRead.Shows (r : ItemsRead) (items : List Json) (rest : Text) : Prop where
  items : ShowsItems r.items items
  ending : r.ending = .closed
  rest : r.rest = some rest

/-- Members that were read to their end. -/
structure MembersRead.Shows (r : MembersRead) (members : List (String × Json)) (rest : Text) : Prop where
  members : ShowsMembers r.members members
  ending : r.ending = .closed
  rest : r.rest = some rest

/-- What stands before an item or a member: a comma, unless it is the first. -/
def separator (first : Bool) : Text := if first then [] else [.char ',']

section

variable {fuel level : Nat} {c : Char} {text after rest : Text} {node : Node} {item : Json}

theorem items_close (first : Bool) :
    (items (fuel + 1) level first (.char ']' :: rest)).Shows [] rest := by
  rw [items]
  simp only [skipBlanks_char (c := ']') (by decide), is_char, decide_true, if_true]
  exact ⟨.nil, rfl, rfl⟩

theorem items_item (first : Bool) {more : List Json} (hc : Opening c)
    (hvalue : value fuel level (.char c :: text) = (node, some after)) (hnode : node.Shows item)
    (hmore : (items fuel level false after).Shows more rest) :
    (items (fuel + 1) level first (separator first ++ .char c :: text)).Shows (item :: more) rest := by
  have hcomma := fun rest => skipBlanks_char (c := ',') (by decide) rest
  rw [items]
  cases first <;>
    simp only [separator, List.cons_append, List.nil_append, hcomma, skipBlanks_char hc.blank, is_char,
      hc.closing, hvalue, decide_false, decide_true, Bool.false_eq_true, if_false, if_true,
      Char.reduceEq]
  all_goals exact ⟨.cons hnode hmore.items, hmore.ending, hmore.rest⟩

theorem members_close (first : Bool) :
    (members (fuel + 1) level first (.char '\x7d' :: rest)).Shows [] rest := by
  rw [members]
  simp only [skipBlanks_char (c := '\x7d') (by decide), is_char, decide_true, if_true]
  exact ⟨.nil, rfl, rfl⟩

theorem members_member (first : Bool) (key : String) {more : List (String × Json)}
    (hvalue : value fuel level text = (node, some after)) (hnode : node.Shows item)
    (hmore : (members fuel level false after).Shows more rest) :
    (members (fuel + 1) level first
      (separator first ++ .char '"' :: (closing key ++ .char ':' :: text))).Shows
        ((key, item) :: more) rest := by
  have hcomma := fun rest => skipBlanks_char (c := ',') (by decide) rest
  have hquote := fun rest => skipBlanks_char (c := '"') (by decide) rest
  have hcolon := fun rest => skipBlanks_char (c := ':') (by decide) rest
  rw [members]
  cases first <;>
    simp only [separator, List.cons_append, List.nil_append, hcomma, hquote, hcolon, scan_closing,
      is_char, hvalue, decide_false, decide_true, Bool.false_eq_true, if_false, if_true, Char.reduceEq]
  all_goals exact ⟨.cons hnode hmore.members, hmore.ending, hmore.rest⟩

theorem value_items {js : List Json} (h : (items fuel level true text).Shows js rest) :
    ∃ node : Node, node.Shows (.arr js) ∧
      value (fuel + 1) (level + 1) (.char '[' :: text) = (node, some rest) := by
  refine ⟨.arr (items fuel level true text).items (items fuel level true text).starts .closed,
    .arr _ h.items, ?_⟩
  rw [value, skipBlanks_char (by decide)]
  simp [digit?, container, h.ending, h.rest]

theorem value_members {ms : List (String × Json)} (h : (members fuel level true text).Shows ms rest) :
    ∃ node : Node, node.Shows (.obj ms) ∧
      value (fuel + 1) (level + 1) (.char '\x7b' :: text) = (node, some rest) := by
  refine ⟨.obj (members fuel level true text).members .closed, .obj h.members, ?_⟩
  rw [value, skipBlanks_char (by decide)]
  simp [digit?, container, h.ending, h.rest]

end

/-- The items from here on, and the closing bracket. -/
def itemsText (first : Bool) : List Json → Text
  | []           => [.char ']']
  | item :: more => separator first ++ (item.chars ++ Json.moreItems more).map .char

/-- The members from here on, and the closing brace. -/
def membersText (first : Bool) : List (String × Json) → Text
  | [] => [.char '\x7d']
  | (key, value) :: more =>
    separator first ++ (Json.quote key ++ ':' :: value.chars ++ Json.moreMembers more).map .char

theorem moreItems_eq (items : List Json) : (Json.moreItems items).map .char = itemsText false items := by
  cases items <;> simp [Json.moreItems, itemsText, separator]

theorem moreMembers_eq (members : List (String × Json)) :
    (Json.moreMembers members).map .char = membersText false members := by
  cases members <;> simp [Json.moreMembers, membersText, separator]

theorem chars_arr (items : List Json) :
    (Json.arr items).chars.map .char = .char '[' :: itemsText true items := by
  cases items <;> simp [Json.chars, itemsText, separator]

theorem chars_obj (members : List (String × Json)) :
    (Json.obj members).chars.map .char = .char '\x7b' :: membersText true members := by
  cases members <;> simp [Json.chars, membersText, separator]

theorem itemsText_cons (first : Bool) (item : Json) (more : List Json) :
    itemsText first (item :: more) =
      separator first ++ (item.chars.map .char ++ itemsText false more) := by
  rw [itemsText, List.map_append, moreItems_eq]

theorem membersText_cons (first : Bool) (key : String) (value : Json) (more : List (String × Json)) :
    membersText first ((key, value) :: more) =
      separator first ++ .char '"' :: (closing key ++ .char ':' ::
        (value.chars.map .char ++ membersText false more)) := by
  rw [membersText, List.map_append, moreMembers_eq, List.map_append, quote_eq]
  simp

theorem length_itemsText_pos (items : List Json) : 0 < (itemsText false items).length := by
  cases items <;> simp [itemsText, separator]

theorem length_membersText_pos (members : List (String × Json)) :
    0 < (membersText false members).length := by
  cases members <;> simp [membersText, separator]

theorem delimited_itemsText (items : List Json) (rest : Text) :
    Delimited (itemsText false items ++ rest) := by
  cases items <;> simp [itemsText, separator, Delimited]

theorem delimited_membersText (members : List (String × Json)) (rest : Text) :
    Delimited (membersText false members ++ rest) := by
  cases members <;> simp [membersText, separator, Delimited]

/-- The text of a document is read to its end, with nothing wrong about it, if it nests no deeper than
there are levels left. -/
def ReadsBack (j : Json) : Prop :=
  ∀ {fuel level : Nat} {rest : Text}, j.depth ≤ level → 2 * j.chars.length ≤ fuel → Delimited rest →
    ∃ node : Node, node.Shows j ∧ value fuel level (j.chars.map .char ++ rest) = (node, some rest)

/-- A reader that gets to a value has fuel left. -/
theorem exists_fuel {j : Json} (h : j.Regular) {fuel : Nat} (hfuel : 2 * j.chars.length ≤ fuel) :
    ∃ n, fuel = n + 1 := by
  obtain ⟨c, cs, hcs, -⟩ := chars_opening h
  rw [hcs, List.length_cons] at hfuel
  exact Nat.exists_eq_add_one.2 (by omega)

mutual

theorem value_chars : ∀ (j : Json), j.Regular → ReadsBack j
  | .null, _, fuel + 1, level, rest, _, _, _ =>
    ⟨.null, .null, by simp [Json.chars, value, skipBlanks, word]⟩
  | .bool true, _, fuel + 1, level, rest, _, _, _ =>
    ⟨.bool true, .bool true, by simp [Json.chars, value, skipBlanks, word]⟩
  | .bool false, _, fuel + 1, level, rest, _, _, _ =>
    ⟨.bool false, .bool false, by simp [Json.chars, value, skipBlanks, word]⟩
  | .num (.int n), hj, fuel, level, rest, _, hfuel, hrest => by
    obtain ⟨fuel, rfl⟩ := exists_fuel hj hfuel
    exact ⟨.num (.int n), .num _, value_intChars fuel level hj hrest⟩
  | .str s, _, fuel + 1, level, rest, _, _, _ => by
    refine ⟨.str s, .str s, ?_⟩
    rw [Json.chars, quote_eq, List.cons_append, value, skipBlanks_char (by decide)]
    simp [string, scan_closing]
  | .arr js, hj, fuel, level + 1, rest, hdepth, hfuel, _ => by
    obtain ⟨fuel, rfl⟩ := exists_fuel hj hfuel
    rw [← List.length_map (f := Symbol.char), chars_arr, List.length_cons] at hfuel
    rw [chars_arr]
    exact value_items (items_itemsText true js hj (Nat.le_of_succ_le_succ hdepth) (by omega))
  | .obj ms, hj, fuel, level + 1, rest, hdepth, hfuel, _ => by
    obtain ⟨fuel, rfl⟩ := exists_fuel hj hfuel
    rw [← List.length_map (f := Symbol.char), chars_obj, List.length_cons] at hfuel
    rw [chars_obj]
    exact value_members (members_membersText true ms hj.2 (Nat.le_of_succ_le_succ hdepth) (by omega))

theorem items_itemsText : ∀ (first : Bool) (js : List Json) {fuel level : Nat} {rest : Text},
    Json.RegularItems js → Json.itemsDepth js ≤ level → 2 * (itemsText first js).length ≤ fuel →
    (items fuel level first (itemsText first js ++ rest)).Shows js rest
  | first, [], fuel + 1, level, rest, _, _, _ => items_close first
  | first, item :: more, fuel, level, rest, hj, hdepth, hfuel => by
    obtain ⟨c, cs, hcs, hc⟩ := chars_opening hj.1
    have hitem : 0 < item.chars.length := by simp [hcs]
    have hclose := length_itemsText_pos more
    simp only [itemsText_cons, List.length_append, List.length_map] at hfuel
    obtain ⟨fuel, rfl⟩ : ∃ n, fuel = n + 1 := Nat.exists_eq_add_one.2 (by omega)
    rw [Json.itemsDepth, Nat.max_le] at hdepth
    obtain ⟨node, hnode, hvalue⟩ :=
      value_chars item hj.1 hdepth.1 (show 2 * item.chars.length ≤ fuel by omega)
        (delimited_itemsText more rest)
    have hmore : (items fuel level false (itemsText false more ++ rest)).Shows more rest :=
      items_itemsText false more hj.2 hdepth.2 (by omega)
    rw [hcs, List.map_cons, List.cons_append] at hvalue
    rw [itemsText_cons, hcs, List.append_assoc, List.append_assoc]
    exact items_item first hc hvalue hnode hmore

theorem members_membersText : ∀ (first : Bool) (ms : List (String × Json)) {fuel level : Nat}
    {rest : Text}, Json.RegularMembers ms → Json.membersDepth ms ≤ level →
    2 * (membersText first ms).length ≤ fuel →
    (members fuel level first (membersText first ms ++ rest)).Shows ms rest
  | first, [], fuel + 1, level, rest, _, _, _ => members_close first
  | first, (key, item) :: more, fuel, level, rest, hj, hdepth, hfuel => by
    have hclose := length_membersText_pos more
    simp only [membersText_cons, List.length_append, List.length_cons, List.length_map] at hfuel
    obtain ⟨fuel, rfl⟩ : ∃ n, fuel = n + 1 := Nat.exists_eq_add_one.2 (by omega)
    rw [Json.membersDepth, Nat.max_le] at hdepth
    obtain ⟨node, hnode, hvalue⟩ :=
      value_chars item hj.1 hdepth.1 (show 2 * item.chars.length ≤ fuel by omega)
        (delimited_membersText more rest)
    have hmore : (members fuel level false (membersText false more ++ rest)).Shows more rest :=
      members_membersText false more hj.2 hdepth.2 (by omega)
    simpa [membersText_cons] using members_member first key hvalue hnode hmore

end

/-- The text of a regular document that nests no deeper than a close reading goes is read to its end,
with nothing wrong about it. -/
theorem read_print {j : Json} (hj : j.Regular) (hdepth : j.depth ≤ depthLimit) :
    ∃ node : Node, node.Shows j ∧ read (.ofString j.print) = (node, some []) := by
  have htext : Text.ofString j.print = j.chars.map .char := by
    rw [Text.ofString, Json.print, String.toList_ofList]
  have hfuel : 2 * j.chars.length ≤ 2 * (j.chars.map Symbol.char).length + 2 := by simp
  obtain ⟨node, hnode, hvalue⟩ := value_chars j hj hdepth hfuel (show Delimited [] from trivial)
  rw [List.append_nil] at hvalue
  exact ⟨node, hnode, by rw [htext, read, hvalue]⟩

end Node

end DataAgent
