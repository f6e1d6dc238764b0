import DataAgent.Json.Decode
import DataAgent.Proofs.Json.Literals
import Mathlib

/-!
# Proofs — Json — Spelling

The texts of the JSON grammar, symbol by symbol, with blanks between their parts and keys in any order
and any number of times. A text is the tree of its derivation (`Spelling`), so that one can speak of
changing a part of it.

A text of the grammar has an outline that can be told from the tree (`Spelling.node`), up to the places
at which its parts stand (`Node.Alike`): the reader comes to its end and finds that outline
(`Node.value_spelling`). A close reading objects to a number out of range, an unpaired surrogate or too
deep a nesting, and to nothing else (`Spelling.Sound`).
-/

namespace DataAgent

/-! ### Values -/

/-- The blanks around an item of an array. -/
structure Margin where
  before : List Blank := []
  after : List Blank := []

/-- The key of a member, and the blanks around it and around the value. -/
structure Label where
  before : List Blank := []
  key : Literal
  beforeColon : List Blank := []
  afterColon : List Blank := []
  after : List Blank := []

/-- A text of the grammar, from its first symbol to its last. The blanks of a container stand before
its closing bracket. -/
inductive Spelling
  | null
  | bool (b : Bool)
  | num (n : NumberText)
  | str (l : Literal)
  | arr (items : List (Margin × Spelling)) (last : List Blank)
  | obj (members : List (Label × Spelling)) (last : List Blank)

namespace Spelling

mutual

def text : Spelling → Text
  | .null             => [.char 'n', .char 'u', .char 'l', .char 'l']
  | .bool true        => [.char 't', .char 'r', .char 'u', .char 'e']
  | .bool false       => [.char 'f', .char 'a', .char 'l', .char 's', .char 'e']
  | .num n            => n.text
  | .str l            => .char '"' :: l.text
  | .arr items last   => .char '[' :: itemsText true last items
  | .obj members last => .char '\x7b' :: membersText true last members

/-- The items from here on, and the closing bracket. -/
def itemsText (first : Bool) (last : List Blank) : List (Margin × Spelling) → Text
  | [] => Blank.text last ++ [.char ']']
  | (margin, item) :: more =>
    Node.separator first ++ (Blank.text margin.before ++ (item.text ++
      (Blank.text margin.after ++ itemsText false last more)))

/-- The members from here on, and the closing brace. -/
def membersText (first : Bool) (last : List Blank) : List (Label × Spelling) → Text
  | [] => Blank.text last ++ [.char '\x7d']
  | (label, value) :: more =>
    Node.separator first ++ (Blank.text label.before ++ .char '"' :: (label.key.text ++
      (Blank.text label.beforeColon ++ .char ':' :: (Blank.text label.afterColon ++ (value.text ++
        (Blank.text label.after ++ membersText false last more))))))

end

/-- A text with blanks before it and after it. -/
def padded (before after : List Blank) (c : Spelling) : Text :=
  Blank.text before ++ c.text ++ Blank.text after

/-- A value that a close reading objects to. -/
def unread : Node := .flawed (Node.faultAtEnd .tooDeep) .null

/-- A container, where `level` more may nest. -/
def shelter (level : Nat) (node : Node) : Node := if level = 0 then unread else node

/-- The key of a member. -/
def keyOf (l : Literal) : Key :=
  { text := l.chars, flaw := if l.paired then none else some (Node.faultAtEnd .loneSurrogate) }

mutual

/-- The outline of a text, where `level` more containers may nest, with no places in it. -/
def node (level : Nat) : Spelling → Node
  | .null          => .null
  | .bool b        => .bool b
  | .num n         => n.number?.elim unread .num
  | .str l         => if l.paired then .str l.chars else unread
  | .arr items _   => shelter level (.arr (itemNodes (level - 1) items) [] .closed)
  | .obj members _ => shelter level (.obj (memberNodes (level - 1) members) .closed)

def itemNodes (level : Nat) : List (Margin × Spelling) → List Node
  | []                => []
  | (_, item) :: more => item.node level :: itemNodes level more

def memberNodes (level : Nat) : List (Label × Spelling) → List (Key × Node)
  | []                     => []
  | (label, value) :: more => (keyOf label.key, value.node level) :: memberNodes level more

end

mutual

/-- Numbers are in range, surrogates are paired, and at most `level` containers nest. -/
def Sound (level : Nat) : Spelling → Prop
  | .null | .bool _ => True
  | .num n          => n.number?.isSome
  | .str l          => l.paired
  | .arr items _    => 0 < level ∧ SoundItems (level - 1) items
  | .obj members _  => 0 < level ∧ SoundMembers (level - 1) members

def SoundItems (level : Nat) : List (Margin × Spelling) → Prop
  | []                => True
  | (_, item) :: more => item.Sound level ∧ SoundItems level more

def SoundMembers (level : Nat) : List (Label × Spelling) → Prop
  | []                     => True
  | (label, value) :: more => label.key.paired ∧ value.Sound level ∧ SoundMembers level more

end

end Spelling

/-! ### Reading a text of the grammar -/

/-- The keys are the same, and a close reading objects to both or to none. -/
def Key.Alike (k k' : Key) : Prop := k.text = k'.text ∧ k.flaw.isNone = k'.flaw.isNone

namespace Node

mutual

/-- The outlines are of complete texts and differ only in the places they note and in what they
object to. -/
inductive Alike : Node → Node → Prop
  | null : Alike .null .null
  | bool (b : Bool) : Alike (.bool b) (.bool b)
  | num (n : Number) : Alike (.num n) (.num n)
  | str (s : String) : Alike (.str s) (.str s)
  | arr {items items' : List Node} (starts starts' : List Place) (h : AlikeItems items items') :
      Alike (.arr items starts .closed) (.arr items' starts' .closed)
  | obj {members members' : List (Key × Node)} (h : AlikeMembers members members') :
      Alike (.obj members .closed) (.obj members' .closed)
  | flawed (f f' : Fault) {inner inner' : Node} (h : inner.skip = .ok ()) (h' : inner'.skip = .ok ()) :
      Alike (.flawed f inner) (.flawed f' inner')

/-- Outlines of items that are alike. -/
inductive AlikeItems : List Node → List Node → Prop
  | nil : AlikeItems [] []
  | cons {item item' : Node} {items items' : List Node} (h : Alike item item')
      (t : AlikeItems items items') : AlikeItems (item :: items) (item' :: items')

/-- Outlines of members that are alike, under the same keys. -/
inductive AlikeMembers : List (Key × Node) → List (Key × Node) → Prop
  | nil : AlikeMembers [] []
  | cons {key key' : Key} {value value' : Node} {members members' : List (Key × Node)}
      (k : key.Alike key') (h : Alike value value') (t : AlikeMembers members members') :
      AlikeMembers ((key, value) :: members) ((key', value') :: members')

end

mutual

/-- A complete text can be skipped. -/
theorem Alike.skip : ∀ {node node' : Node}, Alike node node' → node.skip = .ok ()
  | _, _, .null | _, _, .bool _ | _, _, .num _ | _, _, .str _ => rfl
  | _, _, .arr _ _ h => by
    rw [Node.skip, h.skip]
    rfl
  | _, _, .obj h => by
    rw [Node.skip, h.skip]
    rfl
  | _, _, .flawed _ _ h _ => h

theorem AlikeItems.skip : ∀ {items items' : List Node}, AlikeItems items items' →
    skipItems items = .ok ()
  | _, _, .nil => rfl
  | _, _, .cons h t => by
    rw [skipItems, h.skip, t.skip]
    rfl

theorem AlikeMembers.skip : ∀ {members members' : List (Key × Node)}, AlikeMembers members members' →
    skipMembers members = .ok ()
  | _, _, .nil => rfl
  | _, _, .cons _ h t => by
    rw [skipMembers, h.skip, t.skip]
    rfl

end

mutual

theorem Alike.symm : ∀ {node node' : Node}, Alike node node' → Alike node' node
  | _, _, .null => .null
  | _, _, .bool b => .bool b
  | _, _, .num n => .num n
  | _, _, .str s => .str s
  | _, _, .arr starts starts' h => .arr starts' starts h.symm
  | _, _, .obj h => .obj h.symm
  | _, _, .flawed f f' h h' => .flawed f' f h' h

theorem AlikeItems.symm : ∀ {items items' : List Node}, AlikeItems items items' →
    AlikeItems items' items
  | _, _, .nil => .nil
  | _, _, .cons h t => .cons h.symm t.symm

theorem AlikeMembers.symm : ∀ {members members' : List (Key × Node)}, AlikeMembers members members' →
    AlikeMembers members' members
  | _, _, .nil => .nil
  | _, _, .cons k h t => .cons ⟨k.1.symm, k.2.symm⟩ h.symm t.symm

end

theorem alike_numberNode (number? : Option Number) (rest : Text) :
    Alike (numberNode number? rest) (number?.elim Spelling.unread .num) := by
  cases number? with
  | none => exact .flawed _ _ rfl rfl
  | some n => exact .num n

theorem scan_key (l : Literal) (rest : Text) :
    ∃ key : Key, scan {} (l.text ++ rest) = .closed key rest ∧ key.Alike (Spelling.keyOf l) := by
  obtain ⟨key, hscan, htext, hflaw⟩ := scan_literal l (s := {}) rfl rest
  have houtcome : Scanning.outcome {} l = Literal.read none l := by simp [Scanning.outcome]
  refine ⟨key, hscan, ?_, ?_⟩
  · rw [htext, houtcome]
    rfl
  · rw [hflaw, houtcome, Spelling.keyOf]
    cases hpaired : l.paired <;> simpa [Literal.paired] using hpaired

theorem string_literal (l : Literal) (rest : Text) :
    ∃ node : Node, Alike node (if l.paired then .str l.chars else Spelling.unread) ∧
      string (l.text ++ rest) = (node, some rest) := by
  obtain ⟨⟨text, flaw⟩, hscan, htext, hflaw⟩ := scan_key l rest
  simp only [Spelling.keyOf] at htext hflaw
  cases hpaired : l.paired <;> cases hcause : flaw <;> simp [hpaired, hcause] at hflaw
  · exact ⟨.flawed _ (.str text), .flawed _ _ rfl rfl, by simp only [string, hscan, hcause]; rfl⟩
  · exact ⟨.str l.chars, .str l.chars, by simp only [string, hscan, hcause, htext]⟩

/-- A container is alike to its outline at any level. -/
theorem alike_container (level : Nat) (text : Text) {node node' : Node} (h : Alike node node') :
    Alike (container level text node) (Spelling.shelter level node') := by
  unfold container Spelling.shelter
  split
  · exact .flawed _ _ h.skip rfl
  · exact h

/-- Items that were read to their end. -/
structure ItemsRead.Outlines (r : ItemsRead) (nodes : List Node) (rest : Text) : Prop where
  items : AlikeItems r.items nodes
  ending : r.ending = .closed
  rest : r.rest = some rest

/-- Members that were read to their end. -/
structure MembersRead.Outlines (r : MembersRead) (nodes : List (Key × Node)) (rest : Text) : Prop where
  members : AlikeMembers r.members nodes
  ending : r.ending = .closed
  rest : r.rest = some rest

end Node

namespace Spelling

theorem text_opening (c : Spelling) : ∃ s text, c.text = .char s :: text ∧ Node.Opening s := by
  cases c with
  | null => exact ⟨'n', _, rfl, by decide, by decide⟩
  | bool b => cases b <;> exact ⟨_, _, rfl, by decide, by decide⟩
  | num n =>
    rw [text, NumberText.text]
    cases n.negative with
    | true => exact ⟨'-', _, rfl, by decide, by decide⟩
    | false =>
      exact ⟨_, _, rfl, Node.opening_of_isDigit (Node.isDigit_digits n.whole _ (List.mem_cons_self ..))⟩
  | str l => exact ⟨'"', _, rfl, by decide, by decide⟩
  | arr items last => exact ⟨'[', _, rfl, by decide, by decide⟩
  | obj members last => exact ⟨'\x7b', _, rfl, by decide, by decide⟩

theorem length_text_pos (c : Spelling) : 0 < c.text.length := by
  obtain ⟨s, text, htext, -⟩ := c.text_opening
  simp [htext]

theorem length_itemsText_pos (first : Bool) (last : List Blank) (items : List (Margin × Spelling)) :
    0 < (itemsText first last items).length := by
  cases items with
  | nil => simp [itemsText]
  | cons item more =>
    have hitem := item.2.length_text_pos
    simp only [itemsText, List.length_append]
    omega

theorem length_membersText_pos (first : Bool) (last : List Blank) (members : List (Label × Spelling)) :
    0 < (membersText first last members).length := by
  cases members <;> simp [membersText]

theorem delimited_itemsText (last : List Blank) (items : List (Margin × Spelling)) (rest : Text) :
    Node.Delimited (itemsText false last items ++ rest) := by
  cases items with
  | nil =>
    rw [itemsText, List.append_assoc]
    exact Node.delimited_blanks last (by simp [Node.Delimited])
  | cons item more => simp [itemsText, Node.separator, Node.Delimited]

theorem delimited_membersText (last : List Blank) (members : List (Label × Spelling)) (rest : Text) :
    Node.Delimited (membersText false last members ++ rest) := by
  cases members with
  | nil =>
    rw [membersText, List.append_assoc]
    exact Node.delimited_blanks last (by simp [Node.Delimited])
  | cons member more => simp [membersText, Node.separator, Node.Delimited]

end Spelling

namespace Node

section

variable {fuel level : Nat} {text after rest : Text} {node node' : Node}

theorem items_last (first : Bool) (last : List Blank) :
    (items (fuel + 1) level first (Blank.text last ++ .char ']' :: rest)).Outlines [] rest := by
  rw [items]
  simp only [skipBlanks_blanks_char last (c := ']') (by decide), is_char, decide_true, if_true]
  exact ⟨.nil, rfl, rfl⟩

theorem items_next (first : Bool) (before : List Blank) {c : Char} {more : List Node} (hc : Opening c)
    (hvalue : value fuel level (.char c :: text) = (node, some after)) (hnode : Alike node node')
    (hmore : (items fuel level false after).Outlines more rest) :
    (items (fuel + 1) level first
      (separator first ++ (Blank.text before ++ .char c :: text))).Outlines (node' :: more) rest := by
  have hcomma := fun rest => skipBlanks_char (c := ',') (by decide) rest
  rw [items]
  cases first <;>
    simp only [separator, List.cons_append, List.nil_append, hcomma,
      skipBlanks_blanks_char before hc.blank,
      is_char, hc.closing, hvalue, decide_false, decide_true, Bool.false_eq_true, if_false, if_true,
      Char.reduceEq]
  all_goals exact ⟨.cons hnode hmore.items, hmore.ending, hmore.rest⟩

theorem members_last (first : Bool) (last : List Blank) :
    (members (fuel + 1) level first (Blank.text last ++ .char '\x7d' :: rest)).Outlines [] rest := by
  rw [members]
  simp only [skipBlanks_blanks_char last (c := '\x7d') (by decide), is_char, decide_true, if_true]
  exact ⟨.nil, rfl, rfl⟩

theorem members_next (first : Bool) (before colon : List Blank) (l : Literal)
    {more : List (Key × Node)} (hvalue : value fuel level text = (node, some after))
    (hnode : Alike node node') (hmore : (members fuel level false after).Outlines more rest) :
    (members (fuel + 1) level first
      (separator first ++ (Blank.text before ++ .char '"' :: (l.text ++
        (Blank.text colon ++ .char ':' :: text))))).Outlines ((Spelling.keyOf l, node') :: more) rest := by
  obtain ⟨key, hscan, hkey⟩ := scan_key l (Blank.text colon ++ .char ':' :: text)
  have hcomma := fun rest => skipBlanks_char (c := ',') (by decide) rest
  have hquote := fun rest => skipBlanks_blanks_char before (c := '"') (by decide) rest
  have hcolon := fun rest => skipBlanks_blanks_char colon (c := ':') (by decide) rest
  rw [members]
  cases first <;>
    simp only [separator, List.cons_append, List.nil_append, hcomma, hquote, hcolon, hscan,
      is_char, hvalue, decide_false, decide_true, Bool.false_eq_true, if_false, if_true, Char.reduceEq]
  all_goals exact ⟨.cons hkey hnode hmore.members, hmore.ending, hmore.rest⟩

theorem value_blanks (bs : List Blank) :
    value (fuel + 1) level (Blank.text bs ++ text) = value (fuel + 1) level text := by
  rw [value, value, skipBlanks_blanks]

theorem items_blanks (first : Bool) (bs : List Blank) :
    items (fuel + 1) level first (Blank.text bs ++ text) = items (fuel + 1) level first text := by
  rw [items, items, skipBlanks_blanks]

theorem members_blanks (first : Bool) (bs : List Blank) :
    members (fuel + 1) level first (Blank.text bs ++ text) = members (fuel + 1) level first text := by
  rw [members, members, skipBlanks_blanks]

theorem value_arr {nodes : List Node} (h : (items fuel (level - 1) true text).Outlines nodes rest) :
    ∃ node : Node, Alike node (Spelling.shelter level (.arr nodes [] .closed)) ∧
      value (fuel + 1) level (.char '[' :: text) = (node, some rest) := by
  have hnode := alike_container level (.char '[' :: text)
    (.arr (items fuel (level - 1) true text).starts [] h.items)
  refine ⟨_, hnode, ?_⟩
  rw [value, skipBlanks_char (by decide)]
  simp [digit?, h.ending, h.rest]

theorem value_obj {nodes : List (Key × Node)}
    (h : (members fuel (level - 1) true text).Outlines nodes rest) :
    ∃ node : Node, Alike node (Spelling.shelter level (.obj nodes .closed)) ∧
      value (fuel + 1) level (.char '\x7b' :: text) = (node, some rest) := by
  have hnode := alike_container level (.char '\x7b' :: text) (.obj h.members)
  refine ⟨_, hnode, ?_⟩
  rw [value, skipBlanks_char (by decide)]
  simp [digit?, h.ending, h.rest]

end

mutual

/-- A text of the grammar is read to its end, and its outline is the one its tree tells. -/
theorem value_spelling : ∀ (c : Spelling) {fuel level : Nat} {rest : Text}, 2 * c.text.length ≤ fuel →
    Delimited rest → ∃ node : Node, Alike node (c.node level) ∧
      value fuel level (c.text ++ rest) = (node, some rest)
  | .null, fuel + 1, level, rest, _, _ =>
    ⟨.null, .null, by simp [Spelling.text, value, skipBlanks, word]⟩
  | .bool true, fuel + 1, level, rest, _, _ =>
    ⟨.bool true, .bool true, by simp [Spelling.text, value, skipBlanks, word]⟩
  | .bool false, fuel + 1, level, rest, _, _ =>
    ⟨.bool false, .bool false, by simp [Spelling.text, value, skipBlanks, word]⟩
  | .num n, fuel, level, rest, hfuel, hrest => by
    have hpos := (Spelling.num n).length_text_pos
    obtain ⟨fuel, rfl⟩ : ∃ k, fuel = k + 1 := Nat.exists_eq_add_one.2 (by omega)
    exact ⟨_, alike_numberNode _ rest, value_number fuel level n hrest⟩
  | .str l, fuel + 1, level, rest, _, _ => by
    obtain ⟨node, hnode, hstring⟩ := string_literal l rest
    refine ⟨node, hnode, ?_⟩
    rw [Spelling.text, List.cons_append, value, skipBlanks_char (by decide)]
    simpa using hstring
  | .arr cs last, fuel, level, rest, hfuel, _ => by
    rw [Spelling.text, List.length_cons] at hfuel
    obtain ⟨fuel, rfl⟩ : ∃ k, fuel = k + 1 := Nat.exists_eq_add_one.2 (by omega)
    rw [Spelling.text, List.cons_append]
    exact value_arr (items_spelling true last cs (by omega))
  | .obj ms last, fuel, level, rest, hfuel, _ => by
    rw [Spelling.text, List.length_cons] at hfuel
    obtain ⟨fuel, rfl⟩ : ∃ k, fuel = k + 1 := Nat.exists_eq_add_one.2 (by omega)
    rw [Spelling.text, List.cons_append]
    exact value_obj (members_spelling true last ms (by omega))

theorem items_spelling : ∀ (first : Bool) (last : List Blank) (cs : List (Margin × Spelling))
    {fuel level : Nat} {rest : Text}, 2 * (Spelling.itemsText first last cs).length ≤ fuel →
    (items fuel level first (Spelling.itemsText first last cs ++ rest)).Outlines
      (Spelling.itemNodes level cs) rest
  | first, last, [], fuel, level, rest, hfuel => by
    have hpos := Spelling.length_itemsText_pos first last []
    obtain ⟨fuel, rfl⟩ : ∃ k, fuel = k + 1 := Nat.exists_eq_add_one.2 (by omega)
    rw [Spelling.itemsText, List.append_assoc]
    exact items_last first last
  | first, last, (margin, c) :: more, fuel, level, rest, hfuel => by
    obtain ⟨s, text, htext, hopening⟩ := c.text_opening
    have hpos := c.length_text_pos
    have hmorePos := Spelling.length_itemsText_pos false last more
    simp only [Spelling.itemsText, List.length_append] at hfuel
    -- One unit of fuel for this item and one for those after it.
    obtain ⟨fuel, rfl⟩ : ∃ k, fuel = k + 2 := ⟨fuel - 2, by omega⟩
    obtain ⟨node, hnode, hvalue⟩ := @value_spelling c (fuel + 1) level _ (by omega)
      (delimited_blanks margin.after (Spelling.delimited_itemsText last more rest))
    have hmore : (items (fuel + 1) level false (Spelling.itemsText false last more ++ rest)).Outlines
        (Spelling.itemNodes level more) rest := items_spelling false last more (by omega)
    rw [← items_blanks false margin.after] at hmore
    rw [htext, List.cons_append] at hvalue
    simpa [Spelling.itemsText, Spelling.itemNodes, htext] using
      items_next first margin.before hopening hvalue hnode hmore

theorem members_spelling : ∀ (first : Bool) (last : List Blank) (ms : List (Label × Spelling))
    {fuel level : Nat} {rest : Text}, 2 * (Spelling.membersText first last ms).length ≤ fuel →
    (members fuel level first (Spelling.membersText first last ms ++ rest)).Outlines
      (Spelling.memberNodes level ms) rest
  | first, last, [], fuel, level, rest, hfuel => by
    have hpos := Spelling.length_membersText_pos first last []
    obtain ⟨fuel, rfl⟩ : ∃ k, fuel = k + 1 := Nat.exists_eq_add_one.2 (by omega)
    rw [Spelling.membersText, List.append_assoc]
    exact members_last first last
  | first, last, (label, c) :: more, fuel, level, rest, hfuel => by
    have hpos := c.length_text_pos
    have hmorePos := Spelling.length_membersText_pos false last more
    simp only [Spelling.membersText, List.length_append, List.length_cons] at hfuel
    obtain ⟨fuel, rfl⟩ : ∃ k, fuel = k + 2 := ⟨fuel - 2, by omega⟩
    obtain ⟨node, hnode, hvalue⟩ := @value_spelling c (fuel + 1) level _ (by omega)
      (delimited_blanks label.after (Spelling.delimited_membersText last more rest))
    have hmore : (members (fuel + 1) level false (Spelling.membersText false last more ++ rest)).Outlines
        (Spelling.memberNodes level more) rest := members_spelling false last more (by omega)
    rw [← members_blanks false label.after] at hmore
    rw [← value_blanks label.afterColon] at hvalue
    simpa [Spelling.membersText, Spelling.memberNodes] using
      members_next first label.before label.beforeColon label.key hvalue hnode hmore

end

theorem read_spelling (before after : List Blank) (c : Spelling) :
    ∃ node : Node, Alike node (c.node depthLimit) ∧
      read (c.padded before after) = (node, some (Blank.text after)) := by
  have hdelimited : Delimited (Blank.text after ++ []) := delimited_blanks after trivial
  rw [List.append_nil] at hdelimited
  rw [Spelling.padded, read, List.append_assoc, value_blanks before]
  exact value_spelling c (by simp only [List.length_append]; omega) hdelimited

end Node

/-- What a decoder makes of a text of the grammar is what it makes of an outline like the one its tree
tells. -/
theorem decodeText_spelling {α : Type} (d : Decoder α) (before after : List Blank) (c : Spelling) :
    ∃ node : Node, node.Alike (c.node Node.depthLimit) ∧
      decodeText d (c.padded before after) = d .direct node := by
  obtain ⟨node, hnode, hread⟩ := Node.read_spelling before after c
  have hblanks : Node.skipBlanks (Blank.text after) = [] := by
    simpa [Node.skipBlanks] using Node.skipBlanks_blanks after []
  refine ⟨node, hnode, ?_⟩
  simp only [decodeText, hread, Option.getD_some, hblanks]
  cases d .direct node <;> rfl

end DataAgent
