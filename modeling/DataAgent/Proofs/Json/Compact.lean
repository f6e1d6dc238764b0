import DataAgent.Proofs.Json.Decoding
import DataAgent.Proofs.Json.Spelling
import Mathlib

/-!
# Proofs — Json — Compact

A document has many texts (`Json.SpelledBy`), and its compact text is one of them
(`Json.spelledBy_print`). What a document encodes is decoded from any of its texts
(`Decode.Encodes.decodeString_spelled`).
-/

namespace DataAgent

/-! ### Texts of documents -/

namespace Node

mutual

/-- An outline alike to one that shows a document shows it. -/
theorem Alike.shows : ∀ {node node' : Node}, Alike node node' →
    ∀ {j : Json}, Shows node' j → Shows node j
  | _, _, .null, _, h | _, _, .bool _, _, h | _, _, .num _, _, h | _, _, .str _, _, h => h
  | _, _, .arr starts _ hitems, _, h => by
    cases h with
    | arr _ h => exact .arr starts (hitems.shows h)
  | _, _, .obj hmembers, _, h => by
    cases h with
    | obj h => exact .obj (hmembers.shows h)
  | _, _, .flawed _ _ _ _, _, h => by cases h

theorem AlikeItems.shows : ∀ {items items' : List Node}, AlikeItems items items' →
    ∀ {js : List Json}, ShowsItems items' js → ShowsItems items js
  | _, _, .nil, _, h => h
  | _, _, .cons hitem hitems, _, h => by
    cases h with
    | cons h t => exact .cons (hitem.shows h) (hitems.shows t)

theorem AlikeMembers.shows : ∀ {members members' : List (Key × Node)}, AlikeMembers members members' →
    ∀ {js : List (String × Json)}, ShowsMembers members' js → ShowsMembers members js
  | _, _, .nil, _, h => h
  | _, _, @AlikeMembers.cons key _ _ _ _ _ hkey hvalue hmembers, _, h => by
    cases h with
    | cons h t =>
      obtain ⟨text, flaw⟩ := key
      obtain ⟨htext, hflaw⟩ := hkey
      cases flaw with
      | none =>
        cases htext
        exact .cons (hvalue.shows h) (hmembers.shows t)
      | some f => cases hflaw

end

end Node

/-- The text is one of the document: with any blanks and escapes, and nested no deeper than a close
reading goes. -/
def Json.SpelledBy (j : Json) (text : String) : Prop :=
  ∃ (before after : List Blank) (c : Spelling), Text.ofString text = c.padded before after ∧
    (c.node Node.depthLimit).Shows j

theorem Decode.Encodes.decodeString_spelled {α : Type} {d : Decoder α} {j : Json} {a : α}
    (h : Encodes d j a) {text : String} (htext : j.SpelledBy text) : decodeString d text = .ok a := by
  obtain ⟨before, after, c, htext, hshows⟩ := htext
  obtain ⟨node, hnode, hdecode⟩ := decodeText_spelling d before after c
  rw [decodeString, htext, hdecode]
  exact h.decode .direct node (hnode.shows hshows)

/-! ### Integers -/

theorem digitChar_of_isDigit {c : Char} (h : c.isDigit = true) :
    Nat.digitChar (Fin.ofNat 10 (c.toNat - 48)) = c := by
  simp only [Char.isDigit, ge_iff_le, Bool.and_eq_true, decide_eq_true_eq] at h
  have hlow : 48 ≤ c.toNat := h.1
  have hhigh : c.toNat ≤ 57 := h.2
  apply Char.toNat_inj.1
  rw [Nat.toNat_digitChar_of_lt_ten (Fin.isLt _), Fin.val_ofNat]
  omega

/-- The digits of a natural. -/
def Digits.ofNat (n : Nat) : Digits :=
  let ds := (Decimal.digitsOf n).map fun c => Fin.ofNat 10 (c.toNat - 48)
  { first := ds.headD 0, more := ds.tail }

theorem Digits.chars_ofNat (n : Nat) : (Digits.ofNat n).chars = Decimal.digitsOf n := by
  have hdigits : ∀ c ∈ Decimal.digitsOf n, Nat.digitChar (Fin.ofNat 10 (c.toNat - 48)) = c :=
    fun c hc => digitChar_of_isDigit (Node.isDigit_digitsOf hc)
  cases hn : Decimal.digitsOf n with
  | nil => exact absurd hn Nat.toDigits_ne_nil
  | cons c cs =>
    rw [hn] at hdigits
    simp only [ofNat, chars, hn, List.map_cons, List.headD_cons, List.tail_cons, List.map_map]
    rw [hdigits c (List.mem_cons_self ..)]
    congr 1
    exact (List.map_congr_left fun d hd => hdigits d (List.mem_cons_of_mem c hd)).trans (List.map_id cs)

theorem Digits.natural_ofNat (n : Nat) : Node.natural (Digits.ofNat n).values = n := by
  rw [← Node.values_digits, Digits.chars_ofNat, Node.natural_digitsOf]

theorem Digits.canonical_ofNat (n : Nat) (h : (Digits.ofNat n).first = 0) :
    (Digits.ofNat n).more = [] := by
  rcases Nat.eq_zero_or_pos n with rfl | hn
  · rfl
  · obtain ⟨c, cs, hcs, hc⟩ := Node.digitsOf_head hn
    have hchars := Digits.chars_ofNat n
    rw [hcs, chars, List.map_cons, h, List.cons.injEq] at hchars
    rw [← hchars.1] at hc
    exact absurd hc (by decide)

/-- An integer without fraction and exponent. -/
def NumberText.ofInt (n : Int) : NumberText where
  negative := n < 0
  whole := .ofNat n.natAbs
  canonical := Digits.canonical_ofNat n.natAbs

theorem NumberText.text_ofInt (n : Int) : (ofInt n).text = (intChars n).map .char := by
  by_cases hn : n < 0 <;>
    simp [ofInt, text, unsignedText, tail, intChars, hn, Digits.chars_ofNat]

theorem NumberText.number?_ofInt {n : Int} (h : (Json.num (.int n)).Regular) :
    (ofInt n).number? = some (.int n) := by
  obtain ⟨hlow, hhigh⟩ : -Int.pow 2 63 ≤ n ∧ n < Int.pow 2 64 := by simpa [Json.Regular] using h
  rw [show Int.pow 2 63 = 9223372036854775808 from rfl] at hlow
  rw [show Int.pow 2 64 = 18446744073709551616 from rfl] at hhigh
  have hnumber : (ofInt n).number? = whole? (n < 0) n.natAbs := by
    rw [number?, ofInt, Digits.natural_ofNat]
    rfl
  rw [hnumber, whole?, show Nat.pow 2 64 = 18446744073709551616 from rfl,
    show Nat.pow 2 63 = 9223372036854775808 from rfl]
  by_cases hn : n < 0
  · have hpos : 0 < n.natAbs := by omega
    have hbound : n.natAbs ≤ 9223372036854775808 := by omega
    have hvalue : -(n.natAbs : Int) = n := by omega
    simp only [hn, hpos, hbound, hvalue, decide_true, Bool.not_true, Bool.false_and, Bool.and_self,
      Bool.false_eq_true, if_false, if_true]
  · have hbound : n.natAbs < 18446744073709551616 := by omega
    have hvalue : (n.natAbs : Int) = n := by omega
    simp only [hn, hbound, hvalue, decide_true, decide_false, Bool.not_false, Bool.and_self, if_true]

/-! ### Documents -/

theorem Literal.text_ofString (s : String) : (ofString s).text = Node.closing s := by
  simp only [text, ofString, Node.closing, List.map_append, List.map_flatMap, List.flatMap_map,
    Glyph.text_ofChar]
  rfl

namespace Spelling

mutual

/-- The compact text of a document. -/
def ofJson : Json → Spelling
  | .null            => .null
  | .bool b          => .bool b
  | .num (.int n)    => .num (.ofInt n)
  -- Doubles are left out of regular documents.
  | .num (.double _) => .null
  | .str s           => .str (.ofString s)
  | .arr items       => .arr (ofItems items) []
  | .obj members     => .obj (ofMembers members) []

def ofItems : List Json → List (Margin × Spelling)
  | []           => []
  | item :: more => ({}, ofJson item) :: ofItems more

def ofMembers : List (String × Json) → List (Label × Spelling)
  | []                   => []
  | (key, value) :: more => ({ key := .ofString key }, ofJson value) :: ofMembers more

end

mutual

theorem text_ofJson : ∀ {j : Json}, j.Regular → (ofJson j).text = j.chars.map .char
  | .null, _ | .bool true, _ | .bool false, _ => by simp [ofJson, text, Json.chars]
  | .num (.int n), _ => NumberText.text_ofInt n
  | .str s, _ => by rw [ofJson, text, Literal.text_ofString, Json.chars, Node.quote_eq]
  | .arr items, h => by rw [ofJson, text, itemsText_ofItems true h, Node.chars_arr]
  | .obj members, h => by rw [ofJson, text, membersText_ofMembers true h.2, Node.chars_obj]

theorem itemsText_ofItems : ∀ (first : Bool) {items : List Json}, Json.RegularItems items →
    itemsText first [] (ofItems items) = Node.itemsText first items
  | _, [], _ => rfl
  | first, item :: more, h => by
    rw [ofItems, itemsText, Node.itemsText_cons, text_ofJson h.1, itemsText_ofItems false h.2]
    rfl

theorem membersText_ofMembers : ∀ (first : Bool) {members : List (String × Json)},
    Json.RegularMembers members →
      membersText first [] (ofMembers members) = Node.membersText first members
  | _, [], _ => rfl
  | first, (key, value) :: more, h => by
    rw [ofMembers, membersText, Node.membersText_cons, text_ofJson h.1, membersText_ofMembers false h.2,
      Literal.text_ofString]
    rfl

end

mutual

theorem shows_ofJson : ∀ {j : Json} {level : Nat}, j.Regular → j.depth ≤ level →
    ((ofJson j).node level).Shows j
  | .null, _, _, _ => .null
  | .bool b, _, _, _ => .bool b
  | .num (.int n), _, h, _ => by
    rw [ofJson, node, NumberText.number?_ofInt h]
    exact .num _
  | .str s, _, _, _ => by
    obtain ⟨hpaired, hchars⟩ := Literal.spells_ofString s
    rw [ofJson, node, if_pos hpaired, hchars]
    exact .str s
  | .arr items, level + 1, h, hdepth => .arr [] (shows_ofItems h (Nat.le_of_succ_le_succ hdepth))
  | .obj members, level + 1, h, hdepth => .obj (shows_ofMembers h.2 (Nat.le_of_succ_le_succ hdepth))

theorem shows_ofItems : ∀ {items : List Json} {level : Nat}, Json.RegularItems items →
    Json.itemsDepth items ≤ level → Node.ShowsItems (itemNodes level (ofItems items)) items
  | [], _, _, _ => .nil
  | _ :: _, _, h, hdepth =>
    .cons (shows_ofJson h.1 (Nat.max_le.1 hdepth).1) (shows_ofItems h.2 (Nat.max_le.1 hdepth).2)

theorem shows_ofMembers : ∀ {members : List (String × Json)} {level : Nat}, Json.RegularMembers members →
    Json.membersDepth members ≤ level → Node.ShowsMembers (memberNodes level (ofMembers members)) members
  | [], _, _, _ => .nil
  | (key, value) :: more, level, h, hdepth => by
    have hkey : keyOf (Literal.ofString key) = { text := key } := by
      obtain ⟨hpaired, hchars⟩ := Literal.spells_ofString key
      simp [keyOf, hpaired, hchars]
    rw [ofMembers, memberNodes, hkey]
    exact .cons (shows_ofJson h.1 (Nat.max_le.1 hdepth).1) (shows_ofMembers h.2 (Nat.max_le.1 hdepth).2)

end

end Spelling

/-- The compact text of a regular document is one of its texts. -/
theorem Json.spelledBy_print {j : Json} (h : j.Regular) (hdepth : j.depth ≤ Node.depthLimit) :
    j.SpelledBy j.print := by
  refine ⟨[], [], Spelling.ofJson j, ?_, Spelling.shows_ofJson h hdepth⟩
  rw [Text.ofString, Json.print, String.toList_ofList, Spelling.padded, Spelling.text_ofJson h]
  exact (List.append_nil _).symm

end DataAgent
