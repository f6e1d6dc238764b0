import DataAgent.Proofs.Json.Places
import Mathlib

/-!
# Proofs — Json — Weight

A text is no shorter than what is read of it. The weight of an outline (`Node.weight`) is a number of
symbols that its text has at the least: two for a string, one for any other scalar, and for a container
one more for each of its parts, to which the bracket before the first and the comma before any other
belong. What cannot be read closely has no weight. The reader keeps to it (`Node.weight_read_le`).
-/

namespace DataAgent

namespace Node

/-! ### Weights -/

mutual

/-- A number of symbols that the text of an outline has at the least. -/
def weight : Node → Nat
  | .null | .bool _ | .num _ => 1
  | .str _ => 2
  | .arr items _ _ => max 1 (itemsWeight items)
  | .obj members _ => max 1 (membersWeight members)
  | .flawed _ _ | .broken _ _ => 0

/-- The weight of items, each with the mark before it. -/
def itemsWeight : List Node → Nat
  | []            => 0
  | item :: items => item.weight + 1 + itemsWeight items

/-- The weight of members, each with the mark before it. -/
def membersWeight : List (Key × Node) → Nat
  | []                 => 0
  | (_, node) :: rest => node.weight + 1 + membersWeight rest

end

/-- What is read and what is left have so many symbols at the most. -/
def Within (n : Nat) (r : Node × Option Text) : Prop := r.1.weight + (r.2.getD []).length ≤ n

theorem Within.mono {n k : Nat} {r : Node × Option Text} (h : Within n r) (hk : n ≤ k) : Within k r :=
  Nat.le_trans h hk

theorem within_stop (n : Nat) (f : Fault) : Within n (stop f) := Nat.zero_le n

theorem length_skipBlanks_le (text : Text) : (skipBlanks text).length ≤ text.length := by
  induction text with
  | nil => exact Nat.le_refl _
  | cons s rest ih =>
    rw [skipBlanks]
    split
    · exact ih.trans (Nat.le_succ _)
    · exact Nat.le_refl _

/-! ### Scalars -/

theorem within_word {node : Node} (h : node.weight = 1) : ∀ (letters : List Char) (text : Text),
    Within (text.length + 1) (word node letters text)
  | [], text => by
    show node.weight + text.length ≤ text.length + 1
    omega
  | _ :: _, [] => within_stop _ _
  | c :: letters, s :: rest => by
    rw [word]
    split
    · exact (within_word h letters rest).mono (Nat.le_succ _)
    · exact within_stop _ _

/-- Digits and what follows them are the text. -/
theorem length_digits : ∀ text : Text,
    (digits text).1.length + (digits text).2.length = text.length
  | [] => rfl
  | s :: rest => by
    have hrest := length_digits rest
    rw [digits]
    cases digit? s with
    | none => simp
    | some d =>
      simp only [List.length_cons]
      omega

theorem within_double (x : Decimal) (rest : Text) : Within (rest.length + 1) (double x rest) := by
  unfold double
  split
  · exact Nat.le_of_eq (Nat.add_comm 1 rest.length)
  · exact (Nat.zero_add rest.length).trans_le (Nat.le_succ _)

theorem within_whole (negative : Bool) (n : Nat) (rest : Text) :
    Within (rest.length + 1) (whole negative n rest) := by
  unfold whole
  split
  · exact Nat.le_of_eq (Nat.add_comm 1 rest.length)
  · split
    · exact Nat.le_of_eq (Nat.add_comm 1 rest.length)
    · exact within_double _ rest

theorem within_exponent (x : Decimal) (text : Text) :
    Within (text.length + 1) (exponent x text) := by
  unfold exponent
  split
  next negative rest hsign =>
    have hrest : rest.length ≤ text.length := by
      cases text with
      | nil =>
        cases hsign
        exact Nat.le_refl _
      | cons s after =>
        dsimp only at hsign
        split at hsign
        · cases hsign
          exact Nat.le_succ _
        · split at hsign
          · cases hsign
            exact Nat.le_succ _
          · cases hsign
            exact Nat.le_refl _
    have hdigits := length_digits rest
    split
    · exact Nat.zero_le _
    · exact within_stop _ _
    next ds after _ _ heq =>
      rw [heq] at hdigits
      exact (within_double _ after).mono (by simp only at hdigits; omega)

theorem within_afterWhole (negative : Bool) (ds : List Nat) (text : Text) :
    Within (text.length + 1) (afterWhole negative ds text) := by
  unfold afterWhole
  split
  · exact within_whole _ _ _
  next s rest =>
    rw [List.length_cons]
    split
    · have hdigits := length_digits rest
      split
      · exact Nat.zero_le _
      · exact within_stop _ _
      next fs after _ _ heq =>
        rw [heq] at hdigits
        simp only at hdigits
        dsimp only
        split
        · exact (within_double _ _).mono (by simp)
        · rw [List.length_cons] at hdigits
          split
          · exact (within_exponent _ _).mono (by omega)
          · exact (within_double _ _).mono (by rw [List.length_cons]; omega)
    · split
      · exact (within_exponent _ rest).mono (by omega)
      · exact within_whole _ _ _

/-- A number has a digit. -/
theorem within_unsigned (negative : Bool) (text : Text) :
    Within text.length (unsigned negative text) := by
  have hdigits := length_digits text
  unfold unsigned
  split
  · exact Nat.zero_le _
  · exact within_stop _ _
  · exact within_stop _ _
  next ds rest _ hne _ heq =>
    rw [heq] at hdigits
    have hpos := List.length_pos_of_ne_nil hne
    exact (within_afterWhole negative ds rest).mono (by simp only at hdigits; omega)

/-- A string literal has its closing quote. -/
theorem length_scan_lt {s : Scanning} {text : Text} {key : Key} {rest : Text}
    (h : scan s text = .closed key rest) : rest.length < text.length := by
  fun_induction scan s text with
  | case2 =>
    cases h
    exact Nat.lt_succ_self _
  | case1 | case3 | case5 | case6 | case7 | case9 | case10 => cases h
  | case4 _ _ _ _ _ _ _ _ ih | case8 _ _ _ _ _ _ _ _ ih =>
    refine (ih h).trans ?_
    simp only [List.length_cons]
    omega
  | case11 _ _ _ _ _ _ _ _ _ _ ih | case12 _ _ ih => exact (ih h).trans (Nat.lt_succ_self _)

theorem within_string (text : Text) : Within (text.length + 1) (string text) := by
  unfold string
  split
  next rest hscan =>
    have hrest := length_scan_lt hscan
    show 2 + rest.length ≤ text.length + 1
    omega
  next rest hscan =>
    have hrest := length_scan_lt hscan
    show 0 + rest.length ≤ text.length + 1
    omega
  next => exact Nat.zero_le _

/-! ### Values -/

/-- The items and what is left, where the bracket before the first item belongs to it. -/
structure ItemsRead.Within (n : Nat) (first : Bool) (r : ItemsRead) : Prop where
  all : itemsWeight r.items + (r.rest.getD []).length ≤ n + first.toNat
  left : (r.rest.getD []).length ≤ n

/-- The members and what is left, where the bracket before the first member belongs to it. -/
structure MembersRead.Within (n : Nat) (first : Bool) (r : MembersRead) : Prop where
  all : membersWeight r.members + (r.rest.getD []).length ≤ n + first.toNat
  left : (r.rest.getD []).length ≤ n

theorem within_container {n level : Nat} {text : Text} {node : Node} {rest : Option Text}
    (h : Within n (node, rest)) : Within n (container level text node, rest) := by
  unfold container
  split
  · exact (Nat.add_le_add_right (Nat.zero_le _) _).trans h
  · exact h

/-- The item at the start of a text, and those after it. -/
def itemAt (fuel level : Nat) (text : Text) : ItemsRead :=
  let start : Place := { rest := text, ahead := 1 }
  match value fuel level text with
  | (node, none) => { items := [node], starts := [start], ending := .broken }
  | (node, some rest) =>
    let r := items fuel level false rest
    { r with items := node :: r.items, starts := start :: r.starts }

/-- The member whose key starts with a text, and those after it. -/
def memberAt (fuel level : Nat) (text : Text) : MembersRead :=
  match scan {} text with
  | .stopped strict skipped => { ending := .brokenKey strict skipped }
  | .closed key rest => match skipBlanks rest with
    | [] =>
      let f := faultAtEnd .endInObject
      { members := [(key, .broken f f)], ending := .broken }
    | s :: rest =>
      if s.is ':' then match value fuel level rest with
        | (node, none) => { members := [(key, node)], ending := .broken }
        | (node, some rest) =>
          let r := members fuel level false rest
          { r with members := (key, node) :: r.members }
      else
        let f := faultAt .expectedColon (s :: rest)
        { members := [(key, .broken f f)], ending := .broken }

section

variable {fuel level : Nat} (hvalue : ∀ text, Within text.length (value fuel level text))

include hvalue

theorem within_itemAt (hitems : ∀ text, (items fuel level false text).Within text.length false)
    {n : Nat} {first : Bool} {text : Text} (hn : text.length + 1 ≤ n + first.toNat) :
    (itemAt fuel level text).Within n first := by
  have hfirst := first.toNat_le
  have hread := hvalue text
  unfold itemAt
  split
  next node hnode =>
    rw [hnode] at hread
    have hweight : node.weight + 0 ≤ text.length := hread
    refine ⟨?_, Nat.zero_le _⟩
    show node.weight + 1 + 0 + 0 ≤ _
    omega
  next node rest hnode =>
    rw [hnode] at hread
    have hweight : node.weight + rest.length ≤ text.length := hread
    obtain ⟨hall, hleft⟩ := hitems rest
    rw [Bool.toNat_false] at hall
    refine ⟨?_, ?_⟩
    · show node.weight + 1 + itemsWeight (items fuel level false rest).items +
        ((items fuel level false rest).rest.getD []).length ≤ _
      omega
    · show ((items fuel level false rest).rest.getD []).length ≤ n
      omega

theorem within_memberAt (hmembers : ∀ text, (members fuel level false text).Within text.length false)
    {n : Nat} {first : Bool} {text : Text} (hn : text.length ≤ n) :
    (memberAt fuel level text).Within n first := by
  unfold memberAt
  split
  next => exact ⟨Nat.zero_le _, Nat.zero_le _⟩
  next key rest hscan =>
    -- the quote that closes the key pays for the mark of the member
    have hrest := length_scan_lt hscan
    have hblanks := length_skipBlanks_le rest
    have hbroken (f : Fault) (ending : Ending) : MembersRead.Within n first
        { members := [(key, .broken f f)], ending } := by
      refine ⟨?_, Nat.zero_le _⟩
      show 0 + 1 + 0 + 0 ≤ _
      omega
    split
    next => exact hbroken _ _
    next s after hskip =>
      rw [hskip, List.length_cons] at hblanks
      have hread := hvalue after
      split
      · split
        next node hnode =>
          rw [hnode] at hread
          have hweight : node.weight + 0 ≤ after.length := hread
          refine ⟨?_, Nat.zero_le _⟩
          show node.weight + 1 + 0 + 0 ≤ _
          omega
        next node left hnode =>
          rw [hnode] at hread
          have hweight : node.weight + left.length ≤ after.length := hread
          obtain ⟨hall, hleft⟩ := hmembers left
          rw [Bool.toNat_false] at hall
          refine ⟨?_, ?_⟩
          · show node.weight + 1 + membersWeight (members fuel level false left).members +
              ((members fuel level false left).rest.getD []).length ≤ _
            omega
          · show ((members fuel level false left).rest.getD []).length ≤ n
            omega
      · exact hbroken _ _

end

/-- A container has its bracket, and then its parts. -/
theorem within_parts {n w : Nat} {rest : Option Text}
    (hall : w + (rest.getD []).length ≤ n + 1) (hleft : (rest.getD []).length ≤ n) :
    max 1 w + (rest.getD []).length ≤ n + 1 := by
  omega

mutual

theorem within_value : ∀ (fuel level : Nat) (text : Text),
    Within text.length (value fuel level text)
  | 0, _, _ => within_stop _ _
  | fuel + 1, level, text => by
    have hblanks := length_skipBlanks_le text
    unfold value
    split
    · exact within_stop _ _
    next s rest hskip =>
      rw [hskip, List.length_cons] at hblanks
      refine Within.mono ?_ hblanks
      split_ifs
      · exact within_word rfl _ rest
      · exact within_word rfl _ rest
      · exact within_word rfl _ rest
      · exact within_string rest
      · exact (within_unsigned true rest).mono (Nat.le_succ _)
      · exact within_unsigned false (s :: rest)
      · have hitems := within_items fuel (level - 1) true rest
        exact within_container (within_parts hitems.all hitems.left)
      · have hmembers := within_members fuel (level - 1) true rest
        exact within_container (within_parts hmembers.all hmembers.left)
      · exact within_stop _ _

theorem within_items : ∀ (fuel level : Nat) (first : Bool) (text : Text),
    (items fuel level first text).Within text.length first
  | 0, _, _, _ => ⟨Nat.zero_le _, Nat.zero_le _⟩
  | fuel + 1, level, first, text => by
    have hblanks := length_skipBlanks_le text
    have hitem {n : Nat} {first : Bool} {text : Text} (hn : text.length + 1 ≤ n + first.toNat) :=
      within_itemAt (within_value fuel level) (within_items fuel level false) hn
    unfold items
    dsimp only
    split
    next => exact ⟨Nat.zero_le _, Nat.zero_le _⟩
    next s rest hskip =>
      rw [hskip, List.length_cons] at hblanks
      split_ifs with hclose hfirst hcomma
      · refine ⟨?_, ?_⟩
        · show 0 + rest.length ≤ _
          omega
        · show rest.length ≤ _
          omega
      · -- no comma stands before the first item: its mark is the bracket
        refine hitem ?_
        rw [hfirst, Bool.toNat_true, List.length_cons]
        omega
      · have hafter := length_skipBlanks_le rest
        split
        next => exact ⟨Nat.zero_le _, Nat.zero_le _⟩
        next s after hskip =>
          rw [hskip, List.length_cons] at hafter
          split_ifs
          · exact ⟨Nat.zero_le _, Nat.zero_le _⟩
          · refine hitem ?_
            rw [List.length_cons]
            omega
      · exact ⟨Nat.zero_le _, Nat.zero_le _⟩

theorem within_members : ∀ (fuel level : Nat) (first : Bool) (text : Text),
    (members fuel level first text).Within text.length first
  | 0, _, _, _ => ⟨Nat.zero_le _, Nat.zero_le _⟩
  | fuel + 1, level, first, text => by
    have hblanks := length_skipBlanks_le text
    have hmember {n : Nat} {first : Bool} {text : Text} (hn : text.length ≤ n) :
        (memberAt fuel level text).Within n first :=
      within_memberAt (within_value fuel level) (within_members fuel level false) hn
    unfold members
    dsimp only
    split
    next => exact ⟨Nat.zero_le _, Nat.zero_le _⟩
    next s rest hskip =>
      rw [hskip, List.length_cons] at hblanks
      split_ifs with hclose hfirst hquote hcomma
      · refine ⟨?_, ?_⟩
        · show 0 + rest.length ≤ _
          omega
        · show rest.length ≤ _
          omega
      · exact hmember (by omega)
      · exact ⟨Nat.zero_le _, Nat.zero_le _⟩
      · have hafter := length_skipBlanks_le rest
        split
        next => exact ⟨Nat.zero_le _, Nat.zero_le _⟩
        next s after hskip =>
          rw [hskip, List.length_cons] at hafter
          split_ifs
          · exact hmember (by omega)
          · exact ⟨Nat.zero_le _, Nat.zero_le _⟩
          · exact ⟨Nat.zero_le _, Nat.zero_le _⟩
      · exact ⟨Nat.zero_le _, Nat.zero_le _⟩

end

/-- **A text is no shorter than the outline that is read of it.** -/
theorem weight_read_le (text : Text) : (read text).1.weight ≤ text.length :=
  (Nat.le_add_right _ _).trans (within_value _ _ text)

end Node

end DataAgent
