import Mathlib

/-!
# Proofs — Text — Order

Strings are compared by the code points of their characters, and stored as bytes. UTF-8 keeps the
order: of two different characters the one with the smaller code point has the smaller bytes, and neither
starts with all bytes of the other. So strings are in the order of their bytes (`lt_iff_bytesOf_lt`).
-/

namespace DataAgent

/-- The bytes of a string. -/
def bytesOf (s : String) : List UInt8 := s.toUTF8.data.toList

theorem bytesOf_eq_flatMap (s : String) : bytesOf s = s.toList.flatMap String.utf8EncodeChar := by
  have hencode : s.toByteArray = s.toList.utf8Encode := by
    conv => lhs; rw [← String.ofList_toList (s := s)]
    exact String.toByteArray_ofList
  rw [bytesOf, String.toUTF8_eq_toByteArray, hencode, List.utf8Encode]
  simp

/-! ### Characters -/

/-- Numbers are compared by what is above their last six bits, and then by these. -/
theorem lt_sixBits {m n : Nat} (h : m < n) : m / 64 < n / 64 ∨ m / 64 = n / 64 ∧ m % 64 < n % 64 := by
  omega

/-- The parts of a number in four bytes, from the first on. -/
theorem lt_fourBytes {m n : Nat} (h : m < n) :
    m / 262144 < n / 262144 ∨ m / 262144 = n / 262144 ∧
      (m / 4096 % 64 < n / 4096 % 64 ∨ m / 4096 % 64 = n / 4096 % 64 ∧
        (m / 64 % 64 < n / 64 % 64 ∨ m / 64 % 64 = n / 64 % 64 ∧ m % 64 < n % 64)) := by
  have hparts : ∀ k : Nat, k / 4096 = k / 64 / 64 ∧ k / 262144 = k / 64 / 64 / 64 := fun k => by omega
  rw [(hparts m).1, (hparts n).1, (hparts m).2, (hparts n).2]
  rcases lt_sixBits h with h | ⟨heq, h⟩
  · rcases lt_sixBits h with h | ⟨heq, h⟩
    · rcases lt_sixBits h with h | ⟨heq, h⟩
      · exact .inl h
      · exact .inr ⟨heq, .inl h⟩
    · rw [heq]
      exact .inr ⟨rfl, .inr ⟨rfl, .inl h⟩⟩
  · rw [heq]
    exact .inr ⟨rfl, .inr ⟨rfl, .inr ⟨rfl, h⟩⟩⟩

/-- The bytes of a character with a smaller code point are smaller, whatever follows them. -/
theorem utf8EncodeChar_append_lt {c d : Char} (h : c < d) (x y : List UInt8) :
    String.utf8EncodeChar c ++ x < String.utf8EncodeChar d ++ y := by
  have hlt : c.val.toNat < d.val.toNat := h
  have hbound : d.val.toNat < 1114112 := by
    rcases d.valid with hlow | hhigh
    · exact Nat.lt_trans hlow (by decide)
    · exact hhigh.2
  have hfour := lt_fourBytes hlt
  unfold String.utf8EncodeChar
  simp only
  generalize c.val.toNat = m at hlt hfour
  generalize d.val.toNat = n at hlt hfour hbound
  have hbytes : ∀ k : Nat, (k % 64 + 128) % 256 = k % 64 + 128 := fun k => by omega
  have hlead : ∀ k < 1114112, (k / 262144 % 8 + 240) % 256 = k / 262144 + 240 := fun k hk => by omega
  -- The first bytes of characters of different lengths are in different ranges.
  split_ifs <;>
    simp only [List.cons_append, List.nil_append, List.cons_lt_cons_iff, UInt8.lt_iff_toNat_lt,
      ← UInt8.toNat_inj, UInt8.toNat_ofNat', Nat.reducePow, hbytes, hlead m (hlt.trans hbound),
      hlead n hbound] <;>
    omega

/-! ### Strings -/

theorem flatMap_utf8EncodeChar_lt {s t : List Char} (h : s < t) :
    s.flatMap String.utf8EncodeChar < t.flatMap String.utf8EncodeChar := by
  induction t generalizing s with
  | nil => exact absurd h (List.not_lt_nil s)
  | cons d t ih =>
    cases s with
    | nil =>
      rw [List.flatMap_nil, List.flatMap_cons]
      have hlength := String.length_utf8EncodeChar d
      cases hencode : String.utf8EncodeChar d with
      | nil =>
        rw [hencode] at hlength
        exact absurd hlength.symm d.utf8Size_pos.ne'
      | cons byte bytes => exact List.nil_lt_cons _ _
    | cons c s =>
      rw [List.flatMap_cons, List.flatMap_cons]
      rcases List.cons_lt_cons_iff.1 h with hlt | ⟨rfl, hlt⟩
      · exact utf8EncodeChar_append_lt hlt _ _
      · exact List.append_left_lt (ih hlt)

/-- Strings are in the order of their bytes. -/
theorem lt_iff_bytesOf_lt {s t : String} : s < t ↔ bytesOf s < bytesOf t := by
  have hlt : ∀ {s t : String}, s < t → bytesOf s < bytesOf t := by
    intro s t h
    rw [bytesOf_eq_flatMap, bytesOf_eq_flatMap]
    exact flatMap_utf8EncodeChar_lt (String.lt_iff_toList_lt.1 h)
  refine ⟨hlt, fun h => ?_⟩
  rcases lt_trichotomy s t with hst | rfl | hts
  · exact hst
  · exact absurd h (List.lt_irrefl _)
  · exact absurd h (List.lt_asymm (hlt hts))

end DataAgent
