import DataAgent.Proofs.Json.Keeping
import Mathlib

/-!
# Proofs — Json — Making

What is known of a value because a decoder made it, whatever it was made of. The values of a record are
each decoded or a default (`Slot.Makes`), in an object as in an array (`Decode.made_of_record`), so what
holds of all values of its members holds of all records.
-/

namespace DataAgent

/-- The value of a member, decoded or given. -/
def Slot.Makes {α : Type} (slot : Slot α) (a : α) : Prop :=
  (∃ m node, slot.decode m node = .ok a) ∨ slot.absent = some a ∨ slot.unwritten = some a

theorem Slot.makes_required {α : Type} {name : String} {d : Decoder α} {a : α}
    (h : (Slot.required name d).Makes a) : ∃ m node, d m node = .ok a := by
  rcases h with h | h | h
  · exact h
  · cases h
  · cases h

theorem Slot.makes_withDefault {α : Type} {name : String} {d : Decoder α} {standard a : α}
    (h : (Slot.withDefault name d standard).Makes a) : (∃ m node, d m node = .ok a) ∨ a = standard := by
  rcases h with h | h | h
  · exact .inl h
  · cases h
    exact .inr rfl
  · cases h
    exact .inr rfl

namespace Layout

/-- The values of the members met so far are values of these members. -/
def Holds : {αs : List Type} → Layout αs → Draft αs → Prop
  | _, .nil, () => True
  | _, .cons slot rest, (value, draft) => (∀ a ∈ value, slot.Makes a) ∧ rest.Holds draft

/-- The values are values of the members. -/
def Makes : {αs : List Type} → Layout αs → Values αs → Prop
  | _, .nil, () => True
  | _, .cons slot rest, (a, values) => slot.Makes a ∧ rest.Makes values

variable {αs : List Type} {layout : Layout αs} {m : Mode}

theorem holds_blank (layout : Layout αs) : layout.Holds layout.blank := by
  induction layout with
  | nil => trivial
  | cons slot rest ih => exact ⟨by simp, ih⟩

theorem Holds.put {key : String} {node : Node} {draft draft' : Draft αs} (h : layout.Holds draft)
    (hput : layout.put m key node draft = .ok draft') : layout.Holds draft' := by
  induction layout with
  | nil => trivial
  | cons slot rest ih =>
    obtain ⟨value, draft⟩ := draft
    obtain ⟨value', draft'⟩ := draft'
    rcases put_cons_ok_iff.1 hput with ⟨-, -, rfl, a, ha, rfl⟩ | ⟨-, rfl, hrest⟩
    · exact ⟨fun b hb => by cases hb; exact .inl ⟨m, node, ha⟩, h.2⟩
    · exact ⟨h.1, ih h.2 hrest⟩

theorem Holds.putAll {members : List (Key × Node)} {draft draft' : Draft αs} (h : layout.Holds draft)
    (hput : layout.putAll m members draft = .ok draft') : layout.Holds draft' := by
  induction members generalizing draft with
  | nil =>
    cases hput
    exact h
  | cons member members ih =>
    obtain ⟨-, next, hnext, hrest⟩ := putAll_cons_ok_iff.1 hput
    exact ih (h.put hnext) hrest

theorem Holds.finish {draft : Draft αs} {values : Values αs} (h : layout.Holds draft)
    (hfinish : layout.finish draft = .ok values) : layout.Makes values := by
  induction layout with
  | nil => trivial
  | cons slot rest ih =>
    obtain ⟨value, draft⟩ := draft
    rw [Layout.finish] at hfinish
    split at hfinish
    next a ha =>
      obtain ⟨others, hothers, hvalues⟩ := bind_eq_ok_iff.1 hfinish
      cases hvalues
      refine ⟨?_, ih h.2 hothers⟩
      -- The member was met, and then the draft holds its value, or it was not.
      cases value with
      | none => exact .inr (.inl ha)
      | some b =>
        cases ha
        exact h.1 a rfl
    next => cases hfinish

theorem makes_of_ofMembers {members : List (Key × Node)} {ending : Ending} {values : Values αs}
    (h : layout.ofMembers m members ending = .ok values) : layout.Makes values := by
  obtain ⟨draft, hdraft, h⟩ := bind_eq_ok_iff.1 h
  obtain ⟨-, -, hfinish⟩ := bind_eq_ok_iff.1 h
  exact ((holds_blank layout).putAll hdraft).finish hfinish

theorem makes_of_ofItems {description : String} {total count : Nat} {items : List Node}
    {starts : List Place} {ending : Ending} {values : Values αs}
    (h : layout.ofItems description total m count items starts ending = .ok values) :
    layout.Makes values := by
  induction layout generalizing count items starts with
  | nil => trivial
  | cons slot rest ih =>
    cases items with
    | cons item items =>
      obtain ⟨a, ha, h⟩ := bind_eq_ok_iff.1 h
      obtain ⟨others, hothers, hvalues⟩ := bind_eq_ok_iff.1 h
      cases hvalues
      exact ⟨.inl ⟨m, item, ha⟩, ih hothers⟩
    | nil =>
      obtain ⟨-, -, h⟩ := bind_eq_ok_iff.1 h
      split at h
      next a ha =>
        obtain ⟨others, hothers, hvalues⟩ := bind_eq_ok_iff.1 h
        cases hvalues
        exact ⟨.inr (.inr ha), ih hothers⟩
      next => cases h

end Layout

namespace Decode

variable {α : Type} {m : Mode} {node : Node}

/-- A record is made of values of its members. -/
theorem made_of_record {αs : List Type} {name : String} {layout : Layout αs} {make : Values αs → α}
    {a : α} (h : record name layout make m node = .ok a) :
    ∃ values, layout.Makes values ∧ make values = a := by
  unfold record at h
  split at h
  next =>
    obtain ⟨values, hvalues, rfl⟩ := map_eq_ok_iff.1 h
    exact ⟨values, Layout.makes_of_ofMembers hvalues, rfl⟩
  next =>
    obtain ⟨values, hvalues, rfl⟩ := map_eq_ok_iff.1 h
    exact ⟨values, Layout.makes_of_ofItems hvalues, rfl⟩
  next => cases h

theorem lt_of_unsigned {bits n : Nat} (h : unsigned bits m node = .ok n) : n < Nat.pow 2 bits := by
  unfold unsigned at h
  split at h
  next value =>
    split at h
    next hbound =>
      cases h
      have hpow : Int.pow 2 bits = (Nat.pow 2 bits : Nat) := (Int.natCast_pow 2 bits).symm
      rw [hpow] at hbound
      exact (Int.toNat_lt hbound.1).2 hbound.2
    next => cases h
  next => cases h

theorem made_of_nullable {d : Decoder α} {o : Option α} (h : nullable d m node = .ok o) {a : α}
    (ha : a ∈ o) : d m node = .ok a := by
  unfold nullable at h
  split at h
  next =>
    cases h
    cases ha
  next =>
    obtain ⟨b, hb, rfl⟩ := map_eq_ok_iff.1 h
    cases ha
    exact hb

end Decode

end DataAgent
