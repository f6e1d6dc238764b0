import DataAgent.Config.File
import DataAgent.Proofs.Json.Decoding
import DataAgent.Proofs.Text.Order
import Mathlib

/-!
# Proofs — Config — Maps

The databases of a configuration are a map: they stand in the order of the bytes of their names
(`Members.Ordered`), so no name is there twice. Whatever members a file has, in whatever order and with
whatever repetitions, what is kept of them is such a map (`Members.ordered_sorted`), and a map that is
kept is kept as it is (`Members.sorted_of_ordered`).
-/

namespace DataAgent.Members

variable {α : Type} {m : Members α}

/-- The keys stand in the order of their bytes. -/
def Ordered (m : Members α) : Prop := m.Pairwise fun a b => bytesOf a.1 < bytesOf b.1

theorem ordered_iff : Ordered m ↔ m.Pairwise fun a b => a.1 < b.1 := by
  simp only [Ordered, lt_iff_bytesOf_lt]

/-! ### Lookups -/

theorem get?_eq_none_iff {key : String} : get? m key = none ↔ key ∉ m.map Prod.fst := by
  rw [get?, Option.map_eq_none_iff, List.find?_eq_none]
  simp only [decide_eq_true_eq, List.mem_map, not_exists, not_and]

theorem mem_of_get? {key : String} {value : α} (h : get? m key = some value) : (key, value) ∈ m := by
  obtain ⟨⟨k, v⟩, hfind, hvalue⟩ := Option.map_eq_some_iff.1 h
  have hkey : k = key := by simpa using List.find?_some hfind
  subst hkey hvalue
  exact List.mem_of_find?_eq_some hfind

/-- Where no key is there twice, a lookup finds what is there. -/
theorem get?_eq_some_iff (h : (m.map Prod.fst).Nodup) {key : String} {value : α} :
    get? m key = some value ↔ (key, value) ∈ m := by
  refine ⟨mem_of_get?, fun hmem => ?_⟩
  cases hget : get? m key with
  | none => exact absurd (List.mem_map_of_mem hmem) (get?_eq_none_iff.1 hget)
  | some found =>
    cases List.inj_on_of_nodup_map h (mem_of_get? hget) hmem rfl
    rfl

/-! ### Order -/

theorem Ordered.nodup (h : Ordered m) : (m.map Prod.fst).Nodup :=
  List.pairwise_map.2 ((ordered_iff.1 h).imp fun hlt => ne_of_lt hlt)

theorem not_decide_lt_iff {s t : String} : (!decide (t < s)) = true ↔ s ≤ t := by
  rw [Bool.not_eq_true', decide_eq_false_iff_not, not_lt]

theorem sorted_of_ordered (h : Ordered m) : sorted m = m :=
  List.mergeSort_of_pairwise ((ordered_iff.1 h).imp fun hlt => not_decide_lt_iff.2 hlt.le)

/-- Sorting members with different keys makes a map of them. -/
theorem ordered_sorted (h : (m.map Prod.fst).Nodup) : Ordered (sorted m) := by
  have hperm : (sorted m).Perm m := List.mergeSort_perm _ _
  have hne : (sorted m).Pairwise fun a b => a.1 ≠ b.1 :=
    List.pairwise_map.1 ((hperm.map Prod.fst).nodup_iff.2 h)
  have hle : (sorted m).Pairwise fun a b => (!decide (b.1 < a.1)) = true := by
    refine List.pairwise_mergeSort (fun a b c hab hbc => ?_) (fun a b => ?_) m
    · exact not_decide_lt_iff.2 ((not_decide_lt_iff.1 hab).trans (not_decide_lt_iff.1 hbc))
    · rw [Bool.or_eq_true]
      exact (le_total a.1 b.1).imp not_decide_lt_iff.2 not_decide_lt_iff.2
  exact ordered_iff.2 ((hle.and hne).imp fun h => lt_of_le_of_ne (not_decide_lt_iff.1 h.1) h.2)

theorem map_fst_put (members : Members α) (key : String) (value : α) :
    (members.put key value).map Prod.fst =
      if key ∈ members.map Prod.fst then members.map Prod.fst else members.map Prod.fst ++ [key] := by
  induction members with
  | nil => rfl
  | cons member rest ih =>
    obtain ⟨k, v⟩ := member
    by_cases hkey : k = key
    · simp [put, hkey]
    · simp only [put, if_neg hkey, List.map_cons, ih, List.mem_cons, Ne.symm hkey, false_or]
      split <;> rfl

theorem nodup_put {members : Members α} (h : (members.map Prod.fst).Nodup) (key : String) (value : α) :
    ((members.put key value).map Prod.fst).Nodup := by
  rw [map_fst_put]
  split
  next => exact h
  next hkey =>
    refine List.nodup_append.2 ⟨h, List.nodup_singleton key, fun k hk k' hk' heq => hkey ?_⟩
    rw [List.mem_singleton] at hk'
    rwa [← hk', ← heq]

/-- No key is there twice, however often it was put there. -/
theorem nodup_ofList (entries : List (String × α)) : ((ofList entries).map Prod.fst).Nodup := by
  have hput : ∀ members : Members α, (members.map Prod.fst).Nodup →
      ((entries.foldl (fun members entry => members.put entry.1 entry.2) members).map Prod.fst).Nodup := by
    induction entries with
    | nil => exact fun _ h => h
    | cons entry rest ih => exact fun members h => ih _ (nodup_put h entry.1 entry.2)
  exact hput [] List.nodup_nil

end DataAgent.Members
