import DataAgent.Proofs.Json.Keeping
import DataAgent.Proofs.Json.Weight
import DataAgent.Proofs.Sql.Outcomes

/-!
# Proofs — Json — Costs

What a decoder makes of a text is no larger than the text. A decoder keeps to a cost (`Decode.Costs`)
when whatever it makes costs no more than the outline that it is made of weighs. There is one rule for
each way to build a decoder. A member of a record may cost one more than its value weighs, which the
mark before it pays for, and a member that is not there costs nothing (`Slot.Costs`). A key that is
repeated is decoded each time and kept once.
-/

namespace DataAgent

open Node (itemsWeight membersWeight)

namespace Decode

variable {α : Type} {d : Decoder α} {f : α → Nat}

/-- What the decoder makes costs no more than the outline weighs. -/
def Costs (d : Decoder α) (cost : α → Nat) : Prop :=
  ∀ (m : Mode) (node : Node) (a : α), d m node = .ok a → cost a ≤ node.weight

theorem costs_zero (d : Decoder α) : Costs d fun _ => 0 := fun _ _ _ _ => Nat.zero_le _

theorem costs_string : Costs string fun _ => 2 := by
  intro m node a h
  cases node with
  | str s => exact Nat.le_refl _
  | _ => cases h

theorem Costs.nullable (h : Costs d f) : Costs (nullable d) fun o => o.elim 0 f := by
  intro m node o ho
  cases o with
  | none => exact Nat.zero_le _
  | some a =>
    unfold Decode.nullable at ho
    split at ho
    · cases ho
    · obtain ⟨b, hb, hsome⟩ := map_eq_ok_iff.1 ho
      cases hsome
      exact h _ _ _ hb

theorem Costs.sum_items (h : Costs d f) {m : Mode} {items : List Node} {as : List α}
    (hitems : items.mapM (d m) = .ok as) : (as.map f).sum ≤ itemsWeight items := by
  replace hitems := Sql.forall₂_of_mapM_ok hitems
  induction hitems with
  | nil => exact Nat.zero_le _
  | cons ha _ ih =>
    have hfirst := h _ _ _ ha
    rw [List.map_cons, List.sum_cons, itemsWeight]
    omega

theorem Costs.list (h : Costs d f) : Costs (list d) fun as => (as.map f).sum := by
  intro m node as has
  cases node with
  | arr items starts ending =>
    obtain ⟨values, hvalues, has⟩ := bind_eq_ok_iff.1 has
    obtain ⟨-, -, hpure⟩ := bind_eq_ok_iff.1 has
    cases hpure
    exact (h.sum_items hvalues).trans (Nat.le_max_right _ _)
  | _ => cases has

/-- A key that is there already takes a new value in place of its old one. -/
theorem sum_put_le (f : α → Nat) (key : String) (value : α) : ∀ members : Members α,
    ((members.put key value).map fun member => f member.2).sum ≤
      (members.map fun member => f member.2).sum + f value
  | [] => by simp [Members.put]
  | (k, v) :: rest => by
    have hrest := sum_put_le f key value rest
    rw [Members.put]
    split
    · simp only [List.map_cons, List.sum_cons]
      omega
    · simp only [List.map_cons, List.sum_cons]
      omega

theorem sum_ofList_le (f : α → Nat) (entries : List (String × α)) :
    ((Members.ofList entries).map fun member => f member.2).sum ≤
      (entries.map fun entry => f entry.2).sum := by
  have hfold (members : Members α) : ((entries.foldl
      (fun members entry => Members.put members entry.1 entry.2) members).map
        fun member => f member.2).sum ≤
      (members.map fun member => f member.2).sum + (entries.map fun entry => f entry.2).sum := by
    induction entries generalizing members with
    | nil => simp
    | cons entry entries ih =>
      have hput := sum_put_le f entry.1 entry.2 members
      have hrest := ih (members.put entry.1 entry.2)
      rw [List.foldl_cons, List.map_cons, List.sum_cons]
      omega
  have hall := hfold []
  rw [List.map_nil, List.sum_nil, Nat.zero_add] at hall
  exact hall

/-- The members of an object cost what their values do. -/
theorem Costs.sum_members (h : Costs d f) {m : Mode} {members : List (Key × Node)}
    {entries : List (String × α)} (hentries : members.mapM (entry d m) = .ok entries) :
    (entries.map fun entry => f entry.2).sum ≤ membersWeight members := by
  replace hentries := Sql.forall₂_of_mapM_ok hentries
  induction hentries with
  | nil => exact Nat.zero_le _
  | cons hentry _ ih =>
    obtain ⟨key, -, hentry⟩ := bind_eq_ok_iff.1 hentry
    obtain ⟨value, hvalue, hentry⟩ := bind_eq_ok_iff.1 hentry
    cases hentry
    have hfirst := h _ _ _ hvalue
    rw [List.map_cons, List.sum_cons, membersWeight]
    dsimp only
    omega

theorem Costs.members (h : Costs d f) :
    Costs (members d) fun ms => (ms.map fun member => f member.2).sum := by
  intro m node ms hms
  obtain ⟨entries, hentries, rfl⟩ := map_eq_ok_iff.1 hms
  refine (sum_ofList_le f entries).trans ?_
  cases node with
  | obj members ending =>
    obtain ⟨values, hvalues, hentries⟩ := bind_eq_ok_iff.1 hentries
    obtain ⟨-, -, hpure⟩ := bind_eq_ok_iff.1 hentries
    cases hpure
    exact (h.sum_members hvalues).trans (Nat.le_max_right _ _)
  | _ => cases hentries

end Decode

/-! ### Records -/

/-- A member costs at most one more than its value weighs, and nothing if it is not there. -/
structure Slot.Costs {α : Type} (slot : Slot α) (cost : α → Nat) : Prop where
  decode : ∀ m node a, slot.decode m node = .ok a → cost a ≤ node.weight + 1
  absent : ∀ a ∈ slot.absent, cost a = 0
  unwritten : ∀ a ∈ slot.unwritten, cost a = 0

namespace Slot

variable {α : Type} {d : Decoder α} {f : α → Nat}

/-- A member that has to be there has its mark. -/
theorem costs_required (name : String) (h : Decode.Costs d f) :
    (required name d).Costs fun a => f a + 1 where
  decode m node a ha := Nat.succ_le_succ (h m node a ha)
  absent a ha := by cases ha
  unwritten a ha := by cases ha

theorem costs_withDefault (name : String) {standard : α} (h : Decode.Costs d f)
    (hstandard : f standard = 0) : (withDefault name d standard).Costs f where
  decode m node a ha := (h m node a ha).trans (Nat.le_succ _)
  absent a ha := by
    cases ha
    exact hstandard
  unwritten a ha := by
    cases ha
    exact hstandard

/-- A member that may be null has its mark if it is not. -/
theorem costs_optional (name : String) (h : Decode.Costs d f) :
    (optional name d).Costs fun o => o.elim 0 fun a => f a + 1 where
  decode m node o ho := by
    have hvalue := h.nullable m node o ho
    cases o with
    | none => exact Nat.zero_le _
    | some a => exact Nat.succ_le_succ hvalue
  absent a ha := by
    cases ha
    rfl
  unwritten a ha := by
    cases ha
    rfl

theorem costs_zero {slot : Slot α} : slot.Costs fun _ => 0 :=
  ⟨fun _ _ _ _ => Nat.zero_le _, fun _ _ => rfl, fun _ _ => rfl⟩

end Slot

namespace Layout

/-- The costs of a record's members add up: of all of them, and of those met so far. -/
inductive Costs : {αs : List Type} → Layout αs → (Values αs → Nat) → (Draft αs → Nat) → Prop
  | nil : Costs .nil (fun _ => 0) (fun _ => 0)
  | cons {α : Type} {αs : List Type} {slot : Slot α} {rest : Layout αs} {f : α → Nat}
      {cost : Values αs → Nat} {met : Draft αs → Nat} (h : slot.Costs f) (t : Costs rest cost met) :
      Costs (.cons slot rest) (fun values => f values.1 + cost values.2)
        (fun draft => draft.1.elim 0 f + met draft.2)

variable {αs : List Type} {layout : Layout αs} {cost : Values αs → Nat} {met : Draft αs → Nat}
  {m : Mode}

theorem Costs.blank (h : layout.Costs cost met) : met layout.blank = 0 := by
  induction h with
  | nil => rfl
  | cons _ _ ih => simpa [Layout.blank] using ih

theorem Costs.put (h : layout.Costs cost met) {key : String} {node : Node} {draft draft' : Draft αs}
    (hput : layout.put m key node draft = .ok draft') :
    met draft' ≤ met draft + (node.weight + 1) := by
  induction h with
  | nil => exact Nat.zero_le _
  | cons hslot _ ih =>
    obtain ⟨value, draft⟩ := draft
    obtain ⟨value', draft'⟩ := draft'
    rcases put_cons_ok_iff.1 hput with ⟨-, rfl, rfl, a, ha, rfl⟩ | ⟨-, rfl, hrest⟩
    · have hvalue := hslot.decode m node a ha
      simp only [Option.elim_some, Option.elim_none]
      omega
    · have hothers := ih hrest
      dsimp only
      omega

theorem Costs.putAll (h : layout.Costs cost met) {members : List (Key × Node)}
    {draft draft' : Draft αs} (hput : layout.putAll m members draft = .ok draft') :
    met draft' ≤ met draft + membersWeight members := by
  induction members generalizing draft with
  | nil =>
    cases hput
    exact Nat.le_add_right _ _
  | cons member members ih =>
    obtain ⟨-, next, hnext, hrest⟩ := putAll_cons_ok_iff.1 hput
    have hfirst := h.put hnext
    have hothers := ih hrest
    obtain ⟨key, node⟩ := member
    rw [membersWeight]
    dsimp only at hfirst
    omega

theorem Costs.finish (h : layout.Costs cost met) {draft : Draft αs} {values : Values αs}
    (hfinish : layout.finish draft = .ok values) : cost values = met draft := by
  induction h with
  | nil => rfl
  | cons hslot _ ih =>
    obtain ⟨value, draft⟩ := draft
    rw [Layout.finish] at hfinish
    split at hfinish
    next a ha =>
      obtain ⟨others, hothers, hvalues⟩ := bind_eq_ok_iff.1 hfinish
      cases hvalues
      have hrest := ih hothers
      cases value with
      | none =>
        -- a member that was not met has its default, for which no symbol pays
        have hnothing := hslot.absent a ha
        simp only [Option.elim_none]
        omega
      | some b =>
        cases ha
        simp only [Option.elim_some]
        omega
    next => cases hfinish

theorem Costs.ofMembers (h : layout.Costs cost met) {members : List (Key × Node)} {ending : Ending}
    {values : Values αs} (hvalues : layout.ofMembers m members ending = .ok values) :
    cost values ≤ membersWeight members := by
  obtain ⟨draft, hdraft, hvalues⟩ := bind_eq_ok_iff.1 hvalues
  obtain ⟨-, -, hfinish⟩ := bind_eq_ok_iff.1 hvalues
  have hmet := h.putAll hdraft
  rw [h.blank, Nat.zero_add] at hmet
  exact (h.finish hfinish).trans_le hmet

theorem Costs.ofItems (h : layout.Costs cost met) {description : String} {total count : Nat}
    {items : List Node} {starts : List Place} {ending : Ending} {values : Values αs}
    (hvalues : layout.ofItems description total m count items starts ending = .ok values) :
    cost values ≤ itemsWeight items := by
  induction h generalizing count items starts with
  | nil => exact Nat.zero_le _
  | cons hslot _ ih =>
    cases items with
    | cons item items =>
      obtain ⟨a, ha, hvalues⟩ := bind_eq_ok_iff.1 hvalues
      obtain ⟨others, hothers, hpure⟩ := bind_eq_ok_iff.1 hvalues
      cases hpure
      have hfirst := hslot.decode m item a ha
      have hrest := ih hothers
      rw [itemsWeight]
      dsimp only
      omega
    | nil =>
      obtain ⟨-, -, hvalues⟩ := bind_eq_ok_iff.1 hvalues
      split at hvalues
      next a ha =>
        obtain ⟨others, hothers, hpure⟩ := bind_eq_ok_iff.1 hvalues
        cases hpure
        have hnothing := hslot.unwritten a ha
        have hrest := ih hothers
        dsimp only
        omega
      next => cases hvalues

end Layout

namespace Decode

variable {α : Type} {f : α → Nat}

/-- A record costs what its members do, and one for its bracket if it has none. -/
theorem costs_record {αs : List Type} (name : String) {layout : Layout αs} {make : Values αs → α}
    {cost : Values αs → Nat} {met : Draft αs → Nat} (h : layout.Costs cost met)
    (hmake : ∀ values, f (make values) ≤ max 1 (cost values)) : Costs (record name layout make) f := by
  intro m node a ha
  cases node with
  | obj members ending =>
    obtain ⟨values, hvalues, rfl⟩ := map_eq_ok_iff.1 ha
    exact (hmake values).trans (max_le_max (Nat.le_refl _) (h.ofMembers hvalues))
  | arr items starts ending =>
    obtain ⟨values, hvalues, rfl⟩ := map_eq_ok_iff.1 ha
    exact (hmake values).trans (max_le_max (Nat.le_refl _) (h.ofItems hvalues))
  | _ => cases ha

end Decode

/-! ### Tagged choices -/

/-- What an alternative makes costs no more than its content weighs. -/
structure Alternative.Costs {α : Type} (a : Alternative α) (cost : α → Nat) : Prop where
  ofMembers : ∀ members b, a.ofMembers members = .ok b → cost b ≤ membersWeight members
  ofItems : ∀ items b, a.ofItems items = .ok b → cost b ≤ itemsWeight items

theorem Alternative.costs_record {α : Type} {f : α → Nat} {αs : List Type} (tag name : String)
    {layout : Layout αs} {make : Values αs → α} {cost : Values αs → Nat} {met : Draft αs → Nat}
    (h : layout.Costs cost met) (hmake : ∀ values, f (make values) ≤ cost values) :
    (Alternative.record tag name layout make).Costs f where
  ofMembers members b hb := by
    obtain ⟨values, hvalues, rfl⟩ := map_eq_ok_iff.1 hb
    exact (hmake values).trans (h.ofMembers hvalues)
  ofItems items b hb := by
    obtain ⟨values, hvalues, rfl⟩ := map_eq_ok_iff.1 hb
    exact (hmake values).trans (h.ofItems hvalues)

theorem Node.membersWeight_filter_le (p : Key × Node → Bool) (members : List (Key × Node)) :
    membersWeight (members.filter p) ≤ membersWeight members := by
  induction members with
  | nil => exact Nat.le_refl _
  | cons member members ih =>
    rw [List.filter_cons]
    split
    · rw [membersWeight, membersWeight]
      omega
    · rw [membersWeight]
      omega

/-- The tag is on top of what the content weighs. -/
theorem Decode.costs_tagged {α : Type} {f : α → Nat} (name : String)
    {alternatives : List (Alternative α)} (h : ∀ a ∈ alternatives, a.Costs f) :
    Decode.Costs (tagged name alternatives) f := by
  intro m node b hb
  cases node with
  | obj members ending =>
    obtain ⟨⟨found, others⟩, huntag, hb⟩ := bind_eq_ok_iff.1 hb
    obtain ⟨-, -, hb⟩ := bind_eq_ok_iff.1 hb
    obtain ⟨-, hsays, -, rfl⟩ := Alternative.untag_ok_iff.1 huntag
    cases found with
    | none => cases hb
    | some a =>
      obtain ⟨tag, -, hselect⟩ := Alternative.says_some_iff.1 hsays
      have hcost := (h a (Alternative.mem_of_select hselect)).ofMembers _ b hb
      exact (hcost.trans (Node.membersWeight_filter_le _ members)).trans (Nat.le_max_right _ _)
  | arr items starts ending =>
    cases items with
    | nil =>
      obtain ⟨-, -, hb⟩ := bind_eq_ok_iff.1 hb
      cases hb
    | cons first rest =>
      obtain ⟨a, hselect, hb⟩ := bind_eq_ok_iff.1 hb
      obtain ⟨-, -, hb⟩ := bind_eq_ok_iff.1 hb
      obtain ⟨-, -, hb⟩ := bind_eq_ok_iff.1 hb
      have hcost := (h a (Alternative.mem_of_select hselect)).ofItems rest b hb
      refine hcost.trans (Nat.le_trans ?_ (Nat.le_max_right _ _))
      rw [itemsWeight]
      omega
  | _ => cases hb

end DataAgent
