import DataAgent.Proofs.Json.Edits
import Mathlib

/-!
# Proofs — Json — Keeping

A decoder keeps to a form (`Decode.Keeps`) when an edit of a text of that form does not change what it
returns. There is one rule for each way to build a decoder, for a text that is decoded as it is read and
for one that is decoded out of content.

A record takes its members one by one, and taking two of them commutes (`Layout.put_comm`), so their
order does not matter; a member that is not asked for leaves no trace (`Layout.Matches.put_unknown`);
and a field takes its value under each of its names (`Layout.Matches.put_field`). A tagged choice takes
its tag from wherever it stands, and an edit leaves it there and edits the other members at most
(`MembersEdit.untag`).
-/

namespace DataAgent

variable {κ : Type}

namespace Decode

/-- Edits of a text of the form do not change what the decoder returns. -/
def Keeps {α : Type} (shape : κ → Shape κ) (f : Form κ) (d : Decoder α) : Prop :=
  ∀ (m : Mode) {level : Nat} {c c' : Spelling}, Edit shape level f c c' →
    Refines (d m (c.node level)) (d m (c'.node level))

/-- Neither places nor edits of a text of the form change what the decoder returns. -/
structure Steady {α : Type} (shape : κ → Shape κ) (f : Form κ) (d : Decoder α) : Prop where
  blind : Blind d
  keeps : Keeps shape f d

end Decode

/-! ### Records -/

namespace Layout

/-- The members of a record are those of a shape, in order, and each is steady in its form. -/
inductive Matches (shape : κ → Shape κ) : {αs : List Type} → Layout αs → List (FieldForm κ) → Prop
  | nil : Matches shape .nil []
  | cons {α : Type} {αs : List Type} {slot : Slot α} {rest : Layout αs} {field : FieldForm κ}
      {fields : List (FieldForm κ)} (hkeys : slot.name :: slot.aliases = field.keys)
      (hslot : Decode.Steady shape field.form slot.decode) (t : Matches shape rest fields) :
      Matches shape (.cons slot rest) (field :: fields)

theorem put_cons_ok_iff {α : Type} {αs : List Type} {slot : Slot α} {rest : Layout αs} {m : Mode}
    {key : String} {node : Node} {value value' : Option α} {draft draft' : Draft αs} :
    (Layout.cons slot rest).put m key node (value, draft) = .ok (value', draft') ↔
      (key ∈ slot.name :: slot.aliases ∧ value = none ∧ draft' = draft ∧
        ∃ a, slot.decode m node = .ok a ∧ value' = some a) ∨
      (key ∉ slot.name :: slot.aliases ∧ value' = value ∧ rest.put m key node draft = .ok draft') := by
  by_cases hkey : key ∈ slot.name :: slot.aliases
  · rw [put_of_mem hkey]
    cases value with
    | none =>
      simp only [Option.elim_none, map_eq_ok_iff, Prod.mk.injEq, hkey, not_true_eq_false, true_and,
        false_and, or_false]
      constructor
      · rintro ⟨a, ha, rfl, rfl⟩
        exact ⟨rfl, a, ha, rfl⟩
      · rintro ⟨rfl, a, ha, rfl⟩
        exact ⟨a, ha, rfl, rfl⟩
    | some a => simp [hkey]
  · rw [put_of_notMem hkey]
    simp only [map_eq_ok_iff, Prod.mk.injEq, hkey, not_false_eq_true, false_and, false_or, true_and]
    constructor
    · rintro ⟨draft, hput, rfl, rfl⟩
      exact ⟨rfl, hput⟩
    · rintro ⟨rfl, hput⟩
      exact ⟨draft', hput, rfl, rfl⟩

section

variable {αs : List Type} {layout : Layout αs} {m : Mode}

/-- Two members may be taken in either order. -/
theorem put_comm {key key' : String} {node node' : Node} {draft draft₁ draft₂ : Draft αs}
    (h₁ : layout.put m key node draft = .ok draft₁) (h₂ : layout.put m key' node' draft₁ = .ok draft₂) :
    ∃ draft₁', layout.put m key' node' draft = .ok draft₁' ∧
      layout.put m key node draft₁' = .ok draft₂ := by
  induction layout with
  | nil => exact ⟨(), h₂, h₁⟩
  | cons slot rest ih =>
    obtain ⟨value, draft⟩ := draft
    obtain ⟨value₁, draft₁⟩ := draft₁
    obtain ⟨value₂, draft₂⟩ := draft₂
    rcases put_cons_ok_iff.1 h₁ with ⟨hkey, hnone, rfl, a, ha, rfl⟩ | ⟨hkey, rfl, hput⟩ <;>
      rcases put_cons_ok_iff.1 h₂ with ⟨hkey', hnone', rfl, a', ha', rfl⟩ | ⟨hkey', rfl, hput'⟩
    · cases hnone'
    · exact ⟨(_, _), put_cons_ok_iff.2 (.inr ⟨hkey', rfl, hput'⟩),
        put_cons_ok_iff.2 (.inl ⟨hkey, hnone, rfl, a, ha, rfl⟩)⟩
    · exact ⟨(_, _), put_cons_ok_iff.2 (.inl ⟨hkey', hnone', rfl, a', ha', rfl⟩),
        put_cons_ok_iff.2 (.inr ⟨hkey, rfl, hput⟩)⟩
    · obtain ⟨next, hfirst, hsecond⟩ := ih hput hput'
      exact ⟨(_, next), put_cons_ok_iff.2 (.inr ⟨hkey', rfl, hfirst⟩),
        put_cons_ok_iff.2 (.inr ⟨hkey, rfl, hsecond⟩)⟩

theorem putAll_cons_ok_iff {member : Key × Node} {members : List (Key × Node)}
    {draft draft' : Draft αs} :
    layout.putAll m (member :: members) draft = .ok draft' ↔
      member.1.flaw = none ∧ ∃ next, layout.put m member.1.text member.2 draft = .ok next ∧
        layout.putAll m members next = .ok draft' := by
  obtain ⟨⟨text, flaw⟩, node⟩ := member
  cases flaw with
  | some f =>
    constructor
    · intro h
      cases h
    · rintro ⟨h, -⟩
      cases h
  | none => simp [putAll_member, bind_eq_ok_iff]

theorem putAll_append_ok_iff {before after : List (Key × Node)} {draft draft' : Draft αs} :
    layout.putAll m (before ++ after) draft = .ok draft' ↔
      ∃ next, layout.putAll m before draft = .ok next ∧ layout.putAll m after next = .ok draft' := by
  induction before generalizing draft with
  | nil => simp [putAll]
  | cons member before ih =>
    simp only [List.cons_append, putAll_cons_ok_iff, ih]
    constructor
    · rintro ⟨hflaw, next, hput, middle, hbefore, hafter⟩
      exact ⟨middle, ⟨hflaw, next, hput, hbefore⟩, hafter⟩
    · rintro ⟨middle, ⟨hflaw, next, hput, hbefore⟩, hafter⟩
      exact ⟨hflaw, next, hput, middle, hbefore, hafter⟩

/-- The members of an object may stand in any order. -/
theorem putAll_perm {members members' : List (Key × Node)} (h : members.Perm members')
    (draft : Draft αs) : Refines (layout.putAll m members draft) (layout.putAll m members' draft) := by
  induction h generalizing draft with
  | nil => exact .refl _
  | cons member _ ih =>
    intro draft' h
    obtain ⟨hflaw, next, hput, hrest⟩ := putAll_cons_ok_iff.1 h
    exact putAll_cons_ok_iff.2 ⟨hflaw, next, hput, ih next draft' hrest⟩
  | swap member other rest =>
    intro draft' h
    obtain ⟨hother, next, hput, h⟩ := putAll_cons_ok_iff.1 h
    obtain ⟨hmember, after, hput', hrest⟩ := putAll_cons_ok_iff.1 h
    obtain ⟨next', hfirst, hsecond⟩ := put_comm hput hput'
    exact putAll_cons_ok_iff.2 ⟨hmember, next', hfirst,
      putAll_cons_ok_iff.2 ⟨hother, after, hsecond, hrest⟩⟩
  | trans _ _ ih ih' => exact (ih draft).trans (ih' draft)

end

section

variable {shape : κ → Shape κ} {αs : List Type} {layout : Layout αs} {fields : List (FieldForm κ)}
  {m : Mode}

/-- A member that is not asked for leaves no trace, if it can be skipped. -/
theorem Matches.put_unknown (h : layout.Matches shape fields) {key : String}
    (hkey : key ∉ FieldForm.names fields) {node : Node} (hnode : node.skip = .ok ()) (draft : Draft αs) :
    layout.put m key node draft = .ok draft := by
  induction h with
  | nil =>
    cases m with
    | direct =>
      show DecodeError.lift node.skip = _
      rw [hnode]
      rfl
    | buffered => rfl
  | cons hkeys _ _ ih =>
    obtain ⟨value, draft⟩ := draft
    simp only [FieldForm.names, List.flatMap_cons, List.mem_append, not_or] at hkey
    exact put_cons_ok_iff.2 (.inr ⟨hkeys ▸ hkey.1, rfl, ih hkey.2 draft⟩)

/-- A field takes its value under each of its names, and one that decodes alike just as well. -/
theorem Matches.put_field (h : layout.Matches shape fields) (hnodup : (FieldForm.names fields).Nodup)
    {field : FieldForm κ} (hfield : field ∈ fields) {key key' : String} (hkey : key ∈ field.keys)
    (hkey' : key' ∈ field.keys) {node node' : Node}
    (hnode : ∀ {α : Type} {d : Decoder α}, Decode.Keeps shape field.form d →
      Refines (d m node) (d m node')) (draft : Draft αs) :
    Refines (layout.put m key node draft) (layout.put m key' node' draft) := by
  induction h with
  | nil => cases hfield
  | @cons _ _ slot rest first fields hkeys hslot _ ih =>
    intro after hput
    obtain ⟨value, draft⟩ := draft
    obtain ⟨value', draft'⟩ := after
    simp only [FieldForm.names, List.flatMap_cons, List.nodup_append] at hnodup
    obtain ⟨-, hnodup, hdisjoint⟩ := hnodup
    rcases List.mem_cons.1 hfield with rfl | hfield
    · -- This is the field.
      rw [← hkeys] at hkey hkey'
      rcases put_cons_ok_iff.1 hput with ⟨-, hnone, hdraft, a, ha, hvalue⟩ | ⟨hnot, -⟩
      · exact put_cons_ok_iff.2 (.inl ⟨hkey', hnone, hdraft, a, hnode hslot.keeps a ha, hvalue⟩)
      · exact absurd hkey hnot
    · -- The names of another one are none of this.
      have hother : ∀ {k : String}, k ∈ field.keys → k ∉ slot.name :: slot.aliases := by
        intro k hk hmem
        rw [hkeys] at hmem
        exact hdisjoint k hmem k (List.mem_flatMap.2 ⟨field, hfield, hk⟩) rfl
      rcases put_cons_ok_iff.1 hput with ⟨hmem, -⟩ | ⟨-, hvalue, hput⟩
      · exact absurd hmem (hother hkey)
      · exact put_cons_ok_iff.2 (.inr ⟨hother hkey', hvalue, ih hnodup hfield draft draft' hput⟩)

end

end Layout

theorem forall₂_replace {α : Type} {R : α → α → Prop} (hrefl : ∀ a, R a a) (before after : List α)
    {a a' : α} (h : R a a') : List.Forall₂ R (before ++ a :: after) (before ++ a' :: after) :=
  List.rel_append (List.forall₂_same.2 fun b _ => hrefl b)
    (.cons h (List.forall₂_same.2 fun b _ => hrefl b))

/-- Edits of the members of an object do not change what is made of them. -/
def KeepsMembers {α : Type} (shape : κ → Shape κ) (fields : List (FieldForm κ))
    (f : List (Key × Node) → Except DecodeError α) : Prop :=
  ∀ {level : Nat} {ms ms' : List (Label × Spelling)}, MembersEdit shape level fields ms ms' →
    Refines (f (Spelling.memberNodes level ms)) (f (Spelling.memberNodes level ms'))

/-- Edits in the items of an array do not change what is made of them. -/
def KeepsItems {α : Type} (shape : κ → Shape κ) (fields : List (FieldForm κ))
    (f : List Node → Except DecodeError α) : Prop :=
  ∀ {level : Nat} (before after : List (Margin × Spelling)) (margin : Margin) {v v' : Spelling}
    {field : FieldForm κ}, fields[before.length]? = some field → Edit shape level field.form v v' →
    Refines (f (Spelling.itemNodes level (before ++ (margin, v) :: after)))
      (f (Spelling.itemNodes level (before ++ (margin, v') :: after)))

namespace Layout

variable {shape : κ → Shape κ} {αs : List Type} {layout : Layout αs} {fields : List (FieldForm κ)}

theorem Matches.blind (h : layout.Matches shape fields) : layout.Blind := by
  induction h with
  | nil => exact .nil
  | cons _ hslot _ ih => exact .cons hslot.blind ih

theorem Matches.putAll (h : layout.Matches shape fields) (hnodup : (FieldForm.names fields).Nodup)
    (m : Mode) {level : Nat} {ms ms' : List (Label × Spelling)}
    (e : MembersEdit shape level fields ms ms')
    (draft : Draft αs) :
    Refines (layout.putAll m (Spelling.memberNodes level ms) draft)
      (layout.putAll m (Spelling.memberNodes level ms') draft) := by
  intro draft' hputAll
  simp only [Spelling.memberNodes_eq] at hputAll ⊢
  cases e with
  | permute hperm => exact putAll_perm (hperm.map _) draft draft' hputAll
  | insert before after hlabel hkey hv =>
    rw [List.map_append] at hputAll
    obtain ⟨next, hbefore, hafter⟩ := putAll_append_ok_iff.1 hputAll
    rw [List.map_append, List.map_cons]
    refine putAll_append_ok_iff.2 ⟨next, hbefore, putAll_cons_ok_iff.2 ⟨?_, next, ?_, hafter⟩⟩
    · exact Spelling.flaw_keyOf.2 hlabel.1
    · rw [Spelling.keyOf_eq hlabel]
      exact h.put_unknown hkey (Spelling.skip_node _ level) next
  | rename before after v hfield hlabel hkey hlabel' hkey' =>
    rw [List.map_append, List.map_cons, Spelling.keyOf_eq hlabel] at hputAll
    rw [List.map_append, List.map_cons, Spelling.keyOf_eq hlabel']
    obtain ⟨next, hbefore, hrest⟩ := putAll_append_ok_iff.1 hputAll
    obtain ⟨-, after, hput, hafter⟩ := putAll_cons_ok_iff.1 hrest
    have hput' := h.put_field hnodup hfield hkey hkey' (fun _ => .refl _) next after hput
    exact putAll_append_ok_iff.2 ⟨next, hbefore, putAll_cons_ok_iff.2 ⟨rfl, after, hput', hafter⟩⟩
  | value before after hfield hlabel hkey e =>
    rw [List.map_append, List.map_cons, Spelling.keyOf_eq hlabel] at hputAll ⊢
    obtain ⟨next, hbefore, hrest⟩ := putAll_append_ok_iff.1 hputAll
    obtain ⟨-, after, hput, hafter⟩ := putAll_cons_ok_iff.1 hrest
    have hput' := h.put_field hnodup hfield hkey hkey (fun hd => hd m e) next after hput
    exact putAll_append_ok_iff.2 ⟨next, hbefore, putAll_cons_ok_iff.2 ⟨rfl, after, hput', hafter⟩⟩

theorem Matches.ofMembers (h : layout.Matches shape fields) (hnodup : (FieldForm.names fields).Nodup)
    (m : Mode) : KeepsMembers shape fields fun members => layout.ofMembers m members .closed :=
  fun e => (h.putAll hnodup m e layout.blank).bind fun _ _ => .refl _

theorem Matches.ofItems (h : layout.Matches shape fields) (description : String) (total : Nat) (m : Mode)
    (count : Nat) :
    KeepsItems shape fields fun items => layout.ofItems description total m count items [] .closed := by
  intro level before after margin v v' field hfield e
  induction h generalizing count before with
  | nil => simp at hfield
  | cons _ hslot _ ih =>
    cases before with
    | nil =>
      cases hfield
      exact (hslot.keeps m e).bind fun _ _ => .refl _
    | cons item before =>
      exact (Refines.refl _).bind fun _ _ => (ih (count + 1) before hfield).bind fun _ _ => .refl _

end Layout

namespace Decode

variable {α : Type} {shape : κ → Shape κ} {f : Form κ}

theorem Blind.steady {d : Decoder α} (h : Blind d) : Steady shape .leaf d where
  blind := h
  keeps := by
    intro m level c c' e
    cases e

theorem Steady.nullable {d : Decoder α} (hd : Steady shape f d) : Steady shape f (nullable d) where
  blind := hd.blind.nullable
  keeps := by
    intro m level c c' e
    have hvalue := (hd.keeps m e).map some
    cases e <;> exact hvalue

theorem Steady.list {d : Decoder α} (hd : Steady shape f d) : Steady shape (.list f) (list d) where
  blind := hd.blind.list
  keeps := by
    intro m level c c' e
    cases e with
    | @item level _ before after margin v v' last e =>
      refine Refines.bind (.mapM ?_) fun _ _ => .refl _
      simp only [Spelling.itemNodes_eq, List.map_append, List.map_cons]
      exact forall₂_replace (fun _ => .refl _) _ _ (hd.keeps m e)

theorem Steady.members {d : Decoder α} (hd : Steady shape f d) : Steady shape (.map f) (members d) where
  blind := hd.blind.members
  keeps := by
    intro m level c c' e
    cases e with
    | @entry level _ before after label v v' last e =>
      refine Refines.map _ (Refines.bind (.mapM ?_) fun _ _ => .refl _)
      simp only [Spelling.memberNodes_eq, List.map_append, List.map_cons]
      refine forall₂_replace (fun _ => .refl _) _ _ ?_
      exact (Refines.refl _).bind fun _ _ => (hd.keeps m e).bind fun _ _ => .refl _

theorem steady_record {k : κ} {fields : List (FieldForm κ)} (hk : shape k = .record fields)
    {αs : List Type} {layout : Layout αs} (h : layout.Matches shape fields)
    (hnodup : (FieldForm.names fields).Nodup) (name : String) (make : Values αs → α) :
    Steady shape (.kind k) (record name layout make) where
  blind := blind_record name h.blind make
  keeps := by
    intro m level c c' e
    cases e with
    | members last hfields e =>
      cases hfields with
      | record hk' =>
        cases hk.symm.trans hk'
        exact (h.ofMembers hnodup m e).map make
      | tagged hk' => cases hk.symm.trans hk'
    | @position level _ _ _ before after margin v v' last hitems hfield e =>
      generalize hxs : before ++ (margin, v) :: after = xs at hitems
      cases hitems with
      | record hk' =>
        cases hk.symm.trans hk'
        subst hxs
        exact (h.ofItems _ _ m 0 before after margin hfield e).map make
      | tagged hk' => cases hk.symm.trans hk'

end Decode

/-! ### Tagged choices -/

namespace Spelling

/-- The member is the tag. -/
def isTag (member : Label × Spelling) : Bool := member.1.key.chars = "type"

theorem filter_memberNodes (level : Nat) (ms : List (Label × Spelling)) :
    (memberNodes level ms).filter Alternative.isTag = memberNodes level (ms.filter isTag) := by
  simp only [memberNodes_eq, List.filter_map]
  rfl

theorem filter_not_memberNodes (level : Nat) (ms : List (Label × Spelling)) :
    (memberNodes level ms).filter (fun member => !Alternative.isTag member) =
      memberNodes level (ms.filter fun member => !isTag member) := by
  simp only [memberNodes_eq, List.filter_map]
  rfl

theorem isTag_of_spells {label : Label} {key : String} (h : label.key.Spells key) (v : Spelling) :
    isTag (label, v) = decide (key = "type") := by
  simp only [isTag, h.2]

theorem isTag_of_ne {label : Label} {key : String} (h : label.key.Spells key) (hkey : key ≠ "type")
    (v : Spelling) : isTag (label, v) = false :=
  (isTag_of_spells h v).trans (decide_eq_false hkey)

end Spelling

namespace MembersEdit

variable {shape : κ → Shape κ} {level : Nat} {fields : List (FieldForm κ)}
  {ms ms' : List (Label × Spelling)}

/-- An edit of the members of a tagged choice leaves the tag and edits the others at most. -/
theorem untag (e : MembersEdit shape level (.tag :: fields) ms ms')
    (hfree : "type" ∉ FieldForm.names fields) :
    (Spelling.memberNodes level (ms.filter Spelling.isTag)).Perm
        (Spelling.memberNodes level (ms'.filter Spelling.isTag)) ∧
      (ms.filter (fun member => !Spelling.isTag member) =
          ms'.filter (fun member => !Spelling.isTag member) ∨
        MembersEdit shape level fields (ms.filter fun member => !Spelling.isTag member)
          (ms'.filter fun member => !Spelling.isTag member)) := by
  have hother : ∀ {field : FieldForm κ} {key : String}, field ∈ fields → key ∈ field.keys →
      key ≠ "type" := by
    rintro field _ hfield hkey rfl
    exact hfree (List.mem_flatMap.2 ⟨field, hfield, hkey⟩)
  cases e with
  | permute h =>
    refine ⟨?_, .inr (.permute (h.filter _))⟩
    rw [Spelling.memberNodes_eq, Spelling.memberNodes_eq]
    exact (h.filter _).map _
  | insert before after hlabel hkey hv =>
    simp only [FieldForm.names, List.flatMap_cons, List.mem_append, FieldForm.tag, List.mem_singleton,
      not_or] at hkey
    have htag := Spelling.isTag_of_ne hlabel hkey.1
    simp only [List.filter_append, List.filter_cons, htag, Bool.not_false, Bool.false_eq_true, if_true,
      if_false]
    exact ⟨.refl _, .inr (.insert _ _ hlabel hkey.2 hv)⟩
  | rename before after v hfield hlabel hkey hlabel' hkey' =>
    rcases List.mem_cons.1 hfield with rfl | hfield
    · -- The tag has one name.
      simp only [FieldForm.tag, List.mem_singleton] at hkey hkey'
      subst hkey hkey'
      have htag := Spelling.isTag_of_spells hlabel v
      have htag' := Spelling.isTag_of_spells hlabel' v
      simp only [List.filter_append, List.filter_cons, htag, htag', decide_true, Bool.not_true,
        Bool.false_eq_true, if_true, if_false]
      refine ⟨?_, .inl trivial⟩
      simp only [Spelling.memberNodes_eq, List.map_append, List.map_cons, Spelling.keyOf_eq hlabel,
        Spelling.keyOf_eq hlabel']
      exact .refl _
    · have htag := Spelling.isTag_of_ne hlabel (hother hfield hkey) v
      have htag' := Spelling.isTag_of_ne hlabel' (hother hfield hkey') v
      simp only [List.filter_append, List.filter_cons, htag, htag', Bool.not_false, Bool.false_eq_true,
        if_true, if_false]
      exact ⟨.refl _, .inr (.rename _ _ v hfield hlabel hkey hlabel' hkey')⟩
  | value before after hfield hlabel hkey e =>
    rcases List.mem_cons.1 hfield with rfl | hfield
    · cases e
    · have htag := Spelling.isTag_of_ne hlabel (hother hfield hkey)
      simp only [List.filter_append, List.filter_cons, htag, Bool.not_false, Bool.false_eq_true,
        if_true, if_false]
      exact ⟨.refl _, .inr (.value _ _ hfield hlabel hkey e)⟩

end MembersEdit

namespace Alternative

variable {α : Type} {shape : κ → Shape κ}

/-- The alternative is steady in the fields of a variant, none of which is called as the tag. -/
structure Steady (shape : κ → Shape κ) (fields : List (FieldForm κ)) (a : Alternative α) : Prop where
  blind : a.Blind
  free : "type" ∉ FieldForm.names fields
  ofMembers : KeepsMembers shape fields a.ofMembers
  ofItems : KeepsItems shape fields a.ofItems

theorem steady_unit (tag : String) (value : α) : (unit tag value).Steady shape [] where
  blind := blind_unit tag value
  free := by simp [FieldForm.names]
  ofMembers _ := .refl _
  ofItems _ _ _ _ _ _ hfield := by simp at hfield

theorem steady_record {fields : List (FieldForm κ)} (tag name : String) {αs : List Type}
    {layout : Layout αs} (h : layout.Matches shape fields)
    (hnodup : ("type" :: FieldForm.names fields).Nodup)
    (make : Values αs → α) : (record tag name layout make).Steady shape fields where
  blind := blind_record tag name h.blind make
  free := (List.nodup_cons.1 hnodup).1
  ofMembers e := (h.ofMembers (List.nodup_cons.1 hnodup).2 .buffered e).map make
  ofItems before after margin _ _ _ hfield e :=
    (h.ofItems _ _ .buffered 0 before after margin hfield e).map make

/-- The alternatives of a choice are the variants of its shape, in order. -/
def Match (shape : κ → Shape κ) (alternatives : List (Alternative α))
    (variants : List (String × List (FieldForm κ))) : Prop :=
  List.Forall₂ (fun a variant => a.tag = variant.1 ∧ a.Steady shape variant.2) alternatives variants

variable {alternatives : List (Alternative α)} {variants : List (String × List (FieldForm κ))}

theorem Match.find (h : Match shape alternatives variants) {name : String} {a : Alternative α}
    {variant : String × List (FieldForm κ)} (ha : alternatives.find? (fun a => a.tag = name) = some a)
    (hvariant : variants.find? (fun v => v.1 = name) = some variant) : a.Steady shape variant.2 := by
  induction h with
  | nil => cases ha
  | @cons first variant alternatives variants hfirst _ ih =>
    rw [List.find?_cons] at ha hvariant
    rw [hfirst.1] at ha
    by_cases hname : variant.1 = name
    · simp only [hname, decide_true, Option.some.injEq] at ha hvariant
      subst ha hvariant
      exact hfirst.2
    · simp only [hname, decide_false] at ha hvariant
      exact ih ha hvariant

theorem Match.get (h : Match shape alternatives variants) {i : Nat} {a : Alternative α}
    {variant : String × List (FieldForm κ)} (ha : alternatives[i]? = some a)
    (hvariant : variants[i]? = some variant) : a.Steady shape variant.2 := by
  induction h generalizing i with
  | nil => simp at ha
  | cons hfirst _ ih =>
    cases i with
    | zero =>
      simp only [List.getElem?_cons_zero, Option.some.injEq] at ha hvariant
      subst ha hvariant
      exact hfirst.2
    | succ i =>
      rw [List.getElem?_cons_succ] at ha hvariant
      exact ih ha hvariant

/-- The alternative that a tag selects keeps to the fields of the variant that the tag names. -/
theorem Match.select (h : Match shape alternatives variants) {v : Spelling} {fields : List (FieldForm κ)}
    (hv : v.Names variants fields) {m : Mode} {level : Nat} {a : Alternative α}
    (ha : select alternatives m (v.node level) = .ok a) : a.Steady shape fields := by
  cases hv with
  | @tag l name _ hl hfind =>
    have hnode : (Spelling.str l).node level = .str name := by
      simp [Spelling.node, hl.1, hl.2]
    rw [hnode] at ha
    cases hfound : alternatives.find? (fun a => a.tag = name) with
    | none => simp [Alternative.select, hfound] at ha
    | some b =>
      simp only [Alternative.select, hfound, Except.ok.injEq] at ha
      subst ha
      exact h.find hfound hfind
  | @position n i name _ hn hget =>
    have hnode : (Spelling.num n).node level = .num (.int i) := by
      simp [Spelling.node, hn]
    rw [hnode] at ha
    cases m with
    | direct => cases ha
    | buffered =>
      cases hfound : alternatives[i]? with
      | none => simp [Alternative.select, hfound] at ha
      | some b =>
        simp only [Alternative.select, hfound, Except.ok.injEq] at ha
        subst ha
        exact h.get hfound hget

theorem readContent_ok_iff {m : Mode} {c : Spelling} {level : Nat} :
    readContent m (c.node level) = .ok () ↔ (m = .direct → c.Sound level) := by
  cases m with
  | buffered => simp [readContent]
  | direct =>
    rw [Spelling.sound_iff]
    cases hjson : (c.node level).json with
    | error f => simp [readContent, DecodeError.lift, hjson]
    | ok j => simp [readContent, DecodeError.lift, hjson]

end Alternative

namespace Decode

variable {α : Type} {shape : κ → Shape κ} {alternatives : List (Alternative α)}
  {variants : List (String × List (FieldForm κ))}

/-- An edit of the members of an object, the tag among them or not, leaves its decoding as a tagged
choice. -/
theorem tagged_members (name : String) (h : Alternative.Match shape alternatives variants) (m : Mode)
    {level : Nat} {fields : List (FieldForm κ)} {ms ms' : List (Label × Spelling)} {label : Label}
    {v : Spelling} (hmem : (label, v) ∈ ms) (hlabel : label.key.Spells "type")
    (hv : v.Names variants fields) (e : MembersEdit shape level (.tag :: fields) ms ms') :
    Refines (tagged name alternatives m (.obj (Spelling.memberNodes level ms) .closed))
      (tagged name alternatives m (.obj (Spelling.memberNodes level ms') .closed)) := by
  intro b hb
  obtain ⟨hkeys, a, tag, htag, hselect, hcontent, hb⟩ := tagged_obj_ok_iff.1 hb
  rw [Spelling.filter_memberNodes] at htag
  rw [Spelling.filter_not_memberNodes] at hcontent hb
  -- There is one tag only, so it is the one in question.
  have hone : tag = (Spelling.keyOf label.key, v.node level) := by
    have hfilter : (label, v) ∈ ms.filter Spelling.isTag :=
      List.mem_filter.2 ⟨hmem, (Spelling.isTag_of_spells hlabel v).trans (decide_eq_true rfl)⟩
    have hnode := List.mem_map_of_mem (f := fun p => (Spelling.keyOf p.1.key, p.2.node level)) hfilter
    rw [← Spelling.memberNodes_eq, htag, List.mem_singleton] at hnode
    exact hnode.symm
  have hsteady : a.Steady shape fields := h.select hv (by rw [hone] at hselect; exact hselect)
  obtain ⟨htags, hothers⟩ := e.untag hsteady.free
  have hpaired : ∀ p ∈ ms, p.1.key.paired = true := by
    intro p hp
    rw [Spelling.memberNodes_eq] at hkeys
    exact Spelling.flaw_keyOf.1 (hkeys _ (List.mem_map_of_mem hp))
  refine tagged_obj_ok_iff.2 ⟨?_, a, tag, ?_, hselect, ?_⟩
  · intro p hp
    rw [Spelling.memberNodes_eq] at hp
    obtain ⟨q, hq, rfl⟩ := List.mem_map.1 hp
    exact Spelling.flaw_keyOf.2 (e.paired hpaired q hq)
  · rw [Spelling.filter_memberNodes]
    rw [htag] at htags
    exact List.perm_singleton.1 htags.symm
  · rw [Spelling.filter_not_memberNodes]
    rcases hothers with hothers | hothers
    · rw [← hothers]
      exact ⟨hcontent, hb⟩
    · refine ⟨?_, hsteady.ofMembers hothers b hb⟩
      -- What was read completely can be read completely after the edit.
      simp only [Spelling.memberNodes_eq, List.forall_mem_map, Alternative.readContent_ok_iff]
        at hcontent ⊢
      intro p hp hm
      have hsound := Spelling.soundMembers_iff.2 fun q hq =>
        ⟨hpaired q (List.mem_of_mem_filter hq), hcontent q hq hm⟩
      exact (Spelling.soundMembers_iff.1 (hothers.sound hsound) p hp).2

theorem steady_tagged {k : κ} (hk : shape k = .tagged variants)
    (h : Alternative.Match shape alternatives variants) (name : String) :
    Steady shape (.kind k) (tagged name alternatives) where
  blind := blind_tagged name
    (forall_mem_of_forall₂ h.flip (fun _ _ hmatch _ => hmatch.2.blind) fun _ _ => trivial)
  keeps := by
    intro m level c c' e
    cases e with
    | members last hfields e =>
      cases hfields with
      | record hk' => cases hk.symm.trans hk'
      | tagged hk' hmem hlabel hv =>
        cases hk.symm.trans hk'
        exact tagged_members name h m hmem hlabel hv e
    | @position level _ _ _ before after margin v v' last hitems hfield e =>
      generalize hxs : before ++ (margin, v) :: after = xs at hitems
      cases hitems with
      | record hk' => cases hk.symm.trans hk'
      | tagged hk' hv =>
        cases hk.symm.trans hk'
        cases before with
        | nil =>
          cases hfield
          cases e
        | cons item before =>
          rw [List.cons_append, List.cons.injEq] at hxs
          obtain ⟨rfl, rfl⟩ := hxs
          refine (Refines.refl _).bind fun a ha => ?_
          refine (Refines.forM ?_).bind fun _ _ => (Refines.refl _).bind fun _ _ => ?_
          · show List.Forall₂ _ (Spelling.itemNodes level (before ++ (margin, v) :: after))
              (Spelling.itemNodes level (before ++ (margin, v') :: after))
            simp only [Spelling.itemNodes_eq, List.map_append, List.map_cons]
            refine forall₂_replace (fun _ => .refl _) _ _ ?_
            rintro ⟨⟩ hcontent
            exact Alternative.readContent_ok_iff.2 fun hm =>
              e.sound (Alternative.readContent_ok_iff.1 hcontent hm)
          · exact (h.select hv ha).ofItems before after margin hfield e

end Decode

/-- Edits of a text do not change what it decodes to, be they many. -/
theorem Decode.Steady.decodeText {α : Type} {shape : κ → Shape κ} {f : Form κ} {d : Decoder α}
    (hd : Steady shape f d) {c c' : Spelling}
    (h : Relation.ReflTransGen (Edit shape Node.depthLimit f) c c') (before after : List Blank) :
    Refines (decodeText d (c.padded before after)) (decodeText d (c'.padded before after)) := by
  have hedits : Refines (d .direct (c.node Node.depthLimit)) (d .direct (c'.node Node.depthLimit)) := by
    induction h with
    | refl => exact .refl _
    | tail _ e ih => exact ih.trans (hd.keeps .direct e)
  obtain ⟨node, hnode, hdecode⟩ := decodeText_spelling d before after c
  obtain ⟨node', hnode', hdecode'⟩ := decodeText_spelling d before after c'
  rw [hdecode, hdecode']
  exact (hd.blind .direct hnode).trans (hedits.trans (hd.blind .direct hnode'.symm))

end DataAgent
