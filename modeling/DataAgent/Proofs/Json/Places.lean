import DataAgent.Proofs.Json.Decoding
import DataAgent.Proofs.Json.Spelling
import Mathlib

/-!
# Proofs — Json — Places

An outline notes the places of the text for the sake of messages. A decoder that succeeds has not
looked at them: of two outlines that are alike it makes the same value (`Decode.Blind`). There is one
rule for each way to build a decoder.

The errors do differ, so computations are compared by what they return (`Refines`).
-/

namespace DataAgent

/-- Whatever the first computation returns, the second returns. -/
def Refines {ε α : Type} (x y : Except ε α) : Prop := ∀ a, x = .ok a → y = .ok a

section

variable {ε α β γ : Type}

theorem bind_eq_ok_iff {x : Except ε α} {f : α → Except ε β} {b : β} :
    (x >>= f) = .ok b ↔ ∃ a, x = .ok a ∧ f a = .ok b := by
  cases x with
  | error e =>
    constructor
    · intro h
      cases h
    · rintro ⟨a, h, -⟩
      cases h
  | ok a =>
    constructor
    · exact fun h => ⟨a, rfl, h⟩
    · rintro ⟨_, ⟨⟩, h⟩
      exact h

theorem map_eq_ok_iff {x : Except ε α} {f : α → β} {b : β} :
    (f <$> x) = .ok b ↔ ∃ a, x = .ok a ∧ f a = b := by
  cases x with
  | error e =>
    constructor
    · intro h
      cases h
    · rintro ⟨a, h, -⟩
      cases h
  | ok a =>
    constructor
    · intro h
      cases h
      exact ⟨a, rfl, rfl⟩
    · rintro ⟨_, ⟨⟩, rfl⟩
      rfl

theorem forall_mem_of_forall₂ {R : α → β → Prop} {P : α → Prop} {Q : β → Prop} {xs : List α}
    {ys : List β} (h : List.Forall₂ R xs ys) (hR : ∀ x y, R x y → P x → Q y) (hxs : ∀ x ∈ xs, P x) :
    ∀ y ∈ ys, Q y := by
  induction h with
  | nil => simp
  | cons hxy _ ih =>
    rw [List.forall_mem_cons] at hxs ⊢
    exact ⟨hR _ _ hxy hxs.1, ih hxs.2⟩

end

namespace Refines

variable {ε α β γ : Type}

theorem refl (x : Except ε α) : Refines x x := fun _ h => h

theorem trans {x y z : Except ε α} (h : Refines x y) (h' : Refines y z) : Refines x z :=
  fun a ha => h' a (h a ha)

theorem error (e : ε) (y : Except ε α) : Refines (.error e) y := by
  intro a ha
  cases ha

theorem bind {x y : Except ε α} {f g : α → Except ε β} (h : Refines x y)
    (hf : ∀ a, x = .ok a → Refines (f a) (g a)) : Refines (x >>= f) (y >>= g) := by
  cases x with
  | error e => exact error e _
  | ok a =>
    rw [h a rfl]
    exact hf a rfl

theorem map {x y : Except ε α} (f : α → β) (h : Refines x y) : Refines (f <$> x) (f <$> y) := by
  cases x with
  | error e => exact error e _
  | ok a =>
    rw [h a rfl]
    exact refl _

theorem mapM {f : α → Except ε γ} {g : β → Except ε γ} {xs : List α} {ys : List β}
    (h : List.Forall₂ (fun x y => Refines (f x) (g y)) xs ys) : Refines (xs.mapM f) (ys.mapM g) := by
  induction h with
  | nil => exact refl _
  | cons hx _ ih =>
    rw [List.mapM_cons, List.mapM_cons]
    exact bind hx fun _ _ => bind ih fun _ _ => refl _

theorem forM {f : α → Except ε PUnit} {g : β → Except ε PUnit} {xs : List α} {ys : List β}
    (h : List.Forall₂ (fun x y => Refines (f x) (g y)) xs ys) : Refines (xs.forM f) (ys.forM g) := by
  induction h with
  | nil => exact refl _
  | cons hx _ ih => exact bind hx fun _ _ => ih

theorem lift {x y : Except Fault α} (h : Refines x y) :
    Refines (DecodeError.lift x) (DecodeError.lift y) := by
  cases x with
  | error f => exact error _ _
  | ok a =>
    rw [h a rfl]
    exact refl _

end Refines

/-! ### Documents -/

namespace Node

theorem refines_check {f f' : Option Fault} (h : f.isNone = f'.isNone) :
    Refines (Fault.check f) (Fault.check f') := by
  cases f <;> cases f' <;> simp at h
  · exact .refl _
  · exact .error _ _

mutual

theorem Alike.json : ∀ {node node' : Node}, Alike node node' → Refines node.json node'.json
  | _, _, .null | _, _, .bool _ | _, _, .num _ | _, _, .str _ => .refl _
  | _, _, .arr _ _ h => by
    rw [Node.json, Node.json]
    exact h.json.bind fun _ _ => .refl _
  | _, _, .obj h => by
    rw [Node.json, Node.json]
    exact h.json.bind fun _ _ => .refl _
  | _, _, .flawed _ _ _ _ => .error _ _

theorem AlikeItems.json : ∀ {items items' : List Node}, AlikeItems items items' →
    Refines (jsonItems items) (jsonItems items')
  | _, _, .nil => .refl _
  | _, _, .cons h t => by
    rw [jsonItems, jsonItems]
    exact h.json.bind fun _ _ => t.json.bind fun _ _ => .refl _

theorem AlikeMembers.json : ∀ {members members' : List (Key × Node)}, AlikeMembers members members' →
    Refines (jsonMembers members) (jsonMembers members')
  | _, _, .nil => .refl _
  | _, _, .cons k h t => by
    rw [jsonMembers, jsonMembers, k.1]
    exact (refines_check k.2).bind fun _ _ => h.json.bind fun _ _ => t.json.bind fun _ _ => .refl _

end

theorem AlikeItems.forall₂ : ∀ {items items' : List Node}, AlikeItems items items' →
    List.Forall₂ Alike items items'
  | _, _, .nil => .nil
  | _, _, .cons h t => .cons h t.forall₂

theorem AlikeMembers.forall₂ : ∀ {members members' : List (Key × Node)}, AlikeMembers members members' →
    List.Forall₂ (fun p q => p.1.Alike q.1 ∧ Alike p.2 q.2) members members'
  | _, _, .nil => .nil
  | _, _, .cons k h t => .cons ⟨k, h⟩ t.forall₂

end Node

theorem Key.Alike.read {k k' : Key} (h : k.Alike k') : Refines k.read k'.read := by
  obtain ⟨text, flaw⟩ := k
  obtain ⟨text', flaw'⟩ := k'
  obtain ⟨htext, hflaw⟩ := h
  simp only at htext hflaw
  subst htext
  cases flaw <;> cases flaw' <;> simp at hflaw
  · exact .refl _
  · exact .error _ _

/-! ### Decoders -/

namespace Decode

variable {α : Type}

/-- What the decoder returns does not depend on places. -/
def Blind (d : Decoder α) : Prop :=
  ∀ (m : Mode) {node node' : Node}, node.Alike node' → Refines (d m node) (d m node')

theorem blind_string : Blind string := by
  intro m node node' h
  cases h
  case str s => exact .refl _
  all_goals exact .error _ _

theorem blind_boolean : Blind boolean := by
  intro m node node' h
  cases h
  case bool b => exact .refl _
  all_goals exact .error _ _

theorem blind_unsigned (bits : Nat) : Blind (unsigned bits) := by
  intro m node node' h
  cases h
  case num n => exact .refl _
  all_goals exact .error _ _

theorem blind_any : Blind any := fun _ _ _ h => h.json.lift

theorem Blind.nullable {d : Decoder α} (hd : Blind d) : Blind (nullable d) := by
  intro m node node' h
  cases h with
  | null => exact .refl _
  | bool b => exact (hd m (.bool b)).map some
  | num n => exact (hd m (.num n)).map some
  | str s => exact (hd m (.str s)).map some
  | arr starts starts' h => exact (hd m (.arr starts starts' h)).map some
  | obj h => exact (hd m (.obj h)).map some
  | flawed f f' h h' => exact (hd m (.flawed f f' h h')).map some

theorem Blind.list {d : Decoder α} (hd : Blind d) : Blind (list d) := by
  intro m node node' h
  cases h
  case arr starts starts' h =>
    exact (Refines.mapM (h.forall₂.imp fun _ _ hitem => hd m hitem)).bind fun _ _ => .refl _
  all_goals exact .error _ _

theorem Blind.members {d : Decoder α} (hd : Blind d) : Blind (members d) := by
  intro m node node' h
  refine Refines.map _ ?_
  cases h
  case obj h =>
    refine (Refines.mapM (h.forall₂.imp fun p q hmember => ?_)).bind fun _ _ => .refl _
    exact hmember.1.read.bind fun _ _ => (hd m hmember.2).bind fun _ _ => .refl _
  all_goals exact .error _ _

theorem blind_choice (choices : List (String × α)) : Blind (choice choices) := by
  intro m node node' h
  cases m with
  | direct =>
    cases h
    case str s => exact .refl _
    case obj h =>
      cases h with
      | nil => exact .error _ _
      | cons k h t =>
        refine k.read.bind fun name _ => (Refines.refl _).bind fun a _ => ?_
        cases h
        case null =>
          cases t with
          | nil => exact .refl _
          | cons k h t => exact .error _ _
        all_goals exact .error _ _
    all_goals exact .error _ _
  | buffered =>
    cases h
    case str s => exact .refl _
    case obj h =>
      cases h with
      | nil => exact .error _ _
      | cons k h t =>
        cases t with
        | nil =>
          simp only [choice, choiceBuffered, k.1]
          refine (Refines.refl _).bind fun a _ => ?_
          cases h
          case null => exact .refl _
          case obj h =>
            cases h with
            | nil => exact .refl _
            | cons k h t => exact .error _ _
          all_goals exact .error _ _
        | cons k h t => exact .error _ _
    all_goals exact .error _ _

end Decode

/-! ### Records -/

namespace Layout

/-- All members of the record are decoded blindly. -/
inductive Blind : {αs : List Type} → Layout αs → Prop
  | nil : Blind .nil
  | cons {α : Type} {αs : List Type} {slot : Slot α} {rest : Layout αs} (h : Decode.Blind slot.decode)
      (t : Blind rest) : Blind (.cons slot rest)

variable {αs : List Type} {layout : Layout αs}

theorem Blind.put (h : layout.Blind) (m : Mode) (key : String) {node node' : Node}
    (hnode : node.Alike node') (draft : Draft αs) :
    Refines (layout.put m key node draft) (layout.put m key node' draft) := by
  induction h with
  | nil =>
    cases m with
    | direct =>
      show Refines (DecodeError.lift node.skip) (DecodeError.lift node'.skip)
      rw [hnode.skip, hnode.symm.skip]
      exact .refl _
    | buffered => exact .refl _
  | @cons _ _ slot rest hslot _ ih =>
    obtain ⟨value, draft⟩ := draft
    by_cases hkey : key ∈ slot.name :: slot.aliases
    · rw [put_of_mem hkey, put_of_mem hkey]
      cases value with
      | none => exact (hslot m hnode).map _
      | some a => exact .refl _
    · rw [put_of_notMem hkey, put_of_notMem hkey]
      exact (ih draft).map _

theorem Blind.putAll (h : layout.Blind) (m : Mode) {members members' : List (Key × Node)}
    (hmembers : List.Forall₂ (fun p q => p.1.Alike q.1 ∧ p.2.Alike q.2) members members')
    (draft : Draft αs) :
    Refines (layout.putAll m members draft) (layout.putAll m members' draft) := by
  induction hmembers generalizing draft with
  | nil => exact .refl _
  | @cons p q members members' hmember _ ih =>
    obtain ⟨key, node⟩ := p
    obtain ⟨key', node'⟩ := q
    rw [Layout.putAll, Layout.putAll]
    exact hmember.1.read.bind fun name _ => (h.put m name hmember.2 draft).bind fun draft _ => ih draft

theorem Blind.ofMembers (h : layout.Blind) (m : Mode) {members members' : List (Key × Node)}
    (hmembers : List.Forall₂ (fun p q => p.1.Alike q.1 ∧ p.2.Alike q.2) members members') :
    Refines (layout.ofMembers m members .closed) (layout.ofMembers m members' .closed) :=
  (h.putAll m hmembers layout.blank).bind fun _ _ => .refl _

theorem Blind.ofItems (h : layout.Blind) (description : String) (total : Nat) (m : Mode) (count : Nat)
    {items items' : List Node} (hitems : List.Forall₂ Node.Alike items items')
    (starts starts' : List Place) :
    Refines (layout.ofItems description total m count items starts .closed)
      (layout.ofItems description total m count items' starts' .closed) := by
  induction h generalizing count items items' starts starts' with
  | nil =>
    rw [Layout.ofItems, Layout.ofItems]
    cases hitems with
    | nil => exact .refl _
    | cons h t => cases m <;> exact .error _ _
  | cons hslot _ ih =>
    cases hitems with
    | nil =>
      rw [Layout.ofItems, Layout.ofItems]
      refine (Refines.refl _).bind fun _ _ => ?_
      split
      · exact (ih _ .nil starts starts').bind fun _ _ => .refl _
      · exact .error _ _
    | cons h t =>
      rw [Layout.ofItems, Layout.ofItems]
      exact (hslot m h).bind fun _ _ => (ih _ t _ _).bind fun _ _ => .refl _

end Layout

namespace Decode

variable {α : Type}

theorem blind_record {αs : List Type} (name : String) {layout : Layout αs} (h : layout.Blind)
    (make : Values αs → α) : Blind (record name layout make) := by
  intro m node node' hnode
  cases hnode
  case arr starts starts' hitems => exact (h.ofItems _ _ m 0 hitems.forall₂ starts starts').map make
  case obj hmembers => exact (h.ofMembers m hmembers.forall₂).map make
  all_goals exact .error _ _

end Decode

/-! ### Tagged choices -/

namespace Alternative

variable {α : Type}

/-- The content of the alternative is decoded blindly. -/
structure Blind (a : Alternative α) : Prop where
  ofMembers : ∀ {members members' : List (Key × Node)},
    List.Forall₂ (fun p q => p.1.Alike q.1 ∧ p.2.Alike q.2) members members' →
      Refines (a.ofMembers members) (a.ofMembers members')
  ofItems : ∀ {items items' : List Node}, List.Forall₂ Node.Alike items items' →
    Refines (a.ofItems items) (a.ofItems items')

theorem blind_unit (tag : String) (value : α) : (unit tag value).Blind where
  ofMembers _ := .refl _
  ofItems h := by
    cases h with
    | nil => exact .refl _
    | cons h t => exact .error _ _

theorem blind_record {αs : List Type} (tag name : String) {layout : Layout αs} (h : layout.Blind)
    (make : Values αs → α) : (record tag name layout make).Blind where
  ofMembers hmembers := (h.ofMembers .buffered hmembers).map make
  ofItems hitems := (h.ofItems _ _ .buffered 0 hitems [] []).map make

theorem refines_select (alternatives : List (Alternative α)) (m : Mode) {node node' : Node}
    (h : node.Alike node') : Refines (select alternatives m node) (select alternatives m node') := by
  cases h
  case str s => exact .refl _
  case num n => exact .refl _
  all_goals cases m <;> exact .error _ _

theorem refines_readContent (m : Mode) {node node' : Node} (h : node.Alike node') :
    Refines (readContent m node) (readContent m node') := by
  cases m with
  | direct => exact h.json.lift.map _
  | buffered => exact .refl _

theorem mem_of_select {alternatives : List (Alternative α)} {m : Mode} {node : Node} {a : Alternative α}
    (h : select alternatives m node = .ok a) : a ∈ alternatives := by
  unfold select at h
  split at h
  · split at h
    · cases h
      exact List.mem_of_find?_eq_some ‹_›
    · cases h
  · split at h
    · cases h
      exact List.mem_of_getElem? ‹_›
    · cases h
  · cases h

/-- The member is the tag. -/
def isTag (member : Key × Node) : Bool := member.1.text = "type"

/-- The tag that members under its key say, after one that was said before them if there was one.
It is said at most once. -/
def Says (alternatives : List (Alternative α)) (m : Mode) :
    Option (Alternative α) → List (Key × Node) → Option (Alternative α) → Prop
  | tag, [], found => found = tag
  | none, member :: more, found =>
    ∃ a, select alternatives m member.2 = .ok a ∧ Says alternatives m (some a) more found
  | some _, _ :: _, _ => False

section

variable {alternatives : List (Alternative α)} {m : Mode} {members others : List (Key × Node)}
  {tag found : Option (Alternative α)}

/-- An alternative is found if there is one tag, and the tag selects it. -/
theorem says_some_iff {a : Alternative α} :
    Says alternatives m none members (some a) ↔
      ∃ tag, members = [tag] ∧ select alternatives m tag.2 = .ok a := by
  cases members with
  | nil => simp [Says]
  | cons tag more => cases more <;> simp [Says]

theorem untag_tag (node : Node) (rest : List (Key × Node)) :
    untag alternatives m (({ text := "type" }, node) :: rest) none =
      (select alternatives m node >>= fun a => untag alternatives m rest (some a)) :=
  rfl

theorem untag_other {text : String} (h : text ≠ "type") (node : Node) (rest : List (Key × Node)) :
    untag alternatives m (({ text }, node) :: rest) tag =
      (readContent m node >>= fun _ => (fun r => (r.1, ({ text }, node) :: r.2)) <$>
        untag alternatives m rest tag) := by
  show (if text = "type" then _ else _) = _
  rw [if_neg h]
  rfl

/-- Taking the tag out of an object does not depend on where it stands. -/
theorem untag_ok_iff :
    untag alternatives m members tag = .ok (found, others) ↔
      (∀ member ∈ members, member.1.flaw = none) ∧
      Says alternatives m tag (members.filter isTag) found ∧
      (∀ other ∈ others, readContent m other.2 = .ok ()) ∧
      others = members.filter fun member => !isTag member := by
  induction members generalizing tag others with
  | nil =>
    simp only [untag, Except.ok.injEq, Prod.mk.injEq, List.filter_nil, Says]
    constructor
    · rintro ⟨rfl, rfl⟩
      simp
    · rintro ⟨-, rfl, -, rfl⟩
      simp
  | cons member rest ih =>
    obtain ⟨⟨text, flaw⟩, node⟩ := member
    cases flaw with
    | some f =>
      constructor
      · intro h
        cases h
      · rintro ⟨hkeys, -⟩
        cases hkeys _ (List.mem_cons_self ..)
    | none =>
      by_cases htext : text = "type"
      · subst htext
        have htag : isTag ({ text := "type" }, node) = true := rfl
        simp only [List.filter_cons, htag, if_true, Bool.not_true, Bool.false_eq_true, if_false,
          List.forall_mem_cons, true_and]
        cases tag with
        | some a =>
          constructor
          · intro h
            cases h
          · rintro ⟨-, hsays, -⟩
            cases hsays
        | none =>
          simp only [untag_tag, bind_eq_ok_iff, ih, Says]
          constructor
          · rintro ⟨a, ha, hkeys, hsays, hothers⟩
            exact ⟨hkeys, ⟨a, ha, hsays⟩, hothers⟩
          · rintro ⟨hkeys, ⟨a, ha, hsays⟩, hothers⟩
            exact ⟨a, ha, hkeys, hsays, hothers⟩
      · have htag : isTag ({ text }, node) = false := by simp [isTag, htext]
        simp only [List.filter_cons, htag, if_true, Bool.not_false, Bool.false_eq_true, if_false,
          List.forall_mem_cons, true_and, untag_other htext, bind_eq_ok_iff, map_eq_ok_iff]
        constructor
        · rintro ⟨_, hcontent, ⟨found, others⟩, hrest, hr⟩
          cases hr
          obtain ⟨hkeys, hsays, hothers, rfl⟩ := ih.1 hrest
          exact ⟨hkeys, hsays, List.forall_mem_cons.2 ⟨hcontent, hothers⟩, rfl⟩
        · rintro ⟨hkeys, hsays, hothers, rfl⟩
          obtain ⟨hcontent, hothers⟩ := List.forall_mem_cons.1 hothers
          exact ⟨(), hcontent, (found, _), ih.2 ⟨hkeys, hsays, hothers, rfl⟩, rfl⟩

end

end Alternative

namespace Decode

variable {α : Type}

/-- A tagged choice takes its one tag and hands it the other members. -/
theorem tagged_obj_ok_iff {name : String} {alternatives : List (Alternative α)} {m : Mode}
    {members : List (Key × Node)} {b : α} :
    tagged name alternatives m (.obj members .closed) = .ok b ↔
      (∀ member ∈ members, member.1.flaw = none) ∧
      ∃ (a : Alternative α) (tag : Key × Node), members.filter Alternative.isTag = [tag] ∧
        Alternative.select alternatives m tag.2 = .ok a ∧
        (∀ other ∈ members.filter (fun member => !Alternative.isTag member),
          Alternative.readContent m other.2 = .ok ()) ∧
        a.ofMembers (members.filter fun member => !Alternative.isTag member) = .ok b := by
  have htagged : tagged name alternatives m (.obj members .closed) =
      (Alternative.untag alternatives m members none >>= fun r =>
        r.1.elim (.error (.mismatch (.missingField "type"))) fun a => a.ofMembers r.2) := by
    simp only [tagged]
    refine bind_congr fun r => ?_
    obtain ⟨_ | a, others⟩ := r <;> rfl
  rw [htagged, bind_eq_ok_iff]
  constructor
  · rintro ⟨⟨found, others⟩, huntag, hcontent⟩
    obtain ⟨hkeys, hsays, hothers, rfl⟩ := Alternative.untag_ok_iff.1 huntag
    cases found with
    | none => cases hcontent
    | some a =>
      obtain ⟨tag, htag, hselect⟩ := Alternative.says_some_iff.1 hsays
      exact ⟨hkeys, a, tag, htag, hselect, hothers, hcontent⟩
  · rintro ⟨hkeys, a, tag, htags, hselect, hothers, hcontent⟩
    have hsays := Alternative.says_some_iff.2 ⟨tag, htags, hselect⟩
    exact ⟨(some a, _), Alternative.untag_ok_iff.2 ⟨hkeys, hsays, hothers, rfl⟩, hcontent⟩

theorem blind_tagged (name : String) {alternatives : List (Alternative α)}
    (h : ∀ a ∈ alternatives, a.Blind) : Blind (tagged name alternatives) := by
  intro m node node' hnode
  cases hnode
  case arr starts starts' hitems =>
    cases hitems with
    | nil => exact .error _ _
    | cons hfirst hrest =>
      refine (Alternative.refines_select alternatives m hfirst).bind fun a ha => ?_
      have hcontent := hrest.forall₂.imp fun _ _ hitem => Alternative.refines_readContent m hitem
      refine (Refines.forM hcontent).bind fun _ _ => (Refines.refl _).bind fun _ _ => ?_
      exact (h a (Alternative.mem_of_select ha)).ofItems hrest.forall₂
  case obj hmembers =>
    -- Tags and other members are alike one by one.
    have hpairs := hmembers.forall₂
    have htagOf : ∀ {p q : Key × Node}, p.1.Alike q.1 ∧ p.2.Alike q.2 →
        Alternative.isTag p = Alternative.isTag q := by
      rintro p q ⟨hkey, -⟩
      simp only [Alternative.isTag, hkey.1]
    have htags := List.rel_filter (p := fun p => Alternative.isTag p) (q := fun q => Alternative.isTag q)
      (fun p q hpq => iff_of_eq (congrArg (· = true) (htagOf hpq))) hpairs
    have hothers := List.rel_filter (p := fun p => !Alternative.isTag p)
      (q := fun q => !Alternative.isTag q)
      (fun p q hpq => iff_of_eq (congrArg (fun b => (!b) = true) (htagOf hpq))) hpairs
    intro b hb
    obtain ⟨hkeys, a, tag, htag, hselect, hcontent, hb⟩ := tagged_obj_ok_iff.1 hb
    have hkeys' := forall_mem_of_forall₂ hpairs
      (fun p q hpq hp => Option.isNone_iff_eq_none.1 (hpq.1.2 ▸ Option.isNone_iff_eq_none.2 hp)) hkeys
    have hcontent' := forall_mem_of_forall₂ hothers
      (fun p q hpq hp => Alternative.refines_readContent m hpq.2 () hp) hcontent
    rw [htag] at htags
    obtain ⟨tag', _, hpair, hnil, htag'⟩ := List.forall₂_cons_left_iff.1 htags
    rw [List.forall₂_nil_left_iff] at hnil
    subst hnil
    refine tagged_obj_ok_iff.2 ⟨hkeys', a, tag', htag', ?_, hcontent', ?_⟩
    · exact Alternative.refines_select alternatives m hpair.2 a hselect
    · exact (h a (Alternative.mem_of_select hselect)).ofMembers hothers b hb
  all_goals exact .error _ _

end Decode

end DataAgent
