import DataAgent.Proofs.Json.Places
import Mathlib

/-!
# Proofs — Json — Edits

Texts say the same in many ways. Where an object is read as a record or as a tagged choice, its members
may stand in any order, members that nobody asks for may stand between them, and a member may have
another of its names. An edit (`Edit`) is one such change, at any depth of a text.

Whether an object is a record, and of which members, is said by the form of the value
(`Form`, `Shape`): a schema, with a name for each kind of record and of tagged choice, because kinds
nest in each other. Maps are not edited, and neither is what stands under a key that nobody asks for.

An edit leaves a sound text sound (`Edit.sound`), which is to say that a close reading has still nothing
to object to (`Spelling.sound_iff`).
-/

namespace DataAgent

/-! ### Forms -/

/-- How a text is read: without looking for records in it, as a list or a map of values, or as a record
or tagged choice of some kind. -/
inductive Form (κ : Type)
  | leaf
  | list (item : Form κ)
  | map (value : Form κ)
  | kind (k : κ)

/-- A member of a record: its names, and the form of its value. -/
structure FieldForm (κ : Type) where
  keys : List String
  form : Form κ := .leaf

/-- The members of a record, or of each variant of a tagged choice. -/
inductive Shape (κ : Type)
  | record (fields : List (FieldForm κ))
  | tagged (variants : List (String × List (FieldForm κ)))

variable {κ : Type}

namespace FieldForm

/-- All names of some members. -/
def names (fields : List (FieldForm κ)) : List String := fields.flatMap FieldForm.keys

/-- The tag of a tagged choice. -/
def tag : FieldForm κ := { keys := ["type"] }

end FieldForm

/-- The text names a variant: by its tag or, as a number, by its position. -/
inductive Spelling.Names (variants : List (String × List (FieldForm κ))) :
    Spelling → List (FieldForm κ) → Prop
  | tag {l : Literal} {name : String} {fields : List (FieldForm κ)} (hl : l.Spells name)
      (h : variants.find? (fun v => v.1 = name) = some (name, fields)) : Names variants (.str l) fields
  | position {n : NumberText} {i : Nat} {name : String} {fields : List (FieldForm κ)}
      (hn : n.number? = some (.int i)) (h : variants[i]? = some (name, fields)) :
      Names variants (.num n) fields

section

variable (shape : κ → Shape κ)

/-- The members that an object of some kind may have, the tag of a choice among them. -/
inductive HasFields (k : κ) (members : List (Label × Spelling)) : List (FieldForm κ) → Prop
  | record {fields : List (FieldForm κ)} (h : shape k = .record fields) : HasFields k members fields
  | tagged {variants : List (String × List (FieldForm κ))} {fields : List (FieldForm κ)} {label : Label}
      {v : Spelling} (h : shape k = .tagged variants) (hmem : (label, v) ∈ members)
      (hlabel : label.key.Spells "type") (hv : v.Names variants fields) :
      HasFields k members (.tag :: fields)

/-- The items that an array has which stands for an object of some kind. -/
inductive HasItems (k : κ) : List (Margin × Spelling) → List (FieldForm κ) → Prop
  | record {items : List (Margin × Spelling)} {fields : List (FieldForm κ)}
      (h : shape k = .record fields) : HasItems k items fields
  | tagged {variants : List (String × List (FieldForm κ))} {fields : List (FieldForm κ)}
      {margin : Margin} {v : Spelling} {items : List (Margin × Spelling)}
      (h : shape k = .tagged variants)
      (hv : v.Names variants fields) : HasItems k ((margin, v) :: items) (.tag :: fields)

mutual

/-- One edit of a text of some form, where `level` more containers may nest. -/
inductive Edit : Nat → Form κ → Spelling → Spelling → Prop
  /-- In the members of an object that is read as a record or as a tagged choice. -/
  | members {level : Nat} {k : κ} {fields : List (FieldForm κ)} {ms ms' : List (Label × Spelling)}
      (last : List Blank) (h : HasFields shape k ms fields) (e : MembersEdit level fields ms ms') :
      Edit (level + 1) (.kind k) (.obj ms last) (.obj ms' last)
  /-- In an item of an array that stands for such an object. -/
  | position {level : Nat} {k : κ} {fields : List (FieldForm κ)} {field : FieldForm κ}
      {before after : List (Margin × Spelling)} (margin : Margin) {v v' : Spelling} (last : List Blank)
      (h : HasItems shape k (before ++ (margin, v) :: after) fields)
      (hfield : fields[before.length]? = some field) (e : Edit level field.form v v') :
      Edit (level + 1) (.kind k) (.arr (before ++ (margin, v) :: after) last)
        (.arr (before ++ (margin, v') :: after) last)
  /-- In an item of a list. -/
  | item {level : Nat} {f : Form κ} (before after : List (Margin × Spelling)) (margin : Margin)
      {v v' : Spelling} (last : List Blank) (e : Edit level f v v') :
      Edit (level + 1) (.list f) (.arr (before ++ (margin, v) :: after) last)
        (.arr (before ++ (margin, v') :: after) last)
  /-- In a value of a map. -/
  | entry {level : Nat} {f : Form κ} (before after : List (Label × Spelling)) (label : Label)
      {v v' : Spelling} (last : List Blank) (e : Edit level f v v') :
      Edit (level + 1) (.map f) (.obj (before ++ (label, v) :: after) last)
        (.obj (before ++ (label, v') :: after) last)

/-- One edit of the members of an object that may have the given fields. -/
inductive MembersEdit :
    Nat → List (FieldForm κ) → List (Label × Spelling) → List (Label × Spelling) → Prop
  /-- The members in another order. -/
  | permute {level : Nat} {fields : List (FieldForm κ)} {ms ms' : List (Label × Spelling)}
      (h : ms.Perm ms') : MembersEdit level fields ms ms'
  /-- One more member, which is no field. -/
  | insert {level : Nat} {fields : List (FieldForm κ)} (before after : List (Label × Spelling))
      {label : Label} {v : Spelling} {key : String} (hlabel : label.key.Spells key)
      (hkey : key ∉ FieldForm.names fields) (hv : v.Sound level) :
      MembersEdit level fields (before ++ after) (before ++ (label, v) :: after)
  /-- Another name of the same field. -/
  | rename {level : Nat} {fields : List (FieldForm κ)} {field : FieldForm κ}
      (before after : List (Label × Spelling)) {label label' : Label} (v : Spelling) {key key' : String}
      (hfield : field ∈ fields) (hlabel : label.key.Spells key) (hkey : key ∈ field.keys)
      (hlabel' : label'.key.Spells key') (hkey' : key' ∈ field.keys) :
      MembersEdit level fields (before ++ (label, v) :: after) (before ++ (label', v) :: after)
  /-- An edit in the value of a field. -/
  | value {level : Nat} {fields : List (FieldForm κ)} {field : FieldForm κ}
      (before after : List (Label × Spelling)) {label : Label} {v v' : Spelling} {key : String}
      (hfield : field ∈ fields) (hlabel : label.key.Spells key) (hkey : key ∈ field.keys)
      (e : Edit level field.form v v') :
      MembersEdit level fields (before ++ (label, v) :: after) (before ++ (label, v') :: after)

end

end

/-! ### Soundness of texts -/

namespace Spelling

theorem itemNodes_eq (level : Nat) (items : List (Margin × Spelling)) :
    itemNodes level items = items.map fun item => item.2.node level := by
  induction items with
  | nil => rfl
  | cons item more ih => rw [itemNodes, ih, List.map_cons]

theorem memberNodes_eq (level : Nat) (members : List (Label × Spelling)) :
    memberNodes level members =
      members.map fun member => (keyOf member.1.key, member.2.node level) := by
  induction members with
  | nil => rfl
  | cons member more ih => rw [memberNodes, ih, List.map_cons]

theorem soundItems_iff {level : Nat} {items : List (Margin × Spelling)} :
    SoundItems level items ↔ ∀ item ∈ items, item.2.Sound level := by
  induction items with
  | nil => simp [SoundItems]
  | cons item more ih => simp [SoundItems, ih]

theorem soundMembers_iff {level : Nat} {members : List (Label × Spelling)} :
    SoundMembers level members ↔
      ∀ member ∈ members, member.1.key.paired = true ∧ member.2.Sound level := by
  induction members with
  | nil => simp [SoundMembers]
  | cons member more ih =>
    simp only [SoundMembers, ih, List.forall_mem_cons]
    tauto

theorem skip_node (c : Spelling) (level : Nat) : (c.node level).skip = .ok () := by
  obtain ⟨node, hnode, -⟩ :=
    @Node.value_spelling c (2 * c.text.length) level [] (Nat.le_refl _) trivial
  exact hnode.symm.skip

theorem flaw_keyOf {l : Literal} : (keyOf l).flaw = none ↔ l.paired = true := by
  cases h : l.paired <;> simp [keyOf, h]

theorem keyOf_eq {l : Literal} {key : String} (h : l.Spells key) : keyOf l = { text := key } := by
  obtain ⟨hpaired, rfl⟩ := h
  simp [keyOf, hpaired]

mutual

/-- A close reading has nothing to object to in a sound text, and in no other. -/
theorem sound_iff : ∀ (level : Nat) (c : Spelling),
    c.Sound level ↔ ∃ j, (c.node level).json = .ok j
  | level, .null => ⟨fun _ => ⟨.null, rfl⟩, fun _ => trivial⟩
  | level, .bool b => ⟨fun _ => ⟨.bool b, rfl⟩, fun _ => trivial⟩
  | level, .num n => by
    rw [Sound, node]
    cases n.number? <;> simp [unread, Node.json]
  | level, .str l => by
    rw [Sound, node]
    cases l.paired <;> simp [unread, Node.json]
  | 0, .arr items last => by simp [Sound, node, shelter, unread, Node.json]
  | 0, .obj members last => by simp [Sound, node, shelter, unread, Node.json]
  | level + 1, .arr items last => by
    have hitems := soundItems_json level items
    have hnode : node (level + 1) (.arr items last) = .arr (itemNodes level items) [] .closed := rfl
    rw [hnode, Node.json]
    constructor
    · rintro ⟨-, h⟩
      obtain ⟨js, hjs⟩ := hitems.1 h
      exact ⟨.arr js, by rw [hjs]; rfl⟩
    · rintro ⟨j, hj⟩
      obtain ⟨js, hjs, -⟩ := bind_eq_ok_iff.1 hj
      exact ⟨level.succ_pos, hitems.2 ⟨js, hjs⟩⟩
  | level + 1, .obj members last => by
    have hmembers := soundMembers_json level members
    have hnode : node (level + 1) (.obj members last) = .obj (memberNodes level members) .closed := rfl
    rw [hnode, Node.json]
    constructor
    · rintro ⟨-, h⟩
      obtain ⟨js, hjs⟩ := hmembers.1 h
      exact ⟨.obj (Members.ofList js), by rw [hjs]; rfl⟩
    · rintro ⟨j, hj⟩
      obtain ⟨js, hjs, -⟩ := bind_eq_ok_iff.1 hj
      exact ⟨level.succ_pos, hmembers.2 ⟨js, hjs⟩⟩

theorem soundItems_json : ∀ (level : Nat) (items : List (Margin × Spelling)),
    SoundItems level items ↔ ∃ js, Node.jsonItems (itemNodes level items) = .ok js
  | level, [] => ⟨fun _ => ⟨[], rfl⟩, fun _ => trivial⟩
  | level, (margin, item) :: more => by
    rw [SoundItems, sound_iff level item, soundItems_json level more, itemNodes, Node.jsonItems]
    constructor
    · rintro ⟨⟨j, hj⟩, ⟨js, hjs⟩⟩
      exact ⟨j :: js, by rw [hj, hjs]; rfl⟩
    · rintro ⟨_, h⟩
      obtain ⟨j, hj, h⟩ := bind_eq_ok_iff.1 h
      obtain ⟨js, hjs, -⟩ := bind_eq_ok_iff.1 h
      exact ⟨⟨j, hj⟩, ⟨js, hjs⟩⟩

theorem soundMembers_json : ∀ (level : Nat) (members : List (Label × Spelling)),
    SoundMembers level members ↔ ∃ js, Node.jsonMembers (memberNodes level members) = .ok js
  | level, [] => ⟨fun _ => ⟨[], rfl⟩, fun _ => trivial⟩
  | level, (label, value) :: more => by
    rw [SoundMembers, sound_iff level value, soundMembers_json level more, memberNodes,
      Node.jsonMembers, ← flaw_keyOf]
    constructor
    · rintro ⟨hkey, ⟨j, hj⟩, ⟨js, hjs⟩⟩
      exact ⟨(_, j) :: js, by rw [hkey, hj, hjs]; rfl⟩
    · rintro ⟨_, h⟩
      obtain ⟨_, hkey, h⟩ := bind_eq_ok_iff.1 h
      obtain ⟨j, hj, h⟩ := bind_eq_ok_iff.1 h
      obtain ⟨js, hjs, -⟩ := bind_eq_ok_iff.1 h
      refine ⟨?_, ⟨j, hj⟩, ⟨js, hjs⟩⟩
      cases hflaw : (keyOf label.key).flaw with
      | none => rfl
      | some f =>
        rw [hflaw] at hkey
        cases hkey

end

end Spelling

/-! ### What edits leave alone -/

section

variable {shape : κ → Shape κ}

mutual

/-- An edit leaves a sound text sound. -/
theorem Edit.sound : ∀ {level : Nat} {f : Form κ} {c c' : Spelling}, Edit shape level f c c' →
    c.Sound level → c'.Sound level
  | _, _, _, _, .members _ _ e, hc => ⟨hc.1, e.sound hc.2⟩
  | _, _, _, _, .position _ _ _ _ e, hc | _, _, _, _, .item _ _ _ _ e, hc => by
    refine ⟨hc.1, Spelling.soundItems_iff.2 ?_⟩
    have hitems := Spelling.soundItems_iff.1 hc.2
    simp only [List.forall_mem_append, List.forall_mem_cons] at hitems ⊢
    exact ⟨hitems.1, e.sound hitems.2.1, hitems.2.2⟩
  | _, _, _, _, .entry _ _ _ _ e, hc => by
    refine ⟨hc.1, Spelling.soundMembers_iff.2 ?_⟩
    have hmembers := Spelling.soundMembers_iff.1 hc.2
    simp only [List.forall_mem_append, List.forall_mem_cons] at hmembers ⊢
    exact ⟨hmembers.1, ⟨hmembers.2.1.1, e.sound hmembers.2.1.2⟩, hmembers.2.2⟩

theorem MembersEdit.sound : ∀ {level : Nat} {fields : List (FieldForm κ)}
    {ms ms' : List (Label × Spelling)}, MembersEdit shape level fields ms ms' →
    Spelling.SoundMembers level ms → Spelling.SoundMembers level ms'
  | _, _, _, _, .permute h, hms =>
    Spelling.soundMembers_iff.2 fun p hp => Spelling.soundMembers_iff.1 hms p (h.mem_iff.2 hp)
  | _, _, _, _, .insert _ _ hlabel _ hv, hms => by
    have hmembers := Spelling.soundMembers_iff.1 hms
    rw [Spelling.soundMembers_iff]
    simp only [List.forall_mem_append, List.forall_mem_cons] at hmembers ⊢
    exact ⟨hmembers.1, ⟨hlabel.1, hv⟩, hmembers.2⟩
  | _, _, _, _, .rename _ _ _ _ _ _ hlabel' _, hms => by
    have hmembers := Spelling.soundMembers_iff.1 hms
    rw [Spelling.soundMembers_iff]
    simp only [List.forall_mem_append, List.forall_mem_cons] at hmembers ⊢
    exact ⟨hmembers.1, ⟨hlabel'.1, hmembers.2.1.2⟩, hmembers.2.2⟩
  | _, _, _, _, .value _ _ _ _ _ e, hms => by
    have hmembers := Spelling.soundMembers_iff.1 hms
    rw [Spelling.soundMembers_iff]
    simp only [List.forall_mem_append, List.forall_mem_cons] at hmembers ⊢
    exact ⟨hmembers.1, ⟨hmembers.2.1.1, e.sound hmembers.2.1.2⟩, hmembers.2.2⟩

end

theorem MembersEdit.paired {level : Nat} {fields : List (FieldForm κ)} {ms ms' : List (Label × Spelling)}
    (e : MembersEdit shape level fields ms ms') (h : ∀ member ∈ ms, member.1.key.paired = true) :
    ∀ member ∈ ms', member.1.key.paired = true := by
  cases e with
  | permute hp => exact fun p hmem => h p (hp.mem_iff.2 hmem)
  | insert _ _ hlabel _ _ =>
    simp only [List.forall_mem_append, List.forall_mem_cons] at h ⊢
    exact ⟨h.1, hlabel.1, h.2⟩
  | rename _ _ _ _ _ _ hlabel' _ =>
    simp only [List.forall_mem_append, List.forall_mem_cons] at h ⊢
    exact ⟨h.1, hlabel'.1, h.2.2⟩
  | value _ _ _ _ _ _ =>
    simp only [List.forall_mem_append, List.forall_mem_cons] at h ⊢
    exact h

end

end DataAgent
