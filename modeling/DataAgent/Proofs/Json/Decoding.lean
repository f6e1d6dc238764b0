import DataAgent.Json.Record
import DataAgent.Request.Encode
import DataAgent.Proofs.Json.Reading
import Mathlib

/-!
# Proofs — Json — Decoding

What decoders make of documents. `Decode.Encodes d j a` says that `j` is a regular document out of which
`d` makes `a`; each combinator of decoders has a rule for it. The rule covers both modes, and every
outline that shows the document, so it holds wherever the document stands in a text.

A record is decoded from members in the order of its layout (`Layout.Fits`): a member is put into its
slot, and the slots before it let it pass because no two slots share a key. A tagged choice is decoded
from its tag and the members of a record.
-/

namespace DataAgent

/-! ### Members without repetition -/

namespace Members

variable {α : Type}

theorem put_of_notMem {members : Members α} {key : String} (h : key ∉ members.map Prod.fst) (value : α) :
    members.put key value = members ++ [(key, value)] := by
  induction members with
  | nil => rfl
  | cons member rest ih =>
    obtain ⟨k, v⟩ := member
    simp only [List.map_cons, List.mem_cons, not_or] at h
    rw [put, if_neg (Ne.symm h.1), ih h.2, List.cons_append]

theorem ofList_of_nodup {entries : List (String × α)} (h : (entries.map Prod.fst).Nodup) :
    ofList entries = entries := by
  -- The members put so far are those before, so the next key is new to them.
  have hput : ∀ (before : Members α) (entries : List (String × α)),
      ((before ++ entries).map Prod.fst).Nodup →
      entries.foldl (fun members entry => members.put entry.1 entry.2) before = before ++ entries := by
    intro before entries hnodup
    induction entries generalizing before with
    | nil => simp
    | cons entry rest ih =>
      obtain ⟨key, value⟩ := entry
      have hnew : key ∉ before.map Prod.fst := by
        intro hmem
        rw [List.map_append, List.nodup_append] at hnodup
        exact hnodup.2.2 key hmem key (List.mem_cons_self ..) rfl
      have hrest := ih (before ++ [(key, value)]) (by simpa using hnodup)
      simpa [put_of_notMem hnew] using hrest
  exact hput [] entries h

end Members

/-! ### Documents of any form -/

namespace Node

mutual

/-- The outline of a document can be read, and gives a regular document back. -/
theorem Shows.json : ∀ {j : Json} {node : Node}, node.Shows j →
    ∃ read, node.json = .ok read ∧ (j.Regular → read = j)
  | _, _, .null => ⟨.null, rfl, fun _ => rfl⟩
  | _, _, .bool b => ⟨.bool b, rfl, fun _ => rfl⟩
  | _, _, .num n => ⟨.num n, rfl, fun _ => rfl⟩
  | _, _, .str s => ⟨.str s, rfl, fun _ => rfl⟩
  | _, _, .arr starts h => by
    obtain ⟨items, hitems, hregular⟩ := ShowsItems.json h
    refine ⟨.arr items, ?_, fun hj => congrArg Json.arr (hregular hj)⟩
    rw [Node.json, hitems]
    rfl
  | _, _, .obj h => by
    obtain ⟨members, hmembers, hregular⟩ := ShowsMembers.json h
    refine ⟨.obj (Members.ofList members), ?_, fun hj => ?_⟩
    · rw [Node.json, hmembers]
      rfl
    · obtain rfl := hregular hj.2
      rw [Members.ofList_of_nodup hj.1]

theorem ShowsItems.json : ∀ {items : List Json} {nodes : List Node}, ShowsItems nodes items →
    ∃ read, jsonItems nodes = .ok read ∧ (Json.RegularItems items → read = items)
  | _, _, .nil => ⟨[], rfl, fun _ => rfl⟩
  | _, _, .cons h t => by
    obtain ⟨item, hitem, hregular⟩ := Shows.json h
    obtain ⟨items, hitems, hregulars⟩ := ShowsItems.json t
    refine ⟨item :: items, ?_, fun hj => by rw [hregular hj.1, hregulars hj.2]⟩
    rw [jsonItems, hitem, hitems]
    rfl

theorem ShowsMembers.json : ∀ {members : List (String × Json)} {nodes : List (Key × Node)},
    ShowsMembers nodes members →
    ∃ read, jsonMembers nodes = .ok read ∧ (Json.RegularMembers members → read = members)
  | _, _, .nil => ⟨[], rfl, fun _ => rfl⟩
  | (key, _) :: _, _, .cons h t => by
    obtain ⟨value, hvalue, hregular⟩ := Shows.json h
    obtain ⟨members, hmembers, hregulars⟩ := ShowsMembers.json t
    refine ⟨(key, value) :: members, ?_, fun hj => by rw [hregular hj.1, hregulars hj.2]⟩
    rw [jsonMembers, hvalue, hmembers]
    rfl

end

end Node

/-! ### Decoders -/

namespace Decode

open Node (Shows ShowsItems ShowsMembers)

variable {α : Type} {d : Decoder α} {j : Json} {a : α}

/-- The document is regular, and the decoder makes the value out of every outline of it, in either
mode. -/
structure Encodes (d : Decoder α) (j : Json) (a : α) : Prop where
  regular : j.Regular
  decode : ∀ m node, Shows node j → d m node = .ok a

theorem encodes_string (s : String) : Encodes string (.str s) s where
  regular := trivial
  decode m node hnode := by
    cases hnode
    rfl

theorem encodes_boolean (b : Bool) : Encodes boolean (.bool b) b where
  regular := trivial
  decode m node hnode := by
    cases hnode
    rfl

theorem encodes_unsigned {bits n : Nat} (hbits : bits ≤ 64) (h : n < Nat.pow 2 bits) :
    Encodes (unsigned bits) (.num (.int n)) n where
  regular := by
    have hwide : n < Nat.pow 2 64 := Nat.lt_of_lt_of_le h (Nat.pow_le_pow_right (by decide) hbits)
    rw [show Nat.pow 2 64 = 18446744073709551616 from rfl] at hwide
    show -Int.pow 2 63 ≤ (n : Int) ∧ (n : Int) < Int.pow 2 64
    rw [show Int.pow 2 63 = 9223372036854775808 from rfl,
      show Int.pow 2 64 = 18446744073709551616 from rfl]
    omega
  decode m node hnode := by
    cases hnode
    have hbound : (0 : Int) ≤ n ∧ (n : Int) < Int.pow 2 bits := by
      have hpow : Int.pow 2 bits = (Nat.pow 2 bits : Nat) := (Int.natCast_pow 2 bits).symm
      rw [hpow]
      exact ⟨Int.natCast_nonneg n, Int.ofNat_lt.2 h⟩
    rw [unsigned, if_pos hbound, Int.toNat_natCast]

theorem encodes_any (h : j.Regular) : Encodes any j j where
  regular := h
  decode m node hnode := by
    obtain ⟨read, hread, hregular⟩ := hnode.json
    rw [any, hread, hregular h]
    rfl

theorem encodes_null (d : Decoder α) : Encodes (nullable d) .null none where
  regular := trivial
  decode m node hnode := by
    cases hnode
    rfl

theorem Encodes.nullable (h : Encodes d j a) (hj : j ≠ .null) : Encodes (nullable d) j (some a) where
  regular := h.regular
  decode m node hnode := by
    have hnull : node ≠ .null := by
      rintro rfl
      cases hnode
      exact hj rfl
    rw [Decode.nullable]
    · rw [h.decode m node hnode]
      rfl
    · exact hnull

theorem encodes_choice {choices : List (String × α)} {name : String}
    (h : variant choices name = .ok a) : Encodes (choice choices) (.str name) a where
  regular := trivial
  decode m node hnode := by
    cases hnode
    cases m <;> exact h

/-- A choice without names is made out of every outline of a document, once the outline can be read. -/
theorem encodes_untagged (name : String) {fits : Node → Option α} (hregular : j.Regular)
    (h : ∀ node, Shows node j → fits node = some a) : Encodes (untagged name fits) j a where
  regular := hregular
  decode m node hnode := by
    obtain ⟨read, hread, -⟩ := hnode.json
    simp only [untagged, hread, h node hnode]
    rfl

theorem encodes_list {f : α → Json} {as : List α} (h : ∀ a ∈ as, Encodes d (f a) a) :
    Encodes (list d) (.arr (as.map f)) as where
  regular := Json.regularItems_iff.2 (List.forall_mem_map.2 fun a ha => (h a ha).regular)
  decode m node hnode := by
    cases hnode with
    | @arr nodes _ starts hitems =>
      have hmap : nodes.mapM (d m) = .ok as := by
        induction as generalizing nodes with
        | nil =>
          cases hitems
          rfl
        | cons a as ih =>
          cases hitems with
          | cons hnode hnodes =>
            have htail := ih (fun b hb => h b (List.mem_cons_of_mem a hb)) hnodes
            rw [List.mapM_cons, (h a (List.mem_cons_self ..)).decode m _ hnode, htail]
            rfl
      rw [list, hmap]
      rfl

/-- A member by its key and its decoded value. -/
def entry (d : Decoder α) (m : Mode) (member : Key × Node) : Except DecodeError (String × α) := do
  return (← member.1.read, ← d m member.2)

theorem entries_closed (d : Decoder α) (m : Mode) (nodes : List (Key × Node)) :
    entries d m (.obj nodes .closed) = nodes.mapM (entry d m) :=
  bind_pure (nodes.mapM (entry d m))

theorem encodes_members {f : α → Json} {as : Members α}
    (h : ∀ member ∈ as, Encodes d (f member.2) member.2) (hkeys : (as.map Prod.fst).Nodup) :
    Encodes (members d) (.obj (as.map fun member => (member.1, f member.2))) as where
  regular := by
    refine ⟨?_, Json.regularMembers_iff.2 (List.forall_mem_map.2 fun member hmember =>
      (h member hmember).regular)⟩
    rw [List.map_map]
    exact hkeys
  decode m node hnode := by
    cases hnode with
    | @obj nodes _ hmembers =>
      have hmap : nodes.mapM (entry d m) = .ok as := by
        clear hkeys
        induction as generalizing nodes with
        | nil =>
          cases hmembers
          rfl
        | cons member as ih =>
          cases hmembers with
          | cons hnode hnodes =>
            have htail := ih (fun other hother => h other (List.mem_cons_of_mem member hother)) hnodes
            rw [List.mapM_cons, entry, (h member (List.mem_cons_self ..)).decode m _ hnode, htail]
            rfl
      rw [members, entries_closed, hmap]
      exact congrArg Except.ok (Members.ofList_of_nodup hkeys)

end Decode

/-! ### Records -/

namespace Layout

open Node (ShowsMembers)

/-- The keys that the members of a layout go by. -/
def keys : {αs : List Type} → Layout αs → List String
  | _, .nil => []
  | _, .cons slot rest => slot.name :: slot.aliases ++ rest.keys

/-- The members stand in the order of the layout, each encodes its value, and those that are left out
have a default. -/
inductive Fits : {αs : List Type} → Layout αs → List (String × Json) → Values αs → Prop
  | nil : Fits .nil [] ()
  | present {α : Type} {αs : List Type} {slot : Slot α} {rest : Layout αs} {j : Json} {a : α}
      {members : List (String × Json)} {values : Values αs} (h : Decode.Encodes slot.decode j a)
      (t : Fits rest members values) : Fits (.cons slot rest) ((slot.name, j) :: members) (a, values)
  | absent {α : Type} {αs : List Type} {slot : Slot α} {rest : Layout αs} {a : α}
      {members : List (String × Json)} {values : Values αs} (h : slot.absent = some a)
      (t : Fits rest members values) : Fits (.cons slot rest) members (a, values)

section

variable {αs : List Type} {layout : Layout αs} {members : List (String × Json)} {values : Values αs}

theorem Fits.sublist_keys (h : layout.Fits members values) :
    List.Sublist (members.map Prod.fst) layout.keys := by
  induction h with
  | nil => exact .slnil
  | present _ _ ih => exact (ih.trans (List.sublist_append_right _ _)).cons_cons _
  | absent _ _ ih => exact ih.trans (List.sublist_append_right _ _)

theorem Fits.mem_keys (h : layout.Fits members values) {member : String × Json}
    (hmember : member ∈ members) : member.1 ∈ layout.keys :=
  h.sublist_keys.subset (List.mem_map_of_mem hmember)

theorem Fits.regular (h : layout.Fits members values) : Json.RegularMembers members := by
  induction h with
  | nil => trivial
  | present hmember _ ih => exact ⟨hmember.regular, ih⟩
  | absent _ _ ih => exact ih

end

theorem putAll_member {αs : List Type} (layout : Layout αs) (m : Mode) (key : String) (node : Node)
    (nodes : List (Key × Node)) (draft : Draft αs) :
    layout.putAll m (({ text := key }, node) :: nodes) draft =
      (layout.put m key node draft >>= layout.putAll m nodes) :=
  rfl

theorem put_of_notMem {α : Type} {αs : List Type} {slot : Slot α} {key : String}
    (h : key ∉ slot.name :: slot.aliases) (rest : Layout αs) (m : Mode) (node : Node) (value : Option α)
    (draft : Draft αs) :
    (Layout.cons slot rest).put m key node (value, draft) =
      (fun draft => (value, draft)) <$> rest.put m key node draft := by
  have hskip : ¬ (key = slot.name ∨ key ∈ slot.aliases) := by simpa using h
  simp only [put, if_neg hskip]
  rfl

/-- The first member of a layout takes a value once. -/
theorem put_of_mem {α : Type} {αs : List Type} {slot : Slot α} {key : String}
    (h : key ∈ slot.name :: slot.aliases) (rest : Layout αs) (m : Mode) (node : Node) (value : Option α)
    (draft : Draft αs) :
    (Layout.cons slot rest).put m key node (value, draft) =
      value.elim ((fun a => (some a, draft)) <$> slot.decode m node)
        fun _ => .error (.mismatch (.duplicateField slot.name)) := by
  have hslot : key = slot.name ∨ key ∈ slot.aliases := by simpa using h
  simp only [put, if_pos hslot]
  cases value <;> rfl

/-- Members that are not the first of a layout go to the others. -/
theorem putAll_cons {α : Type} {αs : List Type} {slot : Slot α} {rest : Layout αs} {m : Mode}
    {members : List (String × Json)} {nodes : List (Key × Node)} (hnodes : ShowsMembers nodes members)
    (hother : ∀ member ∈ members, member.1 ∉ slot.name :: slot.aliases) (value : Option α)
    {draft after : Draft αs} (h : rest.putAll m nodes draft = .ok after) :
    (Layout.cons slot rest).putAll m nodes (value, draft) = .ok (value, after) := by
  induction members generalizing nodes draft with
  | nil =>
    cases hnodes
    cases h
    rfl
  | cons member members ih =>
    obtain ⟨key, j⟩ := member
    cases hnodes with
    | @cons _ node _ nodes _ _ hmore =>
      rw [putAll_member] at h ⊢
      rw [put_of_notMem (hother (key, j) (List.mem_cons_self ..))]
      cases hput : rest.put m key node draft with
      | error e =>
        rw [hput] at h
        cases h
      | ok next =>
        rw [hput] at h
        exact ih hmore (fun member hmember => hother member (List.mem_cons_of_mem _ hmember)) h

/-- Members that stand in order make the values of a record. -/
theorem Fits.putAll {αs : List Type} {layout : Layout αs} {members : List (String × Json)}
    {values : Values αs} (h : layout.Fits members values) (hkeys : layout.keys.Nodup) (m : Mode)
    {nodes : List (Key × Node)} (hnodes : ShowsMembers nodes members) :
    ∃ draft, layout.putAll m nodes layout.blank = .ok draft ∧ layout.finish draft = .ok values := by
  induction h generalizing nodes with
  | nil =>
    cases hnodes
    exact ⟨(), rfl, rfl⟩
  | @present _ _ slot rest j a members values hencodes hfits ih =>
    obtain ⟨-, hrest, hdisjoint⟩ := List.nodup_append.1 hkeys
    cases hnodes with
    | @cons _ node _ nodes _ hnode hmore =>
      obtain ⟨draft, hdraft, hfinish⟩ := ih hrest hmore
      have hother : ∀ member ∈ members, member.1 ∉ slot.name :: slot.aliases :=
        fun member hmember hslot => hdisjoint _ hslot _ (hfits.mem_keys hmember) rfl
      refine ⟨(some a, draft), ?_, ?_⟩
      · rw [putAll_member, blank, put, if_pos (.inl rfl), hencodes.decode m node hnode]
        exact putAll_cons hmore hother (some a) hdraft
      · rw [finish, hfinish]
        rfl
  | @absent _ _ slot rest a members values habsent hfits ih =>
    obtain ⟨-, hrest, hdisjoint⟩ := List.nodup_append.1 hkeys
    obtain ⟨draft, hdraft, hfinish⟩ := ih hrest hnodes
    have hother : ∀ member ∈ members, member.1 ∉ slot.name :: slot.aliases :=
      fun member hmember hslot => hdisjoint _ hslot _ (hfits.mem_keys hmember) rfl
    refine ⟨(none, draft), putAll_cons hnodes hother none hdraft, ?_⟩
    simp only [finish, habsent, hfinish]
    rfl

theorem Fits.ofMembers {αs : List Type} {layout : Layout αs} {members : List (String × Json)}
    {values : Values αs} (h : layout.Fits members values) (hkeys : layout.keys.Nodup) (m : Mode)
    {nodes : List (Key × Node)} (hnodes : ShowsMembers nodes members) :
    layout.ofMembers m nodes .closed = .ok values := by
  obtain ⟨draft, hdraft, hfinish⟩ := h.putAll hkeys m hnodes
  rw [Layout.ofMembers, hdraft]
  exact hfinish

theorem Fits.required {α : Type} {αs : List Type} {name : String} {d : Decoder α} {rest : Layout αs}
    {j : Json} {a : α} {members : List (String × Json)} {values : Values αs} (h : Decode.Encodes d j a)
    (t : rest.Fits members values) :
    (Layout.cons (.required name d) rest).Fits ((name, j) :: members) (a, values) :=
  .present h t

theorem Fits.withDefault {α : Type} {αs : List Type} {name : String} {d : Decoder α} {default : α}
    {rest : Layout αs} {j : Json} {a : α} {members : List (String × Json)} {values : Values αs}
    (h : Decode.Encodes d j a) (t : rest.Fits members values) :
    (Layout.cons (.withDefault name d default) rest).Fits ((name, j) :: members) (a, values) :=
  .present h t

/-- A member that is left out when there is no value. -/
theorem Fits.optional {α : Type} {αs : List Type} {name : String} {d : Decoder α} {rest : Layout αs}
    {f : α → Json} {o : Option α} {members : List (String × Json)} {values : Values αs}
    (hnull : ∀ a, f a ≠ .null) (h : ∀ a ∈ o, Decode.Encodes d (f a) a) (t : rest.Fits members values) :
    (Layout.cons (.optional name d) rest).Fits (Json.memberIfSome name f o ++ members) (o, values) := by
  cases o with
  | none => exact .absent rfl t
  | some a => exact .present ((h a rfl).nullable (hnull a)) t

end Layout

namespace Decode

open Node (ShowsMembers)

variable {α : Type} {αs : List Type} {layout : Layout αs} {members : List (String × Json)}
  {values : Values αs}

theorem encodes_record (name : String) {make : Values αs → α} {a : α} (hkeys : layout.keys.Nodup)
    (h : layout.Fits members values) (hmake : make values = a) :
    Encodes (record name layout make) (.obj members) a where
  regular := ⟨hkeys.sublist h.sublist_keys, h.regular⟩
  decode m node hnode := by
    cases hnode with
    | obj hmembers =>
      rw [record, h.ofMembers hkeys m hmembers]
      exact congrArg Except.ok hmake

/-! ### Tagged choices -/

theorem readContent_of_shows {m : Mode} {node : Node} {j : Json} (h : node.Shows j) :
    Alternative.readContent m node = .ok () := by
  cases m with
  | direct =>
    obtain ⟨read, hread, -⟩ := h.json
    rw [Alternative.readContent, hread]
    rfl
  | buffered => rfl

/-- The members beside the tag are left as they are. -/
theorem untag_members (alternatives : List (Alternative α)) (m : Mode) {nodes : List (Key × Node)}
    (hnodes : ShowsMembers nodes members) (htype : "type" ∉ members.map Prod.fst)
    (tag : Option (Alternative α)) :
    Alternative.untag alternatives m nodes tag = .ok (tag, nodes) := by
  induction members generalizing nodes with
  | nil =>
    cases hnodes
    rfl
  | cons member members ih =>
    obtain ⟨key, j⟩ := member
    simp only [List.map_cons, List.mem_cons, not_or] at htype
    cases hnodes with
    | @cons _ node _ nodes _ hnode hmore =>
      have hkey : ¬ key = "type" := Ne.symm htype.1
      simp only [Alternative.untag, Key.read, bind, Except.bind, if_neg hkey, readContent_of_shows hnode,
        ih hmore htype.2]
      rfl

/-- A choice that is written with its tag first. -/
theorem encodes_tagged (name : String) {tag : String} {alternatives : List (Alternative α)}
    {alternative : Alternative α} {a : α}
    (hfind : alternatives.find? (fun x => x.tag = tag) = some alternative)
    (hkeys : ("type" :: members.map Prod.fst).Nodup) (hregular : Json.RegularMembers members)
    (h : ∀ nodes, ShowsMembers nodes members → alternative.ofMembers nodes = .ok a) :
    Encodes (tagged name alternatives) (.obj (("type", .str tag) :: members)) a where
  regular := ⟨hkeys, trivial, hregular⟩
  decode m node hnode := by
    cases hnode with
    | obj hmembers =>
      cases hmembers with
      | @cons _ _ _ nodes _ htag hmore =>
        cases htag
        have hselect : Alternative.select alternatives m (.str tag) = .ok alternative := by
          simp only [Alternative.select, hfind]
        have huntag : Alternative.untag alternatives m (({ text := "type" }, .str tag) :: nodes) none =
            .ok (some alternative, nodes) := by
          simp only [Alternative.untag, Key.read, bind, Except.bind, if_true, hselect]
          exact untag_members alternatives m hmore (List.nodup_cons.1 hkeys).1 (some alternative)
        rw [tagged, huntag]
        exact h nodes hmore

/-- A choice the content of which is a record. -/
theorem encodes_taggedRecord (name : String) {tag full : String} {alternatives : List (Alternative α)}
    {make : Values αs → α} {a : α}
    (hfind : alternatives.find? (fun x => x.tag = tag) = some (.record tag full layout make))
    (hkeys : ("type" :: layout.keys).Nodup) (h : layout.Fits members values) (hmake : make values = a) :
    Encodes (tagged name alternatives) (.obj (("type", .str tag) :: members)) a := by
  refine encodes_tagged name hfind (hkeys.sublist (h.sublist_keys.cons_cons "type")) h.regular
    fun nodes hnodes => ?_
  simp only [Alternative.record, h.ofMembers (List.nodup_cons.1 hkeys).2 .buffered hnodes]
  exact congrArg Except.ok hmake

end Decode

/-- A value is decoded from the text of a document that encodes it, if the text does not nest too
deep. -/
theorem Decode.Encodes.decodeString_print {α : Type} {d : Decoder α} {j : Json} {a : α}
    (h : Decode.Encodes d j a) (hdepth : j.depth ≤ Node.depthLimit) :
    decodeString d j.print = .ok a := by
  obtain ⟨node, hnode, hread⟩ := Node.read_print h.regular hdepth
  rw [decodeString, decodeText, hread]
  simp only [h.decode .direct node hnode]
  rfl

theorem Decode.Encodes.decodeLeading_print {α : Type} {d : Decoder α} {j : Json} {a : α}
    (h : Decode.Encodes d j a) (hdepth : j.depth ≤ Node.depthLimit) :
    decodeLeading d (.ofString j.print) = .ok a := by
  obtain ⟨node, hnode, hread⟩ := Node.read_print h.regular hdepth
  rw [decodeLeading, hread, h.decode .direct node hnode]

end DataAgent
