import DataAgent.Proofs.Config.Maps
import DataAgent.Proofs.Json.Compact
import DataAgent.Proofs.Json.Making
import Mathlib

/-!
# Proofs — Config — Encoding

A configuration file is decoded from its own text, whatever of it is left out because it is the default
(`ConfigurationFile.decode_written`). What is asked of the file is what the types of its parts promise
(`ConfigurationFile.Regular`): its numbers have the bits that are read, and its databases are a map. These
are the files that come from a text at all.

A setting that is left out and one that is null are read differently. A time that is absent is written as
null, so it is not mistaken for one that has its default.
-/

namespace DataAgent

open Decode

/-! ### Regular files -/

/-- Numbers have the bits that are read of them. -/
structure PoolSettings.Regular (s : PoolSettings) : Prop where
  maxConnections : s.maxConnections < Nat.pow 2 32
  poolTimeout : s.poolTimeout < Nat.pow 2 64
  idleTimeout : ∀ n ∈ s.idleTimeout, n < Nat.pow 2 64
  connectionLifetime : ∀ n ∈ s.connectionLifetime, n < Nat.pow 2 64

/-- Numbers have the bits that are read of them. -/
structure QuerySettings.Regular (s : QuerySettings) : Prop where
  maxRelationshipDepth : s.maxRelationshipDepth < Nat.pow 2 32
  maxPathLength : s.maxPathLength < Nat.pow 2 32
  timeoutSeconds : ∀ n ∈ s.timeoutSeconds, n < Nat.pow 2 64

theorem PoolSettings.regular_default : Regular {} := ⟨by decide, by decide, by decide, by decide⟩

theorem QuerySettings.regular_default : Regular {} := ⟨by decide, by decide, by decide⟩

/-- Numbers have the bits that are read of them, and the databases are a map. -/
structure ConfigurationFile.Regular (c : ConfigurationFile) : Prop where
  version : c.version < Nat.pow 2 32
  databases : Members.Ordered c.databases
  poolSettings : c.poolSettings.Regular
  querySettings : c.querySettings.Regular

/-! ### Files are decoded from what they are written as -/

theorem Decode.encodes_ofOption {α : Type} {d : Decoder α} {f : α → Json} {o : Option α}
    (hnull : ∀ a, f a ≠ .null) (h : ∀ a ∈ o, Encodes d (f a) a) :
    Encodes (nullable d) (.ofOption f o) o := by
  cases o with
  | none => exact encodes_null d
  | some a => exact (h a rfl).nullable (hnull a)

/-- A member that is left out when it is the default. -/
theorem Layout.Fits.memberUnless {α : Type} [DecidableEq α] {αs : List Type} {name : String}
    {d : Decoder α} {f : α → Json} {standard a : α} {rest : Layout αs} {members : List (String × Json)}
    {values : Values αs} (h : Encodes d (f a) a) (t : rest.Fits members values) :
    (Layout.cons (.withDefault name d standard) rest).Fits
      (ConfigurationFile.memberUnless name f standard a ++ members) (a, values) := by
  unfold ConfigurationFile.memberUnless
  split
  next heq => exact .absent (congrArg some heq.symm) t
  next => exact .present h t

theorem Secret.encodes (s : Secret) : Encodes Secret.decoder s.json s := by
  cases s with
  | plain value =>
    refine encodes_untagged "Secret" trivial fun node hnode => ?_
    cases hnode
    rfl
  | fromVariable name =>
    have hvariable : Encodes variableDecoder (fromVariable name).json (fromVariable name) :=
      encodes_record "Secret" (by decide) (.required (encodes_string name) .nil) rfl
    refine encodes_untagged "Secret" hvariable.regular fun node hnode => ?_
    have hdecode := hvariable.decode .buffered node hnode
    cases hnode
    simp only [hdecode]
    rfl

theorem DatabaseSettings.encodes (s : DatabaseSettings) : Encodes DatabaseSettings.decoder s.json s :=
  encodes_record "DatabaseSettings" (by decide)
    (.required s.path.encodes <|
      .withDefault (encodes_boolean s.readOnly) <|
      .withDefault (encodes_boolean s.createIfMissing) .nil)
    rfl

theorem PoolSettings.encodes {s : PoolSettings} (h : s.Regular) : Encodes PoolSettings.decoder s.json s :=
  encodes_record "PoolSettings" (by decide)
    (.withDefault (encodes_unsigned (by decide) h.maxConnections) <|
      .withDefault (encodes_unsigned (by decide) h.poolTimeout) <|
      .withDefault (encodes_ofOption (by simp [Json.nat]) fun n hn =>
        encodes_unsigned (by decide) (h.idleTimeout n hn)) <|
      .withDefault (encodes_ofOption (by simp [Json.nat]) fun n hn =>
        encodes_unsigned (by decide) (h.connectionLifetime n hn)) .nil)
    rfl

theorem QuerySettings.encodes {s : QuerySettings} (h : s.Regular) :
    Encodes QuerySettings.decoder s.json s := by
  have htimeout : (Layout.cons (.optional "timeoutSeconds" (unsigned 64)) .nil).Fits
      (Json.memberIfSome "timeoutSeconds" .nat s.timeoutSeconds) (s.timeoutSeconds, ()) := by
    rw [← List.append_nil (Json.memberIfSome "timeoutSeconds" .nat s.timeoutSeconds)]
    exact .optional (by simp [Json.nat])
      (fun n hn => encodes_unsigned (by decide) (h.timeoutSeconds n hn)) .nil
  exact encodes_record "QuerySettings" (by decide)
    (.withDefault (encodes_boolean s.debugTags) <|
      .withDefault (encodes_unsigned (by decide) h.maxRelationshipDepth) <|
      .withDefault (encodes_unsigned (by decide) h.maxPathLength) htimeout)
    rfl

namespace ConfigurationFile

/-- The document of a file, member by member. -/
theorem json_eq (c : ConfigurationFile) : c.json = .obj
    (("version", .nat c.version) :: (Json.memberIfSome "$schema" .str c.schema ++
    (("databases", .obj (c.databases.map fun member => (member.1, member.2.json))) ::
    (Json.memberIfSome "defaultDatabase" .str c.defaultDatabase ++
    (memberUnless "poolSettings" PoolSettings.json {} c.poolSettings ++
    (memberUnless "querySettings" QuerySettings.json {} c.querySettings ++ [])))))) := by
  simp only [json, List.append_assoc, List.cons_append, List.nil_append, List.append_nil]

theorem encodes {c : ConfigurationFile} (h : c.Regular) : Encodes decoder c.json c := by
  -- One step for each member, in the order in which the document and the layout both have them.
  rw [json_eq]
  refine encodes_record "ParsedConfiguration" (by decide)
    (.required (encodes_unsigned (by decide) h.version) <|
      .optional (by simp) (fun s _ => encodes_string s) <|
      .withDefault (encodes_members (fun member _ => member.2.encodes) h.databases.nodup) <|
      .optional (by simp) (fun s _ => encodes_string s) <|
      .memberUnless (PoolSettings.encodes h.poolSettings) <|
      .memberUnless (QuerySettings.encodes h.querySettings) .nil) ?_
  simp only [Members.sorted_of_ordered h.databases]

end ConfigurationFile

/-! ### What is decoded is regular -/

section

variable {m : Mode} {node : Node} {name : String} {bits : Nat}

theorem lt_of_makes {standard n : Nat} (hstandard : standard < Nat.pow 2 bits)
    (h : (Slot.withDefault name (unsigned bits) standard).Makes n) : n < Nat.pow 2 bits := by
  rcases Slot.makes_withDefault h with ⟨m, node, hn⟩ | rfl
  · exact lt_of_unsigned hn
  · exact hstandard

theorem lt_of_makes_nullable {standard o : Option Nat} (hstandard : ∀ n ∈ standard, n < Nat.pow 2 bits)
    (h : (Slot.withDefault name (nullable (unsigned bits)) standard).Makes o) :
    ∀ n ∈ o, n < Nat.pow 2 bits := by
  rcases Slot.makes_withDefault h with ⟨m, node, ho⟩ | rfl
  · intro n hn
    exact lt_of_unsigned (made_of_nullable ho hn)
  · exact hstandard

theorem PoolSettings.regular_of_decoder {s : PoolSettings}
    (h : PoolSettings.decoder m node = .ok s) : s.Regular := by
  obtain ⟨⟨maxConnections, poolTimeout, idleTimeout, connectionLifetime, ⟨⟩⟩,
    ⟨hmax, htimeout, hidle, hlifetime, -⟩, rfl⟩ := made_of_record h
  exact ⟨lt_of_makes (by decide) hmax, lt_of_makes (by decide) htimeout,
    lt_of_makes_nullable (by decide) hidle, lt_of_makes_nullable (by decide) hlifetime⟩

theorem QuerySettings.regular_of_decoder {s : QuerySettings}
    (h : QuerySettings.decoder m node = .ok s) : s.Regular := by
  obtain ⟨⟨debugTags, maxRelationshipDepth, maxPathLength, timeoutSeconds, ⟨⟩⟩,
    ⟨-, hdepth, hpath, htimeout, -⟩, rfl⟩ := made_of_record h
  exact ⟨lt_of_makes (by decide) hdepth, lt_of_makes (by decide) hpath,
    lt_of_makes_nullable (by simp) htimeout⟩

theorem ConfigurationFile.regular_of_decoder {c : ConfigurationFile}
    (h : ConfigurationFile.decoder m node = .ok c) : c.Regular := by
  obtain ⟨⟨version, schema, databases, defaultDatabase, poolSettings, querySettings, ⟨⟩⟩,
    ⟨hversion, -, hdatabases, -, hpool, hquery, -⟩, rfl⟩ := made_of_record h
  refine ⟨?_, Members.ordered_sorted ?_, ?_, ?_⟩
  · obtain ⟨m, node, hversion⟩ := Slot.makes_required hversion
    exact lt_of_unsigned hversion
  · rcases Slot.makes_withDefault hdatabases with ⟨m, node, hmembers⟩ | rfl
    · -- A name that is there twice has been merged before the names are put in order.
      obtain ⟨entries, -, rfl⟩ := map_eq_ok_iff.1 hmembers
      exact Members.nodup_ofList entries
    · exact List.nodup_nil
  · rcases Slot.makes_withDefault hpool with ⟨m, node, hpool⟩ | rfl
    · exact PoolSettings.regular_of_decoder hpool
    · exact PoolSettings.regular_default
  · rcases Slot.makes_withDefault hquery with ⟨m, node, hquery⟩ | rfl
    · exact QuerySettings.regular_of_decoder hquery
    · exact QuerySettings.regular_default

end

theorem Decode.exists_of_decodeString {α : Type} {d : Decoder α} {text : String} {a : α}
    (h : decodeString d text = .ok a) : ∃ node, d .direct node = .ok a := by
  obtain ⟨b, hb, h⟩ := bind_eq_ok_iff.1 h
  split at h
  next =>
    cases h
    exact ⟨_, hb⟩
  next => cases h

/-! ### Nesting -/

theorem DatabaseSettings.depth_json_le (s : DatabaseSettings) : s.json.depth ≤ 2 := by
  obtain ⟨path, readOnly, createIfMissing⟩ := s
  cases path <;> exact Nat.le_of_ble_eq_true rfl

theorem QuerySettings.depth_json_le (s : QuerySettings) : s.json.depth ≤ 1 := by
  obtain ⟨debugTags, maxRelationshipDepth, maxPathLength, timeoutSeconds⟩ := s
  cases timeoutSeconds <;> exact Nat.le_of_ble_eq_true rfl

theorem PoolSettings.depth_json_le (s : PoolSettings) : s.json.depth ≤ 1 := by
  obtain ⟨maxConnections, poolTimeout, idleTimeout, connectionLifetime⟩ := s
  cases idleTimeout <;> cases connectionLifetime <;> exact Nat.le_of_ble_eq_true rfl

theorem Json.depth_memberIfSome_le {α : Type} {f : α → Json} {n : Nat} (h : ∀ a, (f a).depth ≤ n)
    (key : String) (o : Option α) : ∀ member ∈ memberIfSome key f o, member.2.depth ≤ n := by
  cases o with
  | none => simp [memberIfSome]
  | some a => simpa [memberIfSome] using h a

theorem ConfigurationFile.depth_memberUnless_le {α : Type} [DecidableEq α] {f : α → Json} {n : Nat}
    (h : ∀ a, (f a).depth ≤ n) (key : String) (standard a : α) :
    ∀ member ∈ memberUnless key f standard a, member.2.depth ≤ n := by
  unfold memberUnless
  split
  next => simp
  next => simpa using h a

theorem ConfigurationFile.depth_json_le (c : ConfigurationFile) : c.json.depth ≤ 4 := by
  -- The deepest is the name of a variable: the document, its databases, one of them, its path.
  have hdatabases : (Json.obj (c.databases.map fun member => (member.1, member.2.json))).depth ≤ 3 := by
    refine Nat.succ_le_succ (Json.membersDepth_le_iff.2 (List.forall_mem_map.2 fun member _ => ?_))
    exact member.2.depth_json_le
  rw [json_eq]
  refine Nat.succ_le_succ (Json.membersDepth_le_iff.2 ?_)
  simp only [List.forall_mem_cons, List.forall_mem_append, List.not_mem_nil, false_implies, implies_true,
    and_true]
  exact ⟨Nat.zero_le 3, Json.depth_memberIfSome_le (fun _ => Nat.zero_le 3) _ _, hdatabases,
    Json.depth_memberIfSome_le (fun _ => Nat.zero_le 3) _ _,
    depth_memberUnless_le (fun s => s.depth_json_le.trans (by decide)) _ _ _,
    depth_memberUnless_le (fun s => s.depth_json_le.trans (by decide)) _ _ _⟩

/-! ### Members -/

/-- The value of a member of a document. -/
def Json.member? : Json → String → Option Json
  | .obj members, key => Members.get? members key
  | _, _              => none

theorem Json.mem_keys_memberIfSome {α : Type} {f : α → Json} {o : Option α} {key other : String} :
    other ∈ (memberIfSome key f o).map Prod.fst ↔ other = key ∧ o ≠ none := by
  cases o <;> simp [memberIfSome]

theorem Json.ofOption_eq_null_iff {α : Type} {f : α → Json} (h : ∀ a, f a ≠ .null) {o : Option α} :
    Json.ofOption f o = .null ↔ o = none := by
  cases o with
  | none => simp [Json.ofOption]
  | some a => simpa [Json.ofOption] using h a

namespace ConfigurationFile

theorem mem_keys_memberUnless {α : Type} [DecidableEq α] {f : α → Json} {standard a : α}
    {key other : String} :
    other ∈ (memberUnless key f standard a).map Prod.fst ↔ other = key ∧ a ≠ standard := by
  by_cases ha : a = standard <;> simp [memberUnless, ha]

/-- The keys of the document of a file. -/
theorem member?_json_eq_none_iff (c : ConfigurationFile) (key : String) :
    c.json.member? key = none ↔
      key ≠ "version" ∧ key ≠ "databases" ∧ (key = "$schema" → c.schema = none) ∧
      (key = "defaultDatabase" → c.defaultDatabase = none) ∧
      (key = "poolSettings" → c.poolSettings = {}) ∧ (key = "querySettings" → c.querySettings = {}) := by
  rw [json_eq, Json.member?, Members.get?_eq_none_iff]
  simp only [List.map_cons, List.map_append, List.append_nil, List.mem_cons, List.mem_append,
    Json.mem_keys_memberIfSome, mem_keys_memberUnless, not_or, not_and, not_not]
  tauto

/-- **A file is decoded from its own text**: from the compact text of its document and from every other
text of it. Files that are decoded from some text are those whose numbers have the bits that are read and
whose databases are a map in the order of their names. Settings are left out of the document if and only
if they are the default, and a time in them is null if and only if it is absent. -/
theorem decode_written (c : ConfigurationFile) :
    (c.Regular → decodeString decoder c.json.print = .ok c ∧
      ∀ text, c.json.SpelledBy text → decodeString decoder text = .ok c) ∧
    (c.Regular ↔ ∃ text, decodeString decoder text = .ok c) ∧
    (c.json.member? "poolSettings" = none ↔ c.poolSettings = {}) ∧
    (c.json.member? "querySettings" = none ↔ c.querySettings = {}) ∧
    (c.poolSettings.json.member? "idleTimeout" = some .null ↔ c.poolSettings.idleTimeout = none) ∧
    (c.poolSettings.json.member? "connectionLifetime" = some .null ↔
      c.poolSettings.connectionLifetime = none) := by
  have hdepth : c.json.depth ≤ Node.depthLimit := c.depth_json_le.trans (by decide)
  have hnat : ∀ n, Json.nat n ≠ .null := fun n => by simp [Json.nat]
  refine ⟨fun h => ?_, ⟨fun h => ?_, ?_⟩, ?_, ?_, ?_, ?_⟩
  · exact ⟨(encodes h).decodeString_print hdepth, fun text => (encodes h).decodeString_spelled⟩
  · exact ⟨c.json.print, (encodes h).decodeString_print hdepth⟩
  · rintro ⟨text, htext⟩
    obtain ⟨node, hnode⟩ := exists_of_decodeString htext
    exact regular_of_decoder hnode
  · simp [member?_json_eq_none_iff]
  · simp [member?_json_eq_none_iff]
  · rw [← Json.ofOption_eq_null_iff hnat]
    exact Option.some_inj
  · rw [← Json.ofOption_eq_null_iff hnat]
    exact Option.some_inj

end ConfigurationFile

namespace Music

/-- A file with settings of its own: connections are never given up, and statements never end by
themselves. -/
def racks : ConfigurationFile :=
  { version := 7
    schema := some "schema.json"
    databases :=
      [("Zappa", { path := .plain "zappa.db", createIfMissing := true }),
       ("abba", { path := .fromVariable "ABBA", readOnly := false })]
    poolSettings := { idleTimeout := none, connectionLifetime := none, maxConnections := 4294967295 } }

theorem regular_racks : racks.Regular where
  version := by decide
  databases := by
    rw [Members.ordered_iff]
    decide
  poolSettings := ⟨by decide, by decide, by simp [racks], by simp [racks]⟩
  querySettings := QuerySettings.regular_default

/-- The times that are null are not mistaken for those that are left out. -/
theorem racks_decode_written :
    racks.Regular ∧ racks.json.member? "querySettings" = none ∧
      racks.poolSettings.json.member? "idleTimeout" = some .null ∧
      decodeString ConfigurationFile.decoder racks.json.print = .ok racks := by
  obtain ⟨hdecode, -, -, hquery, hidle, -⟩ := racks.decode_written
  exact ⟨regular_racks, hquery.2 rfl, hidle.2 rfl, (hdecode regular_racks).1⟩

end Music

end DataAgent
