import DataAgent.Request.Decode
import DataAgent.Proofs.Json.Decoding
import DataAgent.Proofs.Request.Meaning
import DataAgent.Proofs.Request.Scalars
import Mathlib

/-!
# Proofs — Request — Encoding

A request is decoded from its own text (`Request.decode_print`). What is asked of the request is what
the types of its parts promise (`Request.Regular`): no map has a key twice, scalars hold integers of
sixty-four bits, and the bounds of a page have thirty-two. What is asked of its text is that it nests no
deeper than a close reading goes.

Each part of a request has one lemma, which says that its document encodes it for its decoder
(`Decode.Encodes`), in either mode, so that it does not matter which parts are read as content of a
tagged choice. Filters and fields are decoded with a number of levels; that of their documents' nesting
suffices.
-/

namespace DataAgent

open Decode

/-! ### Regular requests -/

/-- No two relationships have one name, and none maps a column twice. -/
structure TableRelationships.Regular (t : TableRelationships) : Prop where
  names : (t.relationships.map Prod.fst).Nodup
  mappings : ∀ member ∈ t.relationships, (member.2.mapping.map Prod.fst).Nodup

mutual

/-- Fields and aggregates have different keys, scalars are regular, and the page has bounds of
thirty-two bits. -/
def Query.Regular : Query → Prop
  | ⟨fields, aggregates, filter, _, limit, offset⟩ =>
    fieldsRegular fields ∧ (∀ members ∈ aggregates, (members.map Prod.fst).Nodup) ∧
      (∀ f ∈ filter, ∀ scalar ∈ f.scalars, scalar.Regular) ∧
      (∀ n ∈ limit, n < Nat.pow 2 32) ∧ (∀ n ∈ offset, n < Nat.pow 2 32)

/-- Fields, if there are any, have different keys and are regular. -/
def fieldsRegular : Option (List (String × Field)) → Prop
  | none        => True
  | some fields => (fields.map Prod.fst).Nodup ∧ membersRegular fields

/-- All of some fields are regular. -/
def membersRegular : List (String × Field) → Prop
  | []                   => True
  | (_, field) :: fields => field.Regular ∧ membersRegular fields

/-- The query of a field is regular. -/
def Field.Regular : Field → Prop
  | .column _             => True
  | .relationship _ query => query.Regular

end

/-- The relationships and the query are regular. -/
structure Request.Regular (r : Request) : Prop where
  relationships : ∀ t ∈ r.relationships, t.Regular
  query : r.query.Regular

theorem membersRegular_iff {fields : List (String × Field)} :
    membersRegular fields ↔ ∀ member ∈ fields, member.2.Regular := by
  induction fields with
  | nil => simp [membersRegular]
  | cons member fields ih => simp [membersRegular, ih]

theorem Query.regular_iff {q : Query} : q.Regular ↔
    (∀ fields ∈ q.fields, (fields.map Prod.fst).Nodup ∧ ∀ member ∈ fields, member.2.Regular) ∧
      (∀ members ∈ q.aggregates, (members.map Prod.fst).Nodup) ∧
      (∀ f ∈ q.filter, ∀ scalar ∈ f.scalars, scalar.Regular) ∧
      (∀ n ∈ q.limit, n < Nat.pow 2 32) ∧ (∀ n ∈ q.offset, n < Nat.pow 2 32) := by
  obtain ⟨fields, aggregates, filter, orderBy, limit, offset⟩ := q
  cases fields <;> simp [Query.Regular, fieldsRegular, membersRegular_iff]

theorem Filter.mem_listScalars {filters : List Filter} {filter : Filter} (h : filter ∈ filters)
    {scalar : Json} (hscalar : scalar ∈ filter.scalars) : scalar ∈ Filter.listScalars filters := by
  induction filters with
  | nil => exact absurd h List.not_mem_nil
  | cons first filters ih =>
    rw [Filter.listScalars, List.mem_append]
    rcases List.mem_cons.1 h with rfl | hrest
    · exact .inl hscalar
    · exact .inr (ih hrest)

/-! ### Documents of lists -/

theorem filtersJson_eq (filters : List Filter) : filtersJson filters = filters.map Filter.json := by
  induction filters with
  | nil => rfl
  | cons filter filters ih => rw [filtersJson, ih, List.map_cons]

theorem fieldsJson_eq (fields : List (String × Field)) :
    fieldsJson fields = fields.map fun member => (member.1, member.2.json) := by
  induction fields with
  | nil => rfl
  | cons member fields ih => rw [fieldsJson, ih, List.map_cons]

/-- The document of a query, member by member. -/
theorem Query.json_eq (q : Query) : q.json = .obj
    (Json.memberIfSome "fields"
      (fun fields => .obj (fields.map fun member => (member.1, member.2.json))) q.fields ++
    (Json.memberIfSome "aggregates"
      (fun aggregates => .obj (aggregates.map fun member => (member.1, member.2.json))) q.aggregates ++
    (Json.memberIfSome "where" Filter.json q.filter ++
    (Json.memberIfSome "order_by" (fun orders => .arr (orders.map OrderBy.json)) q.orderBy ++
    (Json.memberIfSome "limit" Json.nat q.limit ++
    (Json.memberIfSome "offset" Json.nat q.offset ++ [])))))) := by
  obtain ⟨fields, aggregates, filter, orderBy, limit, offset⟩ := q
  have hfields : fieldsMember fields = Json.memberIfSome "fields"
      (fun fields => .obj (fields.map fun member => (member.1, member.2.json))) fields := by
    cases fields with
    | none => rfl
    | some fields => rw [fieldsMember, fieldsJson_eq]; rfl
  rw [Query.json, hfields]
  simp only [List.append_assoc, List.append_nil]

/-! ### Nesting -/

theorem Json.depth_lt_arr {items : List Json} {item : Json} (h : item ∈ items) :
    item.depth < (Json.arr items).depth :=
  Nat.lt_succ_of_le (Json.itemsDepth_le_iff.1 (Nat.le_refl _) item h)

theorem Json.depth_lt_obj {members : List (String × Json)} {key : String} {j : Json}
    (h : (key, j) ∈ members) : j.depth < (Json.obj members).depth :=
  Nat.lt_succ_of_le (Json.membersDepth_le_iff.1 (Nat.le_refl _) (key, j) h)

theorem Query.depth_filter {q : Query} {filter : Filter} (h : q.filter = some filter) :
    filter.json.depth < q.json.depth := by
  have hmember : ("where", filter.json) ∈ Json.memberIfSome "where" Filter.json q.filter := by
    rw [h]
    exact List.mem_singleton_self _
  rw [Query.json_eq]
  apply Json.depth_lt_obj
  exact List.mem_append_right _ (List.mem_append_right _ (List.mem_append_left _ hmember))

theorem Query.depth_field {q : Query} {fields : List (String × Field)} (h : q.fields = some fields)
    {member : String × Field} (hmember : member ∈ fields) :
    member.2.json.depth < q.json.depth := by
  have hfield : member.2.json.depth <
      (Json.obj (fields.map fun member => (member.1, member.2.json))).depth := by
    have hmem : (member.1, member.2.json) ∈ fields.map fun member => (member.1, member.2.json) :=
      List.mem_map_of_mem hmember
    exact Json.depth_lt_obj hmem
  refine hfield.trans ?_
  rw [Query.json_eq, h]
  exact Json.depth_lt_obj (List.mem_append_left _ (List.mem_singleton_self ("fields", _)))

/-! ### Parts of requests -/

theorem Direction.encodes (direction : Direction) :
    Encodes Direction.decoder direction.json direction := by
  cases direction <;> exact encodes_choice rfl

theorem RelationshipKind.encodes (kind : RelationshipKind) :
    Encodes RelationshipKind.decoder kind.json kind := by
  cases kind <;> exact encodes_choice rfl

theorem Relationship.encodes {r : Relationship} (h : (r.mapping.map Prod.fst).Nodup) :
    Encodes Relationship.decoder r.json r :=
  encodes_record "Relationship" (by decide)
    (.required (encodes_string r.target) <|
      .required r.kind.encodes <|
      .required (encodes_members (fun member _ => encodes_string member.2) h) .nil)
    rfl

theorem TableRelationships.encodes {t : TableRelationships} (h : t.Regular) :
    Encodes TableRelationships.decoder t.json t :=
  encodes_record "TableRelationships" (by decide)
    (.required (encodes_string t.source) <|
      .required (encodes_members (fun member hmember => Relationship.encodes (h.mappings member hmember))
        h.names) .nil)
    rfl

theorem ColumnPath.encodes (c : ColumnPath) : Encodes ColumnPath.decoder c.json c :=
  encodes_record "ComparisonColumn" (by decide)
    (.withDefault (encodes_list fun name _ => encodes_string name) <|
      .required (encodes_string c.name) .nil)
    rfl

theorem Operand.encodes {operand : Operand} (h : ∀ scalar ∈ operand.scalars, scalar.Regular) :
    Encodes Operand.decoder operand.json operand := by
  cases operand with
  | column c =>
    exact encodes_taggedRecord "ComparisonValue" (by rfl) (by decide) (.required c.encodes .nil) (by rfl)
  | scalar value =>
    have hvalue := encodes_any (h value (List.mem_singleton_self value))
    exact encodes_taggedRecord "ComparisonValue" (by rfl) (by decide) (.required hvalue .nil) (by rfl)

theorem Aggregate.encodes (a : Aggregate) : Encodes Aggregate.decoder a.json a := by
  cases a with
  | rowCount =>
    exact encodes_tagged "Aggregate" (by rfl) (List.nodup_singleton _) trivial fun _ _ => by rfl
  | columnCount c distinct =>
    exact encodes_taggedRecord "Aggregate" (by rfl) (by decide)
      (.required (encodes_string c) <| .withDefault (encodes_boolean distinct) .nil) (by rfl)
  | single c function =>
    exact encodes_taggedRecord "Aggregate" (by rfl) (by decide)
      (.required (encodes_string c) <| .required (encodes_string function) .nil) (by rfl)

theorem OrderBy.encodes (o : OrderBy) : Encodes OrderBy.decoder o.json o :=
  encodes_record "OrderBy" (by decide)
    (.required (encodes_string o.column) <| .present o.direction.encodes .nil) rfl

/-! ### Filters -/

/-- What stands beside a tag nests less deep than the choice. -/
theorem depth_content {tag key : String} {members : List (String × Json)} {j : Json} {levels : Nat}
    (h : (Json.obj (("type", .str tag) :: members)).depth ≤ levels + 1) (hj : (key, j) ∈ members) :
    j.depth ≤ levels :=
  Nat.le_of_lt_succ ((Json.depth_lt_obj (List.mem_cons_of_mem _ hj)).trans_le h)

/-- A filter whose document nests no deeper than there are levels. -/
theorem Filter.encodes (filter : Filter) (levels : Nat) (hdepth : filter.json.depth ≤ levels)
    (h : ∀ scalar ∈ filter.scalars, scalar.Regular) :
    Encodes (Filter.decoder levels) filter.json filter := by
  -- The induction is on the levels, not on the filter: a step down a document is one of its decoder.
  induction levels generalizing filter with
  | zero => cases filter <;> exact absurd hdepth (Nat.not_succ_le_zero _)
  | succ levels ih =>
    rw [funext₂ fun m node => Filter.decoder.eq_2 m node levels]
    have hlist : ∀ filters : List Filter, (Json.arr (filters.map Filter.json)).depth ≤ levels →
        (∀ scalar ∈ Filter.listScalars filters, scalar.Regular) →
        Encodes (Decode.list (Filter.decoder levels)) (.arr (filters.map Filter.json)) filters := by
      intro filters hdepth h
      refine encodes_list fun filter hfilter => ih filter ?_ fun scalar hscalar =>
        h scalar (Filter.mem_listScalars hfilter hscalar)
      exact (Json.depth_lt_arr (List.mem_map_of_mem hfilter)).le.trans hdepth
    cases filter with
    | and filters =>
      rw [Filter.json, filtersJson_eq] at hdepth ⊢
      have hfilters := hlist filters (depth_content hdepth (List.mem_cons_self ..)) h
      exact encodes_taggedRecord "Expression" (by rfl) (by simp [Layout.keys, Slot.required])
        (.required hfilters .nil) (by rfl)
    | or filters =>
      rw [Filter.json, filtersJson_eq] at hdepth ⊢
      have hfilters := hlist filters (depth_content hdepth (List.mem_cons_self ..)) h
      exact encodes_taggedRecord "Expression" (by rfl) (by simp [Layout.keys, Slot.required])
        (.required hfilters .nil) (by rfl)
    | not filter =>
      have hfilter := ih filter (depth_content hdepth (List.mem_cons_self ..)) h
      exact encodes_taggedRecord "Expression" (by rfl) (by simp [Layout.keys, Slot.required])
        (.required hfilter .nil) (by rfl)
    | unary operator column =>
      exact encodes_taggedRecord "Expression" (by rfl) (by decide)
        (.required (encodes_string operator) <| .required column.encodes .nil) (by rfl)
    | binary operator column operand =>
      exact encodes_taggedRecord "Expression" (by rfl) (by decide)
        (.required (encodes_string operator) <|
          .required column.encodes <|
          .required (Operand.encodes h) .nil)
        (by rfl)
    | list operator column values =>
      have hvalues : Encodes (Decode.list any) (.arr values) values := by
        have hvalues := encodes_list (f := id) fun value (hvalue : value ∈ values) =>
          encodes_any (h value hvalue)
        rwa [List.map_id] at hvalues
      exact encodes_taggedRecord "Expression" (by rfl) (by decide)
        (.required (encodes_string operator) <|
          .required column.encodes <|
          .required hvalues .nil)
        (by rfl)

/-! ### Queries -/

/-- A query, given that the fields which nest less deep are encoded. -/
theorem Query.encodes {d : Decoder Field} {q : Query} (hq : q.Regular)
    (hdepth : q.json.depth ≤ Request.levels)
    (hfield : ∀ field : Field, field.json.depth < q.json.depth → field.Regular →
      Encodes d field.json field) :
    Encodes (Query.decoderOf d) q.json q := by
  obtain ⟨hfields, haggregates, hfilter, hlimit, hoffset⟩ := Query.regular_iff.1 hq
  have hlevels : ∀ filter ∈ q.filter, filter.json.depth ≤ Request.levels :=
    fun filter h => (Query.depth_filter h).le.trans hdepth
  have hnull : ∀ filter : Filter, filter.json ≠ .null := by
    intro filter
    cases filter <;> exact nofun
  rw [Query.json_eq]
  refine encodes_record "Query" (by simp [Layout.keys, Slot.optional, Slot.withDefault])
    (.optional (fun _ => nofun) ?fields <|
      .optional (fun _ => nofun) ?aggregates <|
      .optional hnull ?filter <|
      .optional (fun _ => nofun) ?order <|
      .optional (fun _ => nofun) ?limit <|
      .optional (fun _ => nofun) ?offset .nil)
    (by cases q; rfl)
  case fields =>
    intro fields h
    obtain ⟨hkeys, hregular⟩ := hfields fields h
    exact encodes_members (fun member hmember =>
      hfield member.2 (Query.depth_field h hmember) (hregular member hmember)) hkeys
  case aggregates =>
    intro aggregates h
    exact encodes_members (fun member _ => member.2.encodes) (haggregates aggregates h)
  case filter =>
    intro filter h
    exact filter.encodes Request.levels (hlevels filter h) (hfilter filter h)
  case order =>
    intro orders _
    exact encodes_list fun order _ => order.encodes
  case limit =>
    intro n h
    exact encodes_unsigned (by decide) (hlimit n h)
  case offset =>
    intro n h
    exact encodes_unsigned (by decide) (hoffset n h)

/-- A field whose document nests no deeper than there are levels. -/
theorem Field.encodes (field : Field) (levels : Nat) (hlevels : levels ≤ Request.levels)
    (hdepth : field.json.depth ≤ levels) (h : field.Regular) :
    Encodes (Field.decoder levels) field.json field := by
  induction levels generalizing field with
  | zero => cases field <;> exact absurd hdepth (Nat.not_succ_le_zero _)
  | succ levels ih =>
    rw [funext₂ fun m node => Field.decoder.eq_2 m node levels]
    cases field with
    | column name =>
      exact encodes_taggedRecord "Field" (by rfl) (by decide) (.required (encodes_string name) .nil)
        (by rfl)
    | relationship name q =>
      have hq : q.json.depth ≤ levels :=
        depth_content hdepth (List.mem_cons_of_mem _ (List.mem_cons_self ..))
      have hless : levels ≤ Request.levels := Nat.le_of_succ_le hlevels
      have hquery : Encodes (Query.decoderOf (Field.decoder levels)) q.json q :=
        Query.encodes h (hq.trans hless) fun field hlt hregular =>
          ih field hless (hlt.le.trans hq) hregular
      exact encodes_taggedRecord "Field" (by rfl) (by simp [Layout.keys, Slot.required])
        (.required (encodes_string name) <| .required hquery .nil) (by rfl)

theorem Request.encodes {r : Request} (h : r.Regular) (hdepth : r.json.depth ≤ Request.levels) :
    Encodes Request.decoder r.json r := by
  have hq : r.query.json.depth < r.json.depth :=
    Json.depth_lt_obj (List.mem_cons_of_mem _ (List.mem_cons_of_mem _ (List.mem_cons_self ..)))
  have hquery : Encodes Query.decoder r.query.json r.query :=
    Query.encodes h.query (hq.le.trans hdepth) fun field hlt hregular =>
      field.encodes Request.levels (Nat.le_refl _) ((hlt.trans hq).le.trans hdepth) hregular
  exact encodes_record "QueryRequest" (by decide)
    (.required (encodes_string r.table) <|
      .withDefault (encodes_list fun t ht => TableRelationships.encodes (h.relationships t ht)) <|
      .required hquery .nil)
    rfl

/-- **A request is decoded from its own text**: all of it, in the order in which it was written. -/
theorem Request.decode_print {r : Request} (h : r.Regular) (hdepth : r.json.depth ≤ 127) :
    decodeString Request.decoder r.json.print = .ok r :=
  (Request.encodes h (hdepth.trans (by decide))).decodeString_print hdepth

namespace Music

/-- Albums by a filter of every form, and their artists, of whom nothing is asked. -/
def search : Request :=
  { table := "Album"
    relationships
    query :=
      { fields := some
          [("title", .column "Title"),
           ("artist", .relationship "Artist"
            { fields := some [], aggregates := some [], orderBy := some [], limit := some 4294967295 })]
        aggregates := some
          [("rows", .rowCount), ("artists", .columnCount "ArtistId" true),
           ("last", .single "AlbumId" "max")]
        filter := some (.and
          [.or [], .not (.unary "is_null" { name := "Title" }), titleBeforeName,
           .binary "equal" { path := ["Artist"], name := "Name" }
            (.scalar (.obj [("b", .num (.int 18446744073709551615)),
              ("a", .arr [.num (.int (-9223372036854775808)), .null])])),
           .list "in" { name := "Title" } [.str "\"\\\n\x01é", .bool true]])
        offset := some 0 } }

theorem relationships_regular : ∀ t ∈ relationships, t.Regular := by
  intro t ht
  simp only [relationships, List.mem_cons, List.not_mem_nil, or_false] at ht
  rcases ht with rfl | rfl <;> exact ⟨by decide, by simp⟩

theorem search_regular : search.Regular where
  relationships := relationships_regular
  query := by
    simp [search, titleBeforeName, Query.Regular, fieldsRegular, membersRegular, Field.Regular,
      Filter.scalars, Filter.listScalars, Operand.scalars, Json.Regular, Json.RegularItems,
      Json.RegularMembers]

theorem search_decode_print :
    search.Regular ∧ search.json.depth ≤ 127 ∧
      decodeString Request.decoder search.json.print = .ok search := by
  have hdepth : search.json.depth ≤ 127 := by decide
  exact ⟨search_regular, hdepth, Request.decode_print search_regular hdepth⟩

end Music

end DataAgent
