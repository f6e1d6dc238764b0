import DataAgent.Response.Rows
import DataAgent.Proofs.Compile.Answer
import DataAgent.Proofs.Json.Compact
import DataAgent.Proofs.Json.Places
import Mathlib

/-!
# Proofs — Response — Shapes

What the statement of a query yields is a document, and what the caller gets is the answer decoded from
its text. An answer has no tag: rows are tried first, then a row set, which would take an array as well.
The document of a query without aggregates is an array of objects, and that of a query with aggregates
an object that has them first and then, if there are fields, the rows (`Query.Shape`). From any text of
such a document comes the answer of the right kind, and its own text is the compact text of the document
(`QueryResponse.decode_shape`).

One statement fails to yield a document of that shape: that of a query which asks for aggregates and names
none has null in their place when no row is on the page (`Query.Unsummarised`), where the query denotes an
empty object. A null is read as what is not there, so what is decoded has no aggregates and does not answer
the query (`Music.summary_dropped`).
-/

namespace DataAgent

open Decode

/-! ### Answers -/

namespace QueryResponse

/-- A row is written as an object and read as one. -/
theorem encodes_row {row : Row} (h : (Json.obj row).Regular) : Encodes (members any) (.obj row) row := by
  have hvalues := Json.regularMembers_iff.1 h.2
  simpa using encodes_members (f := id) (fun member hmember => encodes_any (hvalues member hmember)) h.1

theorem encodes_rows {items : List Row} (h : (rowsJson items).Regular) :
    Encodes rowsDecoder (rowsJson items) items := by
  have hitems := Json.regularItems_iff.1 h
  exact encodes_list fun row hrow => encodes_row (hitems _ (List.mem_map_of_mem hrow))

/-- A list of objects is rows, though a row set may be written as a list. -/
theorem encodes_ofRows {items : List Row} (h : (rowsJson items).Regular) :
    Encodes decoder (rowsJson items) (.rows items) := by
  refine encodes_untagged "QueryResponse" h fun node hnode => ?_
  simp only [(encodes_rows h).decode .buffered node hnode]
  rfl

/-- An object is no rows, so it is a row set if it is one. -/
theorem encodes_ofRowSet {ms : List (String × Json)} {r : QueryResponse}
    (h : Encodes rowSetDecoder (.obj ms) r) : Encodes decoder (.obj ms) r := by
  refine encodes_untagged "QueryResponse" h.regular fun node hnode => ?_
  have hset := h.decode .buffered node hnode
  cases hnode
  simp only [hset]
  rfl

theorem fits_rows {items : Option (List Row)} (h : ∀ rows ∈ items, (rowsJson rows).Regular) :
    (Layout.cons (.optional "rows" rowsDecoder) .nil).Fits (Json.memberIfSome "rows" rowsJson items)
      (items, ()) := by
  rw [← List.append_nil (Json.memberIfSome "rows" rowsJson items)]
  exact .optional (by simp [rowsJson]) (fun rows hrows => encodes_rows (h rows hrows)) .nil

/-- A row set whose aggregates are as they are written. -/
theorem encodes_rowSet {aggregates : Option (Members Json)} {items : Option (List Row)}
    (haggregates : ∀ row ∈ aggregates, (Json.obj row).Regular)
    (hitems : ∀ rows ∈ items, (rowsJson rows).Regular) :
    Encodes decoder (rowSet aggregates items).json (.rowSet aggregates items) :=
  encodes_ofRowSet (encodes_record "RowSet" (by decide)
    (.optional (by simp) (fun row hrow => encodes_row (haggregates row hrow)) (fits_rows hitems)) rfl)

/-- A row set with null in the place of its aggregates. -/
theorem encodes_unsummarised {items : Option (List Row)}
    (hitems : ∀ rows ∈ items, (rowsJson rows).Regular) :
    Encodes decoder (.obj (("aggregates", .null) :: Json.memberIfSome "rows" rowsJson items))
      (.rowSet none items) :=
  encodes_ofRowSet (encodes_record "RowSet" (by decide)
    (.present (encodes_null _) (fits_rows hitems)) rfl)

/-- A regular answer is decoded from the document it is written as. -/
theorem encodes (r : QueryResponse) (h : r.json.Regular) : Encodes decoder r.json r := by
  cases r with
  | rows items => exact encodes_ofRows h
  | rowSet aggregates items =>
    have hmembers := Json.regularMembers_iff.1 h.2
    refine encodes_rowSet (fun row hrow => ?_) fun rows hrows => ?_
    · cases hrow
      exact hmembers ("aggregates", .obj row) (by simp [Json.memberIfSome])
    · cases hrows
      exact hmembers ("rows", rowsJson rows) (by simp [Json.memberIfSome])

end QueryResponse

/-! ### Documents of queries -/

namespace Query

open QueryResponse (rowsJson)

/-- The documents of a query: an array of objects if it asks for no aggregates, and else an object of
the aggregates and then, if it asks for fields, of the rows. -/
inductive Shape (q : Query) : Json → Prop
  | rows (items : List Row) (h : q.aggregates = none) : Shape q (rowsJson items)
  | rowSet (aggregates : Members Json) (items : Option (List Row)) (h : q.aggregates.isSome)
      (hitems : items.isSome = q.fields.isSome) :
      Shape q (.obj (("aggregates", .obj aggregates) :: Json.memberIfSome "rows" rowsJson items))

/-- The document has null in the place of the aggregates, of which the query names none. It is not of the
shape of the query. -/
inductive Unsummarised (q : Query) : Json → Prop
  | rowSet (items : Option (List Row)) (h : q.aggregates = some [])
      (hitems : items.isSome = q.fields.isSome) :
      Unsummarised q (.obj (("aggregates", .null) :: Json.memberIfSome "rows" rowsJson items))

section

open Sql

variable {summary : Summary} {rels : List TableRelationships} {db : Database} {table : String}

theorem obj_of_fieldsDocument {row : Tuple} {fields : Option (List (String × Field))} {j : Json}
    (h : fieldsDocument summary rels db table row fields = .ok j) :
    ∃ members : Row, .obj members = j := by
  cases fields with
  | none =>
    cases h
    exact ⟨[], rfl⟩
  | some fields =>
    rw [fieldsDocument] at h
    obtain ⟨members, -, hj⟩ := bind_eq_ok_iff.1 h
    cases hj
    exact ⟨members, rfl⟩

theorem rowsJson_of_mapM {rows : List Tuple} {fields : Option (List (String × Field))} {js : List Json}
    (h : rows.mapM (fun row => fieldsDocument summary rels db table row fields) = .ok js) :
    ∃ items : List Row, rowsJson items = .arr js := by
  have hobjects : ∀ j ∈ js, ∃ members : Row, .obj members = j :=
    forall_mem_of_forall₂ (P := fun _ => True) (forall₂_of_mapM_ok h)
      (fun _ _ hrow _ => obj_of_fieldsDocument hrow) fun _ _ => trivial
  obtain ⟨items, hitems⟩ : js ∈ Set.range (List.map Json.obj) := by
    rw [Set.range_list_map]
    exact hobjects
  exact ⟨items, congrArg Json.arr hitems⟩

theorem Unsummarised.aggregates {q : Query} {j : Json} (h : q.Unsummarised j) :
    q.aggregates = some [] := by
  cases h with
  | rowSet _ h => exact h

/-- Every query has documents of its shape, but for one that asks for aggregates and names none. -/
theorem shape_document {q : Query} {candidates : List Tuple} {j : Json}
    (h : q.document .ofRows rels db table candidates = .ok j) : q.Shape j ∨ q.Unsummarised j := by
  obtain ⟨fields, aggregates, filter, orderBy, limit, offset⟩ := q
  simp only [Query.document] at h
  generalize pageRowsOf rels db table candidates filter (orderBy.getD []) limit offset = rows at h
  cases aggregates with
  | none =>
    obtain ⟨js, hjs, hj⟩ := bind_eq_ok_iff.1 h
    cases hj
    obtain ⟨items, hitems⟩ := rowsJson_of_mapM hjs
    rw [← hitems]
    exact .inl (.rows items rfl)
  | some aggregates =>
    obtain ⟨members, hmembers, h⟩ := bind_eq_ok_iff.1 h
    -- The rows are there if and only if there are fields.
    obtain ⟨items, hitems, rfl⟩ : ∃ items : Option (List Row), items.isSome = fields.isSome ∧
        j = .obj (("aggregates", Summary.ofRows rows members) ::
          Json.memberIfSome "rows" rowsJson items) := by
      cases fields with
      | none =>
        rw [if_pos (Option.isNone_none)] at h
        cases h
        exact ⟨none, rfl, rfl⟩
      | some fields =>
        rw [if_neg (by simp)] at h
        obtain ⟨js, hjs, hj⟩ := bind_eq_ok_iff.1 h
        cases hj
        obtain ⟨items, hitems⟩ := rowsJson_of_mapM hjs
        exact ⟨some items, rfl, by rw [← hitems]; rfl⟩
    unfold Summary.ofRows
    split
    next hempty =>
      refine .inr (.rowSet items ?_ hitems)
      have hlength := (forall₂_of_mapM_ok hmembers).length_eq
      simp only [Bool.and_eq_true, List.isEmpty_iff] at hempty
      rw [hempty.2, List.length_nil, List.length_eq_zero_iff] at hlength
      rw [hlength]
    next => exact .inl (.rowSet members items rfl hitems)

end

end Query

/-- A run of the statement of a request has one row with one column, a document of the query. -/
theorem Request.document_of_run {settings : QuerySettings} {r : Request} {plan : Plan}
    {db : Sql.Database} {rows : List Sql.Tuple} (h : r.compile settings = .ok plan)
    (hrun : db.run plan.select = .ok rows) :
    ∃ j, rows = [[("data", { content := .document j r.query.aggregates.isSome })]] ∧
      (r.query.Shape j ∨ r.query.Unsummarised j) := by
  obtain ⟨-, -, -, -, hcolumn⟩ := Request.compile_ok h
  rw [Sql.Database.run] at hrun
  obtain ⟨names, hcheck, hrun⟩ := bind_eq_ok_iff.1 hrun
  rw [Request.eval_compile h, hcolumn] at hrun
  cases hj : r.document .ofRows db with
  | error e =>
    rw [hj] at hrun
    cases hrun
  | ok j =>
    rw [hj] at hrun
    cases hrun
    exact ⟨j, rfl, Query.shape_document hj⟩

namespace QueryResponse

/-- The answer is of the kind of the query: rows if it asks for no aggregates, and else a row set that
has aggregates, and has rows if and only if the query asks for fields. -/
inductive Answers (q : Query) : QueryResponse → Prop
  | rows (items : List Row) (h : q.aggregates = none) : Answers q (.rows items)
  | rowSet (aggregates : Members Json) (items : Option (List Row)) (h : q.aggregates.isSome)
      (hitems : items.isSome = q.fields.isSome) : Answers q (.rowSet (some aggregates) items)

theorem answers_of_shape {q : Query} {j : Json} (h : q.Shape j) :
    ∃ r : QueryResponse, r.Answers q ∧ r.json = j := by
  cases h with
  | rows items h => exact ⟨.rows items, .rows items h, rfl⟩
  | rowSet aggregates items h hitems =>
    exact ⟨.rowSet (some aggregates) items, .rowSet aggregates items h hitems, rfl⟩

theorem not_answers_rowSet_none {q : Query} {items : Option (List Row)} :
    ¬ (rowSet none items).Answers q := by
  intro h
  cases h

/-- **The answer is decoded from the document of its query**: an answer from its own text; and from any
text of a document that is of the shape of a query an answer of the same kind, whose text is the compact
text of the document. A run of the statement of a request with that query yields a document of that shape,
unless it asks for aggregates and names none; then there may be null in their place, and what is decoded is
no answer to it but a row set that has lost them and has all else. -/
theorem decode_shape (q : Query) :
    (∀ r : QueryResponse, r.json.Regular → r.json.depth ≤ Node.depthLimit →
      decodeString decoder r.json.print = .ok r) ∧
    (∀ (j : Json) (text : String), q.Shape j → j.Regular → j.SpelledBy text →
      ∃ r, decodeString decoder text = .ok r ∧ r.Answers q ∧ r.json.print = j.print) ∧
    (∀ (j : Json) (text : String), q.Unsummarised j → j.Regular → j.SpelledBy text →
      ∃ items kept, decodeString decoder text = .ok (.rowSet none items) ∧
        ¬ (rowSet none items).Answers q ∧ items.isSome = q.fields.isSome ∧
        j = .obj (("aggregates", .null) :: kept) ∧ (rowSet none items).json = .obj kept) ∧
    (∀ j : Json, j.Regular → j.depth ≤ Node.depthLimit → j.SpelledBy j.print) ∧
    ∀ (settings : QuerySettings) (r : Request) (plan : Plan) (db : Sql.Database) (rows : List Sql.Tuple),
      r.query = q → r.compile settings = .ok plan → db.run plan.select = .ok rows →
        ∃ j, rows = [[("data", { content := .document j q.aggregates.isSome })]] ∧
          (q.Shape j ∨ q.Unsummarised j) ∧ (q.aggregates ≠ some [] → q.Shape j) := by
  refine ⟨fun r h hdepth => ?_, fun j text hshape h htext => ?_, fun j text hshape h htext => ?_,
    fun j h hdepth => Json.spelledBy_print h hdepth, fun settings r plan db rows hq h hrun => ?_⟩
  · exact (encodes r h).decodeString_print hdepth
  · obtain ⟨r, hanswers, rfl⟩ := answers_of_shape hshape
    exact ⟨r, (encodes r h).decodeString_spelled htext, hanswers, rfl⟩
  · obtain ⟨items, -, hitems⟩ := hshape
    have hrows : ∀ rows ∈ items, (rowsJson rows).Regular := by
      rintro rows rfl
      exact Json.regularMembers_iff.1 h.2 ("rows", rowsJson rows) (by simp [Json.memberIfSome])
    exact ⟨items, _, (encodes_unsummarised hrows).decodeString_spelled htext, not_answers_rowSet_none,
      hitems, rfl, rfl⟩
  · subst hq
    obtain ⟨j, hj, hdocument⟩ := Request.document_of_run h hrun
    exact ⟨j, hj, hdocument, fun hnamed => hdocument.resolve_right (mt Query.Unsummarised.aggregates hnamed)⟩

end QueryResponse

namespace Music

/-- A request for the number of artists and their names. -/
def roll : Request where
  table := "Artist"
  query :=
    { fields := some [("artist/name", .column "Name")], aggregates := some [("artists", .rowCount)] }

/-- Two artists, the second of whom has no name. -/
def rollAnswer : QueryResponse :=
  .rowSet (some [("artists", .num (.int 2))])
    (some [[("artist/name", .str "Accept")], [("artist/name", .null)]])

/-- Its text with blanks, and with an escape in one key. -/
def rollSpelling : Spelling :=
  let key : Literal := .ofString "artist" ++ .short .slash :: Literal.ofString "name"
  .obj
    [({ key := .ofString "aggregates", afterColon := [.space] },
        .obj [({ key := .ofString "artists" }, .num (.ofInt 2))] []),
      ({ before := [.newline], key := .ofString "rows" },
        .arr
          [({}, .obj [({ key }, .str (.ofString "Accept"))] []),
            ({}, .obj [({ key := .ofString "artist/name" }, .null)] [])] [.tab])] []

/-- The same as a string. -/
def rollText : String :=
  "\x7b\"aggregates\": \x7b\"artists\":2\x7d,\n" ++
    "\"rows\":[\x7b\"artist\\/name\":\"Accept\"\x7d,\x7b\"artist/name\":null\x7d\t]\x7d\n"

theorem rollText_eq : Text.ofString rollText = rollSpelling.padded [] [.newline] := by
  cbv

theorem shows_roll : (rollSpelling.node Node.depthLimit).Shows rollAnswer.json := by
  have hrows : Node.ShowsItems _
      [.obj [("artist/name", .str "Accept")], .obj [("artist/name", .null)]] :=
    .cons (.obj (.cons (.str _) .nil)) (.cons (.obj (.cons .null .nil)) .nil)
  exact .obj (.cons (.obj (.cons (.num _) .nil)) (.cons (.arr [] hrows) .nil))

theorem regular_roll : rollAnswer.json.Regular := by
  simp [rollAnswer, QueryResponse.json, QueryResponse.rowsJson, Json.memberIfSome, Json.Regular,
    Json.RegularItems, Json.RegularMembers]

theorem spelledBy_rollText : rollAnswer.json.SpelledBy rollText :=
  ⟨[], [.newline], rollSpelling, rollText_eq, shows_roll⟩

theorem run_roll : ∃ plan, roll.compile {} = .ok plan ∧
    database.run plan.select = .ok [[("data", { content := .document rollAnswer.json true })]] := by
  refine ⟨_, rfl, ?_⟩
  cbv

/-- What the statement for `roll` yields is of the shape of its query, so the answer is decoded from its
own text and from the one with blanks. What the statement for `summaryOfNone` yields is not. -/
theorem roll_decoded :
    (∃ plan, roll.compile {} = .ok plan ∧
      database.run plan.select = .ok [[("data", { content := .document rollAnswer.json true })]]) ∧
    rollAnswer.json.Regular ∧ roll.query.Shape rollAnswer.json ∧ rollAnswer.json.SpelledBy rollText ∧
    decodeString QueryResponse.decoder rollAnswer.json.print = .ok rollAnswer ∧
    (∃ r, decodeString QueryResponse.decoder rollText = .ok r ∧ r.Answers roll.query ∧
      r.json.print = rollAnswer.json.print) ∧
    ∃ items, decodeString QueryResponse.decoder "\x7b\"aggregates\":null\x7d" =
      .ok (.rowSet none items) ∧ items.isSome = false := by
  obtain ⟨hself, hshape, -, hprint, hdocument⟩ := QueryResponse.decode_shape roll.query
  obtain ⟨-, -, hunsummarised, -⟩ := QueryResponse.decode_shape summaryOfNone.query
  obtain ⟨plan, hcompile, hrun⟩ := run_roll
  have hroll : roll.query.Shape rollAnswer.json := by
    obtain ⟨j, hrows, -, h⟩ := hdocument {} roll plan database _ rfl hcompile hrun
    cases hrows
    exact h (by simp [roll])
  have hnone : (Json.obj [("aggregates", .null)]).SpelledBy "\x7b\"aggregates\":null\x7d" :=
    hprint _ (by simp [Json.Regular, Json.RegularMembers]) (by decide)
  obtain ⟨items, -, hdecode, -, hitems, -⟩ :=
    hunsummarised _ _ (.rowSet none rfl rfl)
      (by simp [Json.memberIfSome, Json.Regular, Json.RegularMembers]) hnone
  exact ⟨⟨plan, hcompile, hrun⟩, regular_roll, hroll, spelledBy_rollText,
    hself rollAnswer regular_roll (by decide),
    hshape rollAnswer.json rollText hroll regular_roll spelledBy_rollText,
    items, hdecode, hitems⟩

/-- A request for artists and for aggregates of them, which names none. -/
def rollOfNone : Request :=
  { table := "Artist"
    query := { fields := some [("id", .column "ArtistId")], aggregates := some [] } }

/-- Of no artists the statement for `rollOfNone` yields null where the request denotes an empty object. What
is decoded has no aggregates, so it is no answer to the request, and the member is not in its text. -/
theorem summary_dropped :
    let document : Json := .obj [("aggregates", .null), ("rows", .arr [])]
    let decoded : QueryResponse := .rowSet none (some [])
    ∃ plan, rollOfNone.compile {} = .ok plan ∧
      nobody.run plan.select = .ok [[("data", { content := .document document true })]] ∧
      rollOfNone.document .plain nobody = .ok (.obj [("aggregates", .obj []), ("rows", .arr [])]) ∧
      decodeString QueryResponse.decoder document.print = .ok decoded ∧
      ¬ decoded.Answers rollOfNone.query ∧ decoded.json.print ≠ document.print := by
  have hrows : ∀ rows ∈ some ([] : List Row), (QueryResponse.rowsJson rows).Regular := by
    simp [QueryResponse.rowsJson, Json.Regular, Json.RegularItems]
  refine ⟨_, rfl, ?_, ?_, ?_, QueryResponse.not_answers_rowSet_none, by decide⟩
  · cbv
  · cbv
  · exact (QueryResponse.encodes_unsummarised hrows).decodeString_print (by decide)

end Music

end DataAgent
