import DataAgent.Proofs.Compile.Names
import DataAgent.Proofs.Compile.QueryMeaning
import DataAgent.Proofs.Request.Documents

/-!
# Proofs — Compile — Answer

Running the statement of a request answers the request. Over a database that has what the request
names, a run passes the check of names and yields one row, whose only column `data` holds the
document of the request; it fails only where the document does, on an integer that overflows
(`Request.run_compile`). In the document a cell is what the engine makes of it: a real has fifteen
digits there (`Content.embed`).

The document is the one in which an object of aggregates is null if it would be empty and no row is
on the page: a select of an object with no aggregate in it has one row for each row of the page, and
none for none. The null is seen only where a query asks for aggregates and names none
(`Request.summary_missing`); for all other requests the answer is the plain document.
-/

namespace DataAgent

open Sql

/-- A run of a statement that passes the check yields its rows, unless one of them fails. -/
theorem Sql.Database.run_of_check {db : Database} {s : Select} {names : List String}
    (h : s.check db [] = .ok names) : db.run s = s.eval db [] >>= fun rows => rows.mapM id := by
  rw [Database.run, h]
  rfl

/-- **The statement of a request answers it**: run over a database that has what the request names,
it yields one row with one column, the document of the request, unless an integer overflows; and the
document is the plain one if each query that asks for aggregates names one. -/
theorem Request.run_compile {settings : QuerySettings} {r : Request} {plan : Plan} {db : Database}
    (h : r.compile settings = .ok plan) (hknown : r.known db = true) :
    plan.resultColumn = "data" ∧
    db.run plan.select = (r.document .ofRows db).map (fun j =>
      [[("data", { content := .document j r.query.aggregates.isSome })]]) ∧
    OverflowOnly (r.document .ofRows db) ∧
    (r.query.summarises = true → r.document .ofRows db = r.document .plain db) := by
  have hcolumn : plan.resultColumn = "data" := by
    obtain ⟨-, -, -, -, hcolumn⟩ := Request.compile_ok h
    exact hcolumn
  refine ⟨hcolumn, ?_, r.document_overflowOnly, Request.document_ofRows_eq_plain⟩
  rw [Database.run_of_check (Request.check_compile h hknown), Request.eval_compile h, hcolumn]
  cases r.document .ofRows db <;> rfl

/-- The answer to `Music.request`: both artists, each with the album of the last title. -/
def Music.answer : Json :=
  let albums (artist : Int) (title : String) (last : Int) : Json :=
    .obj [("aggregates", .obj [("albums", .num (.int 1)), ("last", .num (.int last))]),
      ("rows", .arr [.obj [("title", .str title),
        ("artist", .obj [("rows", .arr [.obj [("id", .num (.int artist))]])])]])]
  .arr [.obj [("name", .str "Accept"), ("albums", albums 1 "Breaker" 1)],
    .obj [("name", .null), ("albums", albums 2 "Facelift" 2)]]

/-- The statement of a request that filters along paths, orders, cuts to a page, summarises and
nests two relationships yields the plain document of the request. -/
theorem Music.request_answered :
    ∃ plan, Music.request.compile {} = .ok plan ∧ Music.request.known Music.database = true ∧
      Music.database.run plan.select =
        .ok [[("data", { content := .document Music.answer false })]] ∧
      Music.request.document .plain Music.database = .ok Music.answer := by
  have hcompile : Music.request.compile {} = .ok _ := rfl
  have hknown : Music.request.known Music.database = true := by decide
  obtain ⟨-, hrun, -, hplain⟩ := Request.run_compile hcompile hknown
  have hanswer : Music.request.document .ofRows Music.database = .ok Music.answer := by cbv
  refine ⟨_, hcompile, hknown, ?_, (hplain rfl).symm.trans hanswer⟩
  rw [hrun, hanswer]
  rfl

/-! ### Aggregates that name none -/

/-- A request for aggregates that names none. -/
def Music.summaryOfNone : Request := { table := "Artist", query := { aggregates := some [] } }

/-- Artists, of whom there are none. -/
def Music.nobody : Database :=
  { tables := [{ name := "Artist", columns := [⟨"ArtistId", .integer⟩], rows := [] }] }

/-- Without a row on the page, aggregates that name none are null and not an empty object: the
answer is not the plain document. -/
theorem Request.summary_missing :
    ∃ plan, Music.summaryOfNone.compile {} = .ok plan ∧
      Music.summaryOfNone.known Music.nobody = true ∧
      Music.nobody.run plan.select =
        .ok [[("data", { content := .document (.obj [("aggregates", .null)]) true })]] ∧
      Music.summaryOfNone.document .plain Music.nobody = .ok (.obj [("aggregates", .obj [])]) := by
  refine ⟨_, rfl, by decide, ?_, ?_⟩
  · cbv
  · cbv

end DataAgent
