import DataAgent.Proofs.Sql.Values

/-!
# Proofs — Sql — Documents

How documents are built by expressions and selects. `Expr.embeds` is what an expression becomes as a
member of a document. A document that leaves the select that built it is text, and reading it as JSON
gives it back (`Expr.embeds_asJson`). A select that stands for a value gives its first row
(`Expr.eval_subselect`), and one that another select takes its rows from gives all of them
(`evalSource_select`).
-/

namespace DataAgent.Sql

variable {db : Database} {f : Frame} {outer : Env}

/-! ### Members of documents -/

/-- What an expression is as a member of a document. -/
def Expr.embeds (db : Database) (f : Frame) (e : Expr) : Except EngineError Json :=
  (e.eval db f).map fun d => d.content.embed

/-- What named expressions are as members of a document. -/
def embedItems (db : Database) (f : Frame) (entries : List (String × Expr)) :
    Except EngineError (List (String × Json)) :=
  (evalItems db f entries).map fun items => items.map fun item => (item.1, item.2.content.embed)

theorem embedItems_nil : embedItems db f [] = .ok [] := rfl

theorem embedItems_cons (key : String) (e : Expr) (entries : List (String × Expr)) :
    embedItems db f ((key, e) :: entries) = do
      return (key, ← e.embeds db f) :: (← embedItems db f entries) := by
  rw [embedItems, evalItems, Expr.embeds, embedItems]
  cases e.eval db f with
  | error => rfl
  | ok d => cases evalItems db f entries <;> rfl

theorem Expr.eval_object (entries : List (String × Expr)) :
    (Expr.object entries).eval db f = (embedItems db f entries).map fun ms => .ofJson (.obj ms) := by
  rw [Expr.eval, embedItems]
  cases evalItems db f entries <;> rfl

theorem Expr.eval_jsonArray (e : Expr) :
    (Expr.call .jsonArray [e]).eval db f = (e.embeds db f).map fun j => .ofJson (.arr [j]) := by
  rw [Expr.eval, evalList, evalList, Expr.embeds]
  cases e.eval db f <;> rfl

theorem Expr.embeds_of_eval_ofJson {e : Expr} {r : Except EngineError Json}
    (h : e.eval db f = r.map .ofJson) : e.embeds db f = r := by
  rw [Expr.embeds, h]
  cases r <;> rfl

/-- A document as JSON is that document, whether it is known to be one or not. -/
theorem Expr.embeds_asJson {e : Expr} {r : Except EngineError Json} {typed : Bool}
    (h : e.eval db f = r.map fun j => { content := .document j typed }) :
    e.asJson.embeds db f = r := by
  rw [Expr.embeds, Expr.asJson, Expr.eval, h]
  cases r <;> rfl

theorem Expr.embeds_asJson_null {e : Expr} (h : e.eval db f = .ok (.ofCell .null)) :
    e.asJson.embeds db f = .ok .null := by
  rw [Expr.embeds, Expr.asJson, Expr.eval, h]
  rfl

/-- A function that is an aggregate is applied to the values of its operand over all rows. -/
theorem Expr.eval_aggregate {α : Type} {function : Function} {operand : Expr} {items : List α}
    {bound : α → Env} {value : α → Datum} (hjson : function ≠ .json) (harray : function ≠ .jsonArray)
    (hgroup : f.group = items.map bound)
    (h : ∀ a ∈ items, operand.eval db { env := bound a } = .ok (value a)) :
    (Expr.call function [operand]).eval db f = aggregateOf function (items.map value) := by
  rw [Expr.eval, hgroup, List.mapM_map, Function.comp_def, mapM_eq_ok h]
  · rfl
  · exact hjson
  · exact harray

/-! ### Selects that stand for a value -/

/-- A select stands for the first column of its first row, or for null if it has no rows. -/
theorem Expr.eval_subselect {s : Select} {rows : List (Except EngineError Tuple)}
    (h : s.eval db f.env = .ok rows) :
    (Expr.subselect s).eval db f = rows.head?.elim (.ok (.ofCell .null)) fun row =>
      row.map fun t => t.head?.elim (.ofCell .null) (·.2.untyped) := by
  rw [Expr.eval, h]
  rcases rows with _ | ⟨_ | row, rows⟩ <;> rfl

theorem Expr.eval_subselect_error {s : Select} {err : EngineError}
    (h : s.eval db f.env = .error err) : (Expr.subselect s).eval db f = .error err := by
  rw [Expr.eval, h]
  rfl

/-! ### Selects from selects -/

/-- The row outside the select that built it. -/
def Tuple.untyped (t : Tuple) : Tuple := t.map fun c => (c.1, c.2.untyped)

theorem evalSource_select {s : Select} {rows : List (Except EngineError Tuple)}
    (h : s.eval db outer = .ok rows) (label : TableAlias) :
    evalSource db outer (some (.select s label)) =
      (rows.mapM id).map fun tuples => tuples.map fun t => [(label, t.untyped)] := by
  rw [evalSource, Source.eval, h]
  simp only [bind, Except.bind]
  cases rows.mapM id <;> rfl

theorem Select.eval_error {s : Select} {err : EngineError}
    (h : evalSource db outer s.source = .error err) : s.eval db outer = .error err := by
  obtain ⟨list, source, joins, condition, orderBy, limit⟩ := s
  rw [Select.eval, h]
  rfl

/-- A row of a table has no documents, so nothing is lost when it leaves a select. -/
theorem Tuple.untyped_of_mem_rowsOf {name : String} {row : Tuple} (h : row ∈ db.rowsOf name) :
    row.untyped = row := by
  unfold Database.rowsOf at h
  cases htable : db.table? name with
  | none => simp [htable] at h
  | some t =>
    rw [htable] at h
    obtain ⟨cells, -, rfl⟩ := List.mem_map.1 h
    rw [Tuple.untyped, Table.tuple, List.map_zipWith]
    rfl

end DataAgent.Sql
