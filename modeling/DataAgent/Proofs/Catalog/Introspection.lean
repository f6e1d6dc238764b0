import DataAgent.Catalog.Introspect
import DataAgent.Proofs.Sql.Outcomes
import Mathlib

/-!
# Proofs — Catalog — Introspection

Of the entries of a database those are described that the filter admits (`TableFilter.Admits`), in their
order, whatever reader makes sense of their definitions. An entry is described if its definition is there
and its first statement creates a table (`SchemaEntry.Defined`), and else there is one way in which it
fails (`SchemaEntry.Fails`). The first admitted entry that fails is the error of them all.

Entries that are not admitted may be changed, removed and added (`TableFilter.HiddenEdit`), and broken in
every way, without a trace (`introspect_exact`).
-/

namespace DataAgent

open Sql (forall₂_of_mapM_ok mapM_eq_error_iff exists_mapM_ok_iff)

/-! ### Admitted tables -/

namespace TableFilter

/-- The table is one of those listed or, if there is no list, one whose name is not kept for the database
itself, unless these are wanted as well. -/
def Admits (f : TableFilter) (name : String) : Prop :=
  f.tables.elim
    (f.includeMeta = true ∨ ¬ ("sqlite_".toList <+: name.toList ∨ "IFK_".toList <+: name.toList))
    fun names => name ∈ names

theorem includes_iff {f : TableFilter} {name : String} : f.includes name = true ↔ f.Admits name := by
  obtain ⟨tables, includeMeta⟩ := f
  cases tables with
  | some names => simp [includes, Admits]
  | none => simp [includes, Admits, isMetaTable, metaPrefixes]

instance (f : TableFilter) : DecidablePred f.Admits := fun _ => decidable_of_iff _ includes_iff

/-- The entries of the tables that the filter admits. -/
def admitted (f : TableFilter) (entries : List SchemaEntry) : List SchemaEntry :=
  entries.filter fun e => f.Admits e.name

theorem mem_admitted {f : TableFilter} {entries : List SchemaEntry} {e : SchemaEntry} :
    e ∈ f.admitted entries ↔ e ∈ entries ∧ f.Admits e.name := by
  simp [admitted]

/-- An entry among those admitted is one of all the entries, with those before it before it. -/
theorem admitted_eq_append_cons_iff {f : TableFilter} {entries before after : List SchemaEntry}
    {e : SchemaEntry} :
    f.admitted entries = before ++ e :: after ↔
      ∃ front back, entries = front ++ e :: back ∧ f.Admits e.name ∧
        f.admitted front = before ∧ f.admitted back = after := by
  constructor
  · intro h
    obtain ⟨front, rest, rfl, hfront, hrest⟩ := List.filter_eq_append_iff.1 h
    -- Between the admitted entries before it and the entry itself others may stand.
    obtain ⟨skipped, back, rfl, hskipped, he, hback⟩ := List.filter_eq_cons_iff.1 hrest
    refine ⟨front ++ skipped, back, by simp, by simpa using he, ?_, hback⟩
    calc f.admitted (front ++ skipped)
        = f.admitted front ++ f.admitted skipped := List.filter_append ..
      _ = f.admitted front ++ [] := congrArg _ (List.filter_eq_nil_iff.2 hskipped)
      _ = f.admitted front := List.append_nil _
      _ = before := hfront
  · rintro ⟨front, back, rfl, he, rfl, rfl⟩
    simp [admitted, he]

/-- One entry that is not admitted is replaced by another, removed or added. -/
inductive HiddenEdit (f : TableFilter) : List SchemaEntry → List SchemaEntry → Prop
  | changed {front back : List SchemaEntry} {old new : SchemaEntry}
      (hold : ¬ f.Admits old.name) (hnew : ¬ f.Admits new.name) :
      HiddenEdit f (front ++ old :: back) (front ++ new :: back)
  | removed {front back : List SchemaEntry} {old : SchemaEntry} (hold : ¬ f.Admits old.name) :
      HiddenEdit f (front ++ old :: back) (front ++ back)
  | added {front back : List SchemaEntry} {new : SchemaEntry} (hnew : ¬ f.Admits new.name) :
      HiddenEdit f (front ++ back) (front ++ new :: back)

/-- One edit of an entry that is not admitted leaves the admitted entries alone. -/
theorem HiddenEdit.admitted_eq {f : TableFilter} {entries others : List SchemaEntry}
    (h : f.HiddenEdit entries others) : f.admitted others = f.admitted entries := by
  cases h with
  | changed hold hnew => simp [admitted, hold, hnew]
  | removed hold => simp [admitted, hold]
  | added hnew => simp [admitted, hnew]

/-- Any number of edits of entries that are not admitted leave the admitted entries alone. -/
theorem admitted_eq_of_hiddenEdits {f : TableFilter} {entries others : List SchemaEntry}
    (h : Relation.ReflTransGen f.HiddenEdit entries others) :
    f.admitted others = f.admitted entries := by
  induction h with
  | refl => rfl
  | tail _ hedit ih => exact hedit.admitted_eq.trans ih

end TableFilter

/-! ### One entry -/

/-- What is reported of a declared column. -/
structure ColumnInfo.Describes (info : ColumnInfo) (column : Definition.Column) : Prop where
  name : info.name = column.name
  type : info.type = (ScalarType.ofDeclared column.type).getD .string
  nullable : info.nullable = false ↔ .notNull ∈ column.options

theorem ColumnInfo.describes_ofDefinition (column : Definition.Column) :
    (ColumnInfo.ofDefinition column).Describes column where
  name := by rw [ofDefinition]
  -- The known types stay folded: no need to compare their names.
  type := by rw [ofDefinition]
  nullable := by simp [ofDefinition]

namespace SchemaEntry

/-- The entry's definition is the text, whose first statement creates the table. -/
def Creates (read : DefinitionReader) (e : SchemaEntry) (text : String)
    (table : Definition.CreateTable) : Prop :=
  e.definition = some text ∧ ∃ rest, read text = some (.createTable table :: rest)

/-- The entry has a definition, whose first statement creates a table. -/
def Defined (read : DefinitionReader) (e : SchemaEntry) : Prop :=
  ∃ text table, e.Creates read text table

/-- How an entry fails that creates no table. The error has its name. -/
inductive Fails (read : DefinitionReader) (e : SchemaEntry) : IntrospectError → Prop
  | missing (htext : e.definition = none) : Fails read e (.missingDefinition e.name)
  | unparseable {text : String} (htext : e.definition = some text) (hread : read text = none) :
      Fails read e (.unparseable e.name)
  | notCreateTable {text : String} {statements : List Definition.Statement}
      (htext : e.definition = some text) (hread : read text = some statements)
      (hfirst : ∀ table rest, statements ≠ .createTable table :: rest) :
      Fails read e (.notCreateTable e.name)

end SchemaEntry

namespace TableInfo

/-- What is reported of the table that an entry creates. -/
structure Describes (read : DefinitionReader) (e : SchemaEntry) (info : TableInfo) : Prop where
  name : info.name = e.name
  columns : ∃ text table, e.Creates read text table ∧ info.description = some text ∧
    List.Forall₂ ColumnInfo.Describes info.columns table.columns

variable {read : DefinitionReader} {e : SchemaEntry}

theorem ofDefinition_of_createTable {text : String} {table : Definition.CreateTable}
    {rest : List Definition.Statement} (name : String)
    (hread : read text = some (.createTable table :: rest)) :
    ofDefinition read name text =
      .ok { name, primaryKey := primaryKeyOf table, description := some text,
            columns := table.columns.map ColumnInfo.ofDefinition } := by
  simp only [ofDefinition, hread]

/-- An entry that creates a table is described. -/
theorem describes_of_creates {text : String} {table : Definition.CreateTable}
    (h : e.Creates read text table) : ∃ info, ofEntry read e = .ok info ∧ info.Describes read e := by
  obtain ⟨htext, rest, hread⟩ := h
  refine ⟨_, by simp only [ofEntry, htext, ofDefinition_of_createTable _ hread]; rfl, rfl, text, table,
    ⟨htext, rest, hread⟩, rfl, ?_⟩
  exact List.forall₂_map_left_iff.2
    (List.forall₂_same.2 fun c _ => ColumnInfo.describes_ofDefinition c)

/-- An entry that creates no table fails. -/
theorem fails_of_not_defined (h : ¬ e.Defined read) :
    ∃ error, ofEntry read e = .error error ∧ e.Fails read error := by
  cases htext : e.definition with
  | none => exact ⟨_, by simp only [ofEntry, htext], .missing htext⟩
  | some text =>
    cases hread : read text with
    | none => exact ⟨_, by simp only [ofEntry, htext, ofDefinition, hread], .unparseable htext hread⟩
    | some statements =>
      have hfirst : ∀ table rest, statements ≠ .createTable table :: rest := by
        rintro table rest rfl
        exact h ⟨text, table, htext, rest, hread⟩
      refine ⟨_, ?_, .notCreateTable htext hread hfirst⟩
      simp only [ofEntry, htext, ofDefinition, hread]

theorem exists_ofEntry_ok_iff : (∃ info, ofEntry read e = .ok info) ↔ e.Defined read := by
  constructor
  · rintro ⟨info, h⟩
    by_contra hundefined
    obtain ⟨_, herror, -⟩ := fails_of_not_defined hundefined
    exact absurd (h.symm.trans herror) (by simp)
  · rintro ⟨text, table, h⟩
    obtain ⟨info, hok, -⟩ := describes_of_creates h
    exact ⟨info, hok⟩

theorem describes_of_ofEntry {info : TableInfo} (h : ofEntry read e = .ok info) :
    info.Describes read e := by
  obtain ⟨text, table, hcreates⟩ := exists_ofEntry_ok_iff.1 ⟨info, h⟩
  obtain ⟨described, hok, hdescribes⟩ := describes_of_creates hcreates
  cases h.symm.trans hok
  exact hdescribes

/-- An entry fails in one way. -/
theorem ofEntry_eq_error_iff {error : IntrospectError} :
    ofEntry read e = .error error ↔ e.Fails read error := by
  constructor
  · intro h
    have hundefined : ¬ e.Defined read := fun hdefined => by
      obtain ⟨_, hok⟩ := exists_ofEntry_ok_iff.2 hdefined
      exact absurd (hok.symm.trans h) (by simp)
    obtain ⟨found, herror, hfails⟩ := fails_of_not_defined hundefined
    cases h.symm.trans herror
    exact hfails
  · intro h
    cases h with
    | missing htext => simp only [ofEntry, htext]
    | unparseable htext hread => simp only [ofEntry, htext, ofDefinition, hread]
    | notCreateTable htext hread hfirst => simp only [ofEntry, htext, ofDefinition, hread]

end TableInfo

/-! ### All of them -/

theorem introspect_eq (read : DefinitionReader) (f : TableFilter) (entries : List SchemaEntry) :
    introspect read f entries = (f.admitted entries).mapM (TableInfo.ofEntry read) := by
  have hkept : ∀ e : SchemaEntry, f.includes e.name = decide (f.Admits e.name) := fun e => by
    rw [Bool.eq_iff_iff, decide_eq_true_iff, TableFilter.includes_iff]
  simp only [introspect, TableFilter.admitted, hkept]

/-- The error of all is that of an admitted entry, with only sound ones admitted before it. -/
theorem introspect_eq_error_iff {read : DefinitionReader} {f : TableFilter} {entries : List SchemaEntry}
    {error : IntrospectError} :
    introspect read f entries = .error error ↔
      ∃ front e back, entries = front ++ e :: back ∧ f.Admits e.name ∧ e.Fails read error ∧
        ∀ other ∈ front, f.Admits other.name → other.Defined read := by
  simp only [introspect_eq, mapM_eq_error_iff, TableInfo.exists_ofEntry_ok_iff,
    TableInfo.ofEntry_eq_error_iff, TableFilter.admitted_eq_append_cons_iff]
  -- Both sides split the entries at the same place; they differ in how they say what stands before it.
  constructor
  · rintro ⟨_, e, _, ⟨front, back, rfl, hadmits, rfl, rfl⟩, hfront, hfails⟩
    exact ⟨front, e, back, rfl, hadmits, hfails, fun other hother hadmitted =>
      hfront other (TableFilter.mem_admitted.2 ⟨hother, hadmitted⟩)⟩
  · rintro ⟨front, e, back, rfl, hadmits, hfails, hfront⟩
    refine ⟨_, e, _, ⟨front, back, rfl, hadmits, rfl, rfl⟩, fun other hother => ?_, hfails⟩
    obtain ⟨hmem, hadmitted⟩ := TableFilter.mem_admitted.1 hother
    exact hfront other hmem hadmitted

/-- **The admitted entries are described, and no others are looked at.** The entries are described if every
one that is admitted creates a table. The tables are then those of the admitted entries, one for each and in
their order; the error is that of the first admitted entry that fails, with only sound ones admitted before
it. What is not admitted makes no difference. -/
theorem introspect_exact (read : DefinitionReader) (f : TableFilter) (entries : List SchemaEntry) :
    ((∃ tables, introspect read f entries = .ok tables) ↔
      ∀ e ∈ entries, f.Admits e.name → e.Defined read) ∧
    (∀ tables, introspect read f entries = .ok tables →
      List.Forall₂ (TableInfo.Describes read) (f.admitted entries) tables) ∧
    (∀ error, introspect read f entries = .error error ↔
      ∃ front e back, entries = front ++ e :: back ∧ f.Admits e.name ∧ e.Fails read error ∧
        ∀ other ∈ front, f.Admits other.name → other.Defined read) ∧
    ∀ others, Relation.ReflTransGen f.HiddenEdit entries others →
      introspect read f others = introspect read f entries := by
  refine ⟨?_, ?_, ?_, ?_⟩
  · simp only [introspect_eq, exists_mapM_ok_iff, TableInfo.exists_ofEntry_ok_iff,
      TableFilter.mem_admitted, and_imp]
  · intro tables h
    rw [introspect_eq] at h
    exact (forall₂_of_mapM_ok h).imp fun _ _ => TableInfo.describes_of_ofEntry
  · exact fun error => introspect_eq_error_iff
  · intro others h
    rw [introspect_eq, introspect_eq, TableFilter.admitted_eq_of_hiddenEdits h]

/-- A table of the database's own, which has no definition, and one of the user's. -/
def Music.catalog : List SchemaEntry :=
  [{ name := "sqlite_sequence", definition := none },
    { name := "Genre", definition := some "CREATE TABLE Genre (Name TEXT NOT NULL)" }]

/-- The table of the database's own is not missed, unless it is asked for. -/
theorem Music.catalog_introspected :
    (∃ tables, introspect Definition.read {} catalog = .ok tables) ∧
    introspect Definition.read {} catalog.tail = introspect Definition.read {} catalog ∧
    introspect Definition.read { includeMeta := true } catalog =
      .error (.missingDefinition "sqlite_sequence") := by
  have hhidden : ¬ ({} : TableFilter).Admits "sqlite_sequence" := by simp [TableFilter.Admits]
  have hshown : ({ includeMeta := true } : TableFilter).Admits "sqlite_sequence" := .inl rfl
  have hread : Definition.read "CREATE TABLE Genre (Name TEXT NOT NULL)" =
      some [.createTable { columns := [⟨"Name", "TEXT", [.notNull]⟩], constraints := [] }] := by
    cbv
  refine ⟨(introspect_exact _ _ _).1.2 fun e he hadmits => ?_,
    (introspect_exact _ _ _).2.2.2 _ (.single (@TableFilter.HiddenEdit.removed _ [] _ _ hhidden)),
    ((introspect_exact _ _ _).2.2.1 _).2 ⟨[], _, _, rfl, hshown, .missing rfl, by simp⟩⟩
  rcases List.mem_pair.1 he with rfl | rfl
  · exact absurd hadmits hhidden
  · exact ⟨_, _, rfl, [], hread⟩

end DataAgent
