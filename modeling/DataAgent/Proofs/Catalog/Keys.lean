import DataAgent.Proofs.Catalog.Introspection
import DataAgent.Sql.Database
import Mathlib

/-!
# Proofs — Catalog — Keys

A column can say that it is a key, and a key of the table's own can name it. The names in the latter match
those of the columns whatever the case of their letters, and are reported as they are spelled there. So
every reported key matches a reported column, and every column that is a key matches a reported key
(`TableInfo.ofDefinition_keys`). That they are the same names (`TableInfo.KeysAreColumns`) takes a
definition whose keys are spelled as the columns are (`Definition.CreateTable.KeysSpelled`), and where no
two columns match one another only such a definition will do.
-/

namespace DataAgent

/-- Names match if and only if they are the same in small letters. -/
theorem Sql.sameName_iff {a b : String} :
    sameName a b = true ↔ a.toList.map Char.toLower = b.toList.map Char.toLower := by
  simp only [sameName, Bool.or_eq_true, beq_iff_eq, or_iff_right_iff_imp]
  rintro rfl
  rfl

theorem Sql.sameName_refl (a : String) : sameName a a = true :=
  sameName_iff.2 rfl

/-- Two names match if both match a third. -/
theorem Sql.sameName_of_sameName {a b c : String} (ha : sameName a c = true) (hb : sameName b c = true) :
    sameName a b = true :=
  sameName_iff.2 ((sameName_iff.1 ha).trans (sameName_iff.1 hb).symm)

open Sql (sameName sameName_refl sameName_of_sameName)

namespace Definition.CreateTable

/-- The name is in a key of the table's own, with this spelling. -/
def NamesKey (t : CreateTable) (key : String) : Prop :=
  ∃ columns, .primaryKey columns ∈ t.constraints ∧ key ∈ columns

/-- Every name in a key of the table's own matches a column. -/
def KeysDeclared (t : CreateTable) : Prop :=
  ∀ key, t.NamesKey key → ∃ c ∈ t.columns, sameName c.name key = true

/-- Every name in a key of the table's own is spelled as each column that it matches. -/
def KeysSpelled (t : CreateTable) : Prop :=
  ∀ key, t.NamesKey key → ∀ c ∈ t.columns, sameName c.name key = true → c.name = key

/-- No column matches another. -/
def ColumnsDistinct (t : CreateTable) : Prop :=
  t.columns.Pairwise fun a b => sameName a.name b.name = false

/-- The column says that it is a key, or a key of the table's own names it. -/
def IsKey (t : CreateTable) (c : Column) : Prop :=
  .primaryKey ∈ c.options ∨ ∃ key, t.NamesKey key ∧ sameName c.name key = true

theorem ColumnsDistinct.eq {t : CreateTable} (h : t.ColumnsDistinct) {a b : Column}
    (ha : a ∈ t.columns) (hb : b ∈ t.columns) (hsame : sameName a.name b.name = true) : a = b := by
  by_contra hne
  -- Of two columns either may come first, and matching does not care.
  have : Std.Symm fun a b : Column => sameName a.name b.name = false := ⟨fun a b hab => by
    rw [← Bool.not_eq_true] at hab ⊢
    exact fun hba => hab (sameName_of_sameName (sameName_refl _) hba)⟩
  exact absurd hsame (by rw [h.forall ha hb hne]; exact Bool.false_ne_true)

end Definition.CreateTable

namespace TableInfo

open Definition (CreateTable)

variable {t : CreateTable}

theorem mem_primaryKeyOf {key : String} :
    key ∈ primaryKeyOf t ↔
      (∃ c ∈ t.columns, .primaryKey ∈ c.options ∧ c.name = key) ∨ t.NamesKey key := by
  rw [primaryKeyOf, List.mem_append]
  refine or_congr ?_ ?_
  · simp only [List.mem_flatMap, List.mem_map, List.mem_filter, decide_eq_true_iff]
    constructor
    · rintro ⟨c, hc, _, ⟨hoption, rfl⟩, rfl⟩
      exact ⟨c, hc, hoption, rfl⟩
    · rintro ⟨c, hc, hoption, rfl⟩
      exact ⟨c, hc, _, ⟨hoption, rfl⟩, rfl⟩
  · simp only [List.mem_flatMap]
    constructor
    · rintro ⟨constraint, hmem, hkey⟩
      cases constraint with
      | primaryKey columns => exact ⟨columns, hmem, hkey⟩
      | other => simp at hkey
    · rintro ⟨columns, hmem, hkey⟩
      exact ⟨.primaryKey columns, hmem, hkey⟩

/-- The keys are the names of columns that are reported, and all columns that are keys of the table are
among them. -/
structure KeysAreColumns (t : CreateTable) (info : TableInfo) : Prop where
  reported : ∀ key ∈ info.primaryKey, ∃ c ∈ info.columns, c.name = key
  complete : ∀ c ∈ t.columns, t.IsKey c → c.name ∈ info.primaryKey

variable {info : TableInfo}

/-- The keys are columns if the definition spells its keys as its columns. -/
theorem keysAreColumns_of_keysSpelled (hkeys : info.primaryKey = primaryKeyOf t)
    (hcolumns : info.columns = t.columns.map ColumnInfo.ofDefinition) (hdeclared : t.KeysDeclared)
    (hspelled : t.KeysSpelled) : info.KeysAreColumns t where
  reported key hkey := by
    rw [hcolumns]
    rcases mem_primaryKeyOf.1 (hkeys ▸ hkey) with ⟨c, hc, -, hname⟩ | hnamed
    · exact ⟨_, List.mem_map_of_mem hc, hname⟩
    · obtain ⟨c, hc, hsame⟩ := hdeclared key hnamed
      exact ⟨_, List.mem_map_of_mem hc, hspelled key hnamed c hc hsame⟩
  complete c hc hkey := by
    rw [hkeys, mem_primaryKeyOf]
    rcases hkey with hoption | ⟨key, hnamed, hsame⟩
    · exact .inl ⟨c, hc, hoption, rfl⟩
    · exact .inr (hspelled key hnamed c hc hsame ▸ hnamed)

/-- Where a name matches one column at most, the keys are columns only if the definition spells them so. -/
theorem KeysAreColumns.keysSpelled (hkeys : info.primaryKey = primaryKeyOf t)
    (hcolumns : info.columns = t.columns.map ColumnInfo.ofDefinition) (hdistinct : t.ColumnsDistinct)
    (h : info.KeysAreColumns t) : t.KeysSpelled := by
  intro key hnamed c hc hsame
  obtain ⟨reported, hmem, rfl⟩ := h.reported key (hkeys ▸ mem_primaryKeyOf.2 (.inr hnamed))
  -- The key is the name of some column `d`, so it matches `d` as well as `c`, and these are one.
  obtain ⟨d, hd, rfl⟩ := List.mem_map.1 (hcolumns ▸ hmem)
  rw [hdistinct.eq hc hd hsame]
  rfl

/-- **Keys match columns, in the spelling of the keys.** The keys of a table whose own keys name its
columns are those that the columns say they are, by the names of these, and the names in its own keys as
they are spelled. Each matches a column, each column that is a key matches one, and they are the columns'
very names if they are spelled so. -/
theorem ofDefinition_keys {read : DefinitionReader} {text : String} {rest : List Definition.Statement}
    (name : String) (hread : read text = some (.createTable t :: rest)) (hdeclared : t.KeysDeclared) :
    ∃ info, ofDefinition read name text = .ok info ∧
      (∀ key, key ∈ info.primaryKey ↔
        (∃ c ∈ t.columns, .primaryKey ∈ c.options ∧ c.name = key) ∨ t.NamesKey key) ∧
      (∀ key ∈ info.primaryKey, ∃ c ∈ info.columns, sameName c.name key = true) ∧
      (∀ c ∈ t.columns, t.IsKey c → ∃ key ∈ info.primaryKey, sameName c.name key = true) ∧
      (t.KeysSpelled → info.KeysAreColumns t) ∧
      (t.ColumnsDistinct → info.KeysAreColumns t → t.KeysSpelled) := by
  refine ⟨_, ofDefinition_of_createTable name hread, fun key => mem_primaryKeyOf, ?_, ?_,
    keysAreColumns_of_keysSpelled rfl rfl hdeclared, KeysAreColumns.keysSpelled rfl rfl⟩
  · intro key hkey
    rcases mem_primaryKeyOf.1 hkey with ⟨c, hc, -, rfl⟩ | hnamed
    · exact ⟨_, List.mem_map_of_mem hc, sameName_refl _⟩
    · obtain ⟨c, hc, hsame⟩ := hdeclared key hnamed
      exact ⟨_, List.mem_map_of_mem hc, hsame⟩
  · rintro c hc (hoption | ⟨key, hnamed, hsame⟩)
    · exact ⟨c.name, mem_primaryKeyOf.2 (.inl ⟨c, hc, hoption, rfl⟩), sameName_refl _⟩
    · exact ⟨key, mem_primaryKeyOf.2 (.inr hnamed), hsame⟩

end TableInfo

namespace Music

open Definition (CreateTable)

/-- The tracks of a playlist, by a key of two columns. -/
def playlistTrack : CreateTable :=
  { columns := [{ name := "Playlist", type := "INT", options := [] },
      { name := "Track", type := "INT", options := [] }]
    constraints := [.primaryKey ["Playlist", "Track"]] }

def playlistTrackText : String :=
  "CREATE TABLE T (Playlist INT, Track INT, PRIMARY KEY (Playlist, Track))"

theorem playlistTrack_keys :
    ∃ info, TableInfo.ofDefinition Definition.read "PlaylistTrack" playlistTrackText = .ok info ∧
      info.KeysAreColumns playlistTrack := by
  have hnamed : ∀ key, playlistTrack.NamesKey key → key = "Playlist" ∨ key = "Track" := by
    simp [CreateTable.NamesKey, playlistTrack]
  have hdeclared : playlistTrack.KeysDeclared := fun key hkey => by
    rcases hnamed key hkey with rfl | rfl <;> simp [playlistTrack, sameName]
  have hspelled : playlistTrack.KeysSpelled := fun key hkey => by
    rcases hnamed key hkey with rfl | rfl <;> simp [playlistTrack, sameName]
  have hread : Definition.read playlistTrackText = some [.createTable playlistTrack] := by cbv
  obtain ⟨info, hinfo, -, -, -, hcolumns, -⟩ :=
    TableInfo.ofDefinition_keys "PlaylistTrack" hread hdeclared
  exact ⟨info, hinfo, hcolumns hspelled⟩

/-- A column and a key that names it in small letters. -/
def respelled : CreateTable :=
  { columns := [{ name := "Id", type := "INTEGER", options := [] }]
    constraints := [.primaryKey ["id"]] }

def respelledText : String := "CREATE TABLE T (Id INTEGER, PRIMARY KEY (id))"

/-- The key of `respelled` is reported in small letters, and so is not a column that is reported. -/
theorem respelled_key :
    Definition.read respelledText = some [.createTable respelled] ∧ respelled.KeysDeclared ∧
    ∃ info, TableInfo.ofDefinition Definition.read "T" respelledText = .ok info ∧
      info.primaryKey = ["id"] ∧ info.columns.map (·.name) = ["Id"] ∧
      ¬ info.KeysAreColumns respelled := by
  have hread : Definition.read respelledText = some [.createTable respelled] := by cbv
  have hdeclared : respelled.KeysDeclared := by
    rintro key ⟨columns, hmem, hkey⟩
    obtain rfl : columns = ["id"] := by simpa [respelled] using hmem
    obtain rfl : key = "id" := by simpa using hkey
    simp [respelled, sameName]
  refine ⟨hread, hdeclared, _, TableInfo.ofDefinition_of_createTable "T" hread, rfl, rfl, fun h => ?_⟩
  obtain ⟨c, hc, hname⟩ := h.reported "id" (by simp [TableInfo.primaryKeyOf, respelled])
  obtain rfl : c = ColumnInfo.ofDefinition ⟨"Id", "INTEGER", []⟩ := by simpa [respelled] using hc
  exact absurd hname (by decide)

end Music

end DataAgent
