import DataAgent.Request.Decode
import DataAgent.Proofs.Json.Compact
import DataAgent.Proofs.Json.Keeping
import Mathlib

/-!
# Proofs — Request — Edits

Many texts are the same request. The schema of requests (`RequestKind.shape`) says which objects of a
text are records and tagged choices, under which names they have their members and which kinds nest in
them. Edits of a text by that schema leave the request it decodes to (`Request.decodeText_edited`).

Filters and queries nest, and the decoders of filters and of fields have a number of levels. Both are
steady for any number of them, by induction on it.
-/

namespace DataAgent

open Decode

/-- The kinds of records and tagged choices in a request. -/
inductive RequestKind
  | request
  | tableRelationships
  | relationship
  | query
  | orderBy
  | columnPath
  | field
  | aggregate
  | filter
  | operand

/-- What each kind consists of. An order has its direction under an older name as well. -/
def RequestKind.shape : RequestKind → Shape RequestKind
  | .request => .record
    [{ keys := ["table"] },
      { keys := ["table_relationships"], form := .list (.kind .tableRelationships) },
      { keys := ["query"], form := .kind .query }]
  | .tableRelationships => .record
    [{ keys := ["source_table"] },
      { keys := ["relationships"], form := .map (.kind .relationship) }]
  | .relationship => .record
    [{ keys := ["target_table"] }, { keys := ["relationship_type"] }, { keys := ["column_mapping"] }]
  | .query => .record
    [{ keys := ["fields"], form := .map (.kind .field) },
      { keys := ["aggregates"], form := .map (.kind .aggregate) },
      { keys := ["where"], form := .kind .filter },
      { keys := ["order_by"], form := .list (.kind .orderBy) },
      { keys := ["limit"] },
      { keys := ["offset"] }]
  | .orderBy => .record [{ keys := ["column"] }, { keys := ["direction", "ordering"] }]
  | .columnPath => .record [{ keys := ["path"] }, { keys := ["name"] }]
  | .field => .tagged
    [("column", [{ keys := ["column"] }]),
      ("relationship", [{ keys := ["relationship"] }, { keys := ["query"], form := .kind .query }])]
  | .aggregate => .tagged
    [("star_count", []),
      ("column_count", [{ keys := ["column"] }, { keys := ["distinct"] }]),
      ("single_column", [{ keys := ["column"] }, { keys := ["function"] }])]
  | .filter => .tagged
    [("and", [{ keys := ["expressions"], form := .list (.kind .filter) }]),
      ("or", [{ keys := ["expressions"], form := .list (.kind .filter) }]),
      ("not", [{ keys := ["expression"], form := .kind .filter }]),
      ("unary_op", [{ keys := ["operator"] }, { keys := ["column"], form := .kind .columnPath }]),
      ("binary_op",
        [{ keys := ["operator"] }, { keys := ["column"], form := .kind .columnPath },
          { keys := ["value"], form := .kind .operand }]),
      ("binary_arr_op",
        [{ keys := ["operator"] }, { keys := ["column"], form := .kind .columnPath },
          { keys := ["values"] }])]
  | .operand => .tagged
    [("column", [{ keys := ["column"], form := .kind .columnPath }]),
      ("scalar", [{ keys := ["value"] }])]

/-- The decoder is steady in requests. -/
abbrev Request.Steady {α : Type} (f : Form RequestKind) (d : Decoder α) : Prop :=
  Decode.Steady RequestKind.shape f d

open Request (Steady)

theorem Relationship.steady : Steady (.kind .relationship) Relationship.decoder :=
  steady_record rfl
    (.cons rfl blind_string.steady <|
      .cons rfl (blind_choice _).steady <|
      .cons rfl blind_string.members.steady .nil)
    (by decide) _ _

theorem TableRelationships.steady : Steady (.kind .tableRelationships) TableRelationships.decoder :=
  steady_record rfl
    (.cons rfl blind_string.steady <| .cons rfl Relationship.steady.members .nil) (by decide) _ _

theorem ColumnPath.steady : Steady (.kind .columnPath) ColumnPath.decoder :=
  steady_record rfl
    (.cons rfl blind_string.list.steady <| .cons rfl blind_string.steady .nil) (by decide) _ _

theorem OrderBy.steady : Steady (.kind .orderBy) OrderBy.decoder :=
  steady_record rfl
    (.cons rfl blind_string.steady <| .cons rfl (blind_choice _).steady .nil) (by decide) _ _

theorem Operand.steady : Steady (.kind .operand) Operand.decoder :=
  steady_tagged rfl
    (.cons ⟨rfl, Alternative.steady_record _ _ (.cons rfl ColumnPath.steady .nil) (by decide) _⟩ <|
      .cons ⟨rfl, Alternative.steady_record _ _ (.cons rfl blind_any.steady .nil) (by decide) _⟩ .nil)
    _

theorem Aggregate.steady : Steady (.kind .aggregate) Aggregate.decoder :=
  steady_tagged rfl
    (.cons ⟨rfl, Alternative.steady_unit _ _⟩ <|
      .cons ⟨rfl, Alternative.steady_record _ _
        (.cons rfl blind_string.steady <| .cons rfl blind_boolean.steady .nil) (by decide) _⟩ <|
      .cons ⟨rfl, Alternative.steady_record _ _
        (.cons rfl blind_string.steady <| .cons rfl blind_string.steady .nil) (by decide) _⟩ .nil)
    _

theorem Filter.steady (levels : Nat) : Steady (.kind .filter) (Filter.decoder levels) := by
  induction levels with
  | zero => exact ⟨fun _ _ _ _ => .error _ _, fun _ _ _ _ _ => .error _ _⟩
  | succ levels ih =>
    rw [funext₂ fun m node => Filter.decoder.eq_2 m node levels]
    refine steady_tagged rfl ?_ _
    refine .cons ⟨rfl, Alternative.steady_record _ _ (.cons rfl ih.list .nil) (by decide) _⟩ ?_
    refine .cons ⟨rfl, Alternative.steady_record _ _ (.cons rfl ih.list .nil) (by decide) _⟩ ?_
    refine .cons ⟨rfl, Alternative.steady_record _ _ (.cons rfl ih .nil) (by decide) _⟩ ?_
    refine .cons ⟨rfl, Alternative.steady_record _ _
      (.cons rfl blind_string.steady <| .cons rfl ColumnPath.steady .nil) (by decide) _⟩ ?_
    refine .cons ⟨rfl, Alternative.steady_record _ _
      (.cons rfl blind_string.steady <| .cons rfl ColumnPath.steady <| .cons rfl Operand.steady .nil)
      (by decide) _⟩ ?_
    exact .cons ⟨rfl, Alternative.steady_record _ _
      (.cons rfl blind_string.steady <| .cons rfl ColumnPath.steady <|
        .cons rfl blind_any.list.steady .nil)
      (by decide) _⟩ .nil

theorem Query.steady {field : Decoder Field} (h : Steady (.kind .field) field) :
    Steady (.kind .query) (Query.decoderOf field) :=
  steady_record rfl
    (.cons rfl h.members.nullable <|
      .cons rfl Aggregate.steady.members.nullable <|
      .cons rfl (Filter.steady Request.levels).nullable <|
      .cons rfl OrderBy.steady.list.nullable <|
      .cons rfl (blind_unsigned 32).nullable.steady <|
      .cons rfl (blind_unsigned 32).nullable.steady .nil)
    (by decide) _ _

theorem Field.steady (levels : Nat) : Steady (.kind .field) (Field.decoder levels) := by
  induction levels with
  | zero => exact ⟨fun _ _ _ _ => .error _ _, fun _ _ _ _ _ => .error _ _⟩
  | succ levels ih =>
    rw [funext₂ fun m node => Field.decoder.eq_2 m node levels]
    refine steady_tagged rfl ?_ _
    refine .cons ⟨rfl, Alternative.steady_record _ _ (.cons rfl blind_string.steady .nil)
      (by decide) _⟩ ?_
    exact .cons ⟨rfl, Alternative.steady_record _ _
      (.cons rfl blind_string.steady <| .cons rfl (Query.steady ih) .nil) (by decide) _⟩ .nil

theorem Request.steady : Steady (.kind .request) Request.decoder :=
  steady_record rfl
    (.cons rfl blind_string.steady <|
      .cons rfl TableRelationships.steady.list <|
      .cons rfl (Query.steady (Field.steady Request.levels)) .nil)
    (by decide) _ _

/-- **Edits of a text leave its request.** However many there are and at whatever depth, the text decodes
to the request that it decoded to before them. -/
theorem Request.decodeText_edited {c c' : Spelling}
    (h : Relation.ReflTransGen (Edit RequestKind.shape Node.depthLimit (.kind .request)) c c')
    (before after : List Blank) {request : Request}
    (hc : decodeText Request.decoder (c.padded before after) = .ok request) :
    decodeText Request.decoder (c'.padded before after) = .ok request :=
  Request.steady.decodeText h before after request hc

namespace Albums

/-- A member without blanks. -/
def member (key : String) (value : Spelling) : Label × Spelling := ({ key := .ofString key }, value)

/-- A string. -/
def word (s : String) : Spelling := .str (.ofString s)

/-- A request for the titles of albums, in order: with the given members of the field, the given members
of the order and some more of the request. -/
def text (field order more : List (Label × Spelling)) : Spelling :=
  .obj
    ([member "table" (word "Album"),
      member "query" (.obj
        [member "fields" (.obj [member "title" (.obj field [])] []),
          member "order_by" (.arr [({}, .obj order [])] [])] [])] ++ more) []

/-- A list of twelve and null, with blanks in it. -/
def remark : Spelling :=
  .arr [({ after := [.space] }, .num (.ofInt 12)), ({}, .null)] [.newline]

def first : Spelling :=
  text [member "type" (word "column"), member "column" (word "Title")]
    [member "column" (word "Title"), member "direction" (word "desc")] []

/-- With the tag last, the direction under its older name, and a remark. -/
def second : Spelling :=
  text [member "column" (word "Title"), member "type" (word "column")]
    [member "column" (word "Title"), member "ordering" (word "desc")] [member "remark" remark]

def request : Request where
  table := "Album"
  query := { fields := some [("title", .column "Title")], orderBy := some [⟨"Title", .desc⟩] }

/-- An edit of the query is one of the request. -/
theorem edit_query {q q' : Spelling} (e : Edit RequestKind.shape 126 (.kind .query) q q') :
    Edit RequestKind.shape Node.depthLimit (.kind .request)
      (.obj [member "table" (word "Album"), member "query" q] [])
      (.obj [member "table" (word "Album"), member "query" q'] []) :=
  .members [] (.record rfl)
    (.value [member "table" (word "Album")] [] (List.mem_of_getElem? (i := 2) rfl)
      (Literal.spells_ofString "query") (List.mem_singleton_self _) e)

theorem move_tag (order : List (Label × Spelling)) :
    Edit RequestKind.shape Node.depthLimit (.kind .request)
      (text [member "type" (word "column"), member "column" (word "Title")] order [])
      (text [member "column" (word "Title"), member "type" (word "column")] order []) := by
  have hfields : HasFields RequestKind.shape .field
      [member "type" (word "column"), member "column" (word "Title")] [.tag, { keys := ["column"] }] :=
    .tagged rfl (List.mem_cons_self ..) (Literal.spells_ofString "type")
      (.tag (Literal.spells_ofString "column") rfl)
  exact edit_query (.members [] (.record rfl) (.value [] _ (List.mem_of_getElem? (i := 0) rfl)
    (Literal.spells_ofString "fields") (List.mem_singleton_self _)
    (.entry [] [] _ [] (.members [] hfields (.permute (.swap ..))))))

theorem rename_direction (field : List (Label × Spelling)) :
    Edit RequestKind.shape Node.depthLimit (.kind .request)
      (text field [member "column" (word "Title"), member "direction" (word "desc")] [])
      (text field [member "column" (word "Title"), member "ordering" (word "desc")] []) := by
  refine edit_query (.members [] (.record rfl) (.value [_] [] (List.mem_of_getElem? (i := 3) rfl)
    (Literal.spells_ofString "order_by") (List.mem_singleton_self _)
    (.item [] [] {} [] (.members [] (.record rfl) ?_))))
  exact .rename [member "column" (word "Title")] [] (word "desc") (List.mem_of_getElem? (i := 1) rfl)
    (Literal.spells_ofString "direction") (List.mem_cons_self ..) (Literal.spells_ofString "ordering")
    (List.mem_cons_of_mem _ (List.mem_singleton_self _))

theorem add_remark (field order : List (Label × Spelling)) :
    Edit RequestKind.shape Node.depthLimit (.kind .request) (text field order [])
      (text field order [member "remark" remark]) :=
  .members [] (.record rfl)
    (.insert _ [] (Literal.spells_ofString "remark") (by decide) ⟨by decide, rfl, trivial, trivial⟩)

theorem edits : Relation.ReflTransGen
    (Edit RequestKind.shape Node.depthLimit (.kind .request)) first second :=
  ((Relation.ReflTransGen.single (move_tag _)).tail (rename_direction _)).tail (add_remark _ _)

theorem node_member (level : Nat) (key : String) (value : Spelling) (more : List (Label × Spelling)) :
    Spelling.memberNodes level (member key value :: more) =
      ({ text := key }, value.node level) :: Spelling.memberNodes level more := by
  rw [member, Spelling.memberNodes, Spelling.keyOf_eq (Literal.spells_ofString key)]

theorem node_word (level : Nat) (s : String) : (word s).node level = .str s := by
  obtain ⟨hpaired, hchars⟩ := Literal.spells_ofString s
  simp [word, Spelling.node, hpaired, hchars]

theorem decodeText_first : decodeText Request.decoder (first.padded [] [.newline]) = .ok request := by
  obtain ⟨node, hnode, hdecode⟩ := decodeText_spelling Request.decoder [] [.newline] first
  rw [hdecode]
  refine Request.steady.blind .direct hnode.symm request ?_
  simp only [first, text, Spelling.node, Spelling.itemNodes, node_member, node_word, Spelling.shelter,
    List.cons_append, List.nil_append, Spelling.memberNodes.eq_1, Node.depthLimit, Nat.reduceSub,
    Nat.reduceEqDiff, if_false]
  rfl

theorem decodeText_second :
    Relation.ReflTransGen (Edit RequestKind.shape Node.depthLimit (.kind .request)) first second ∧
      decodeText Request.decoder (first.padded [] [.newline]) = .ok request ∧
      decodeText Request.decoder (second.padded [] [.newline]) = .ok request :=
  ⟨edits, decodeText_first, Request.decodeText_edited edits [] [.newline] decodeText_first⟩

end Albums

end DataAgent
