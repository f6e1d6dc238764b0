import DataAgent.Proofs.Sql.Scope

/-!
# Proofs — Sql — Sites

Where the parts of a statement stand, and which of them may stand where if JSON is to stay JSON.

A site is a select, or an expression together with the select it is evaluated in and its role there
(`Site`). The sites directly inside a site are its parts (`Site.parts`), and all those inside it are
reached part by part (`Site.Inside`). A tag is looked through: what it marks has the role of the tag.

A value forgets that it is JSON when it leaves a select, and when rows are sorted. A statement keeps
JSON (`Site.KeepsJson`) if whatever is put into a JSON object or array was made in the same select, if
what comes out of another select is read as JSON first, and if no JSON is made where rows are sorted.
It is enough to look at each site on its own (`Site.keepsJson_iff`).
-/

namespace DataAgent.Sql

/-! ### Sites -/

/-- What an expression is to the clause or the expression it stands in. -/
inductive Role
  /-- The only argument of the function that reads JSON. -/
  | json
  /-- A value of a JSON object or array. -/
  | member
  /-- An item of a select list. -/
  | item
  /-- Anything else. -/
  | other
  deriving DecidableEq, Repr

/-- The role of the arguments of a function. -/
def Function.role : Function → List Expr → Role
  | .json, [_]                                                  => .json
  | .jsonArray, _ | .jsonGroupArray, _                          => .member
  | .json, _ | .avg, _ | .sum, _ | .min, _ | .max, _            => .other

/-- The expressions directly in one that has the given role. -/
def Expr.operands (role : Role) : Expr → List (Role × Expr)
  | .and left right | .or left right | .compare _ left right => [(.other, left), (.other, right)]
  | .not operand | .isNull operand => [(.other, operand)]
  | .isIn operand options => (.other, operand) :: options.map fun e => (.other, e)
  | .call f args          => args.map fun e => (f.role args, e)
  | .object entries       => entries.map fun entry => (.member, entry.2)
  | .tagged _ operand     => [(role, operand)]
  | .existsRow _ | .subselect _ | .column _ | .value _ | .count _ => []

/-- The select directly in an expression, if there is one. -/
def Expr.selects : Expr → List Select
  | .existsRow select | .subselect select => [select]
  | _ => []

/-- The expressions directly in the clauses of a select. -/
def Select.clauses (s : Select) : List (Role × Expr) :=
  (match s.list with
    | .items items => items.map fun item => (.item, item.2)
    | .star | .one => []) ++
    (.other, s.condition) :: s.orderBy.map fun key => (.other, key.1)

/-- The select that a select takes its rows from, if it does. -/
def Select.sources (s : Select) : List Select :=
  match s.source with
  | some (.select select _) => [select]
  | _ => []

/-- A select, or an expression that is evaluated in a select. -/
inductive Site
  | select (s : Select)
  | expr (s : Select) (role : Role) (e : Expr)

namespace Site

/-- The sites directly inside a site. -/
def parts : Site → List Site
  | .select s       => s.sources.map .select ++ s.clauses.map fun c => .expr s c.1 c.2
  | .expr s role e => e.selects.map .select ++ (e.operands role).map fun o => .expr s o.1 o.2

/-- A site is inside another if it is one of its parts, or of theirs, and so on; and inside itself. -/
def Inside (inner outer : Site) : Prop :=
  Relation.ReflTransGen (fun site part => part ∈ site.parts) outer inner

/-- The site that is reached by going from part to part, each by its number. -/
def follow (site : Site) : List Nat → Option Site
  | []        => some site
  | i :: path => site.parts[i]?.bind fun part => part.follow path

theorem inside_of_follow {site inner : Site} {path : List Nat} (h : site.follow path = some inner) :
    inner.Inside site := by
  induction path generalizing site with
  | nil =>
    cases h
    exact .refl
  | cons i path ih =>
    obtain ⟨part, hpart, hrest⟩ := Option.bind_eq_some_iff.1 h
    exact .head (List.mem_of_getElem? hpart) (ih hrest)

end Site

/-! ### Keeping JSON -/

/-- The expression without the tags around it. -/
def Expr.bare : Expr → Expr
  | .tagged _ e => e.bare
  | e           => e

/-- The columns that an expression itself refers to. -/
def Expr.refs : Expr → List ColumnRef
  | .column ref | .count (.values ref) | .count (.distinct ref) => [ref]
  | _ => []

/-- A table of the database, or the select of all columns of one. -/
inductive Source.Stored : Source → Prop
  | table (name : String) (label : TableAlias) : Stored (.table (.table name) label)
  | star {s : Select} {name : String} {inner : TableAlias} (label : TableAlias)
      (list : s.list = .star) (source : s.source = some (.table (.table name) inner))
      (joins : s.joins = []) : Stored (.select s label)

/-- What may be put into the JSON that a select builds: a column of the table it reads, an aggregate, or
what one of the functions gives that give JSON. -/
inductive Expr.Embeddable (s : Select) : Expr → Prop
  | column {source : Source} (name : String) (read : s.source = some source) (stored : source.Stored) :
      Embeddable s (.column (.stored (.aliased source.label) name))
  | count (count : Count) : Embeddable s (.count count)
  | aggregate {f : Function} (args : List Expr) (aggregates : f ∈ [.avg, .sum, .min, .max]) :
      Embeddable s (.call f args)
  | json (args : List Expr) : Embeddable s (.call .json args)
  | array (args : List Expr) : Embeddable s (.call .jsonArray args)
  | object (entries : List (String × Expr)) : Embeddable s (.object entries)

/-- The expression may have a role in a select. Only the items of `root` may be selects that are not read
as JSON. -/
structure Expr.Fits (root s : Select) (role : Role) (e : Expr) : Prop where
  member : role = .member → e.bare.Embeddable s
  subselect : ∀ q, e = .subselect q → role = .json ∨ role = .item ∧ s = root
  derived : ∀ table name, .derived table name ∈ e.refs →
    role = .json ∧ e = .column (.derived table name)

namespace Site

/-- The site on its own, without its parts, is as it should be. -/
def Fits (root : Select) : Site → Prop
  | .select s       => s.orderBy ≠ [] → s.list = .star
  | .expr s role e => e.Fits root s role

/-- All that is inside a site is as it should be. -/
def KeepsJson (root : Select) (site : Site) : Prop := ∀ inner : Site, inner.Inside site → inner.Fits root

theorem keepsJson_iff {root : Select} {site : Site} :
    site.KeepsJson root ↔ site.Fits root ∧ ∀ part ∈ site.parts, part.KeepsJson root := by
  constructor
  · intro h
    refine ⟨h site .refl, ?_⟩
    intro part hpart inner hinner
    exact h inner (.head hpart hinner)
  · rintro ⟨hsite, hparts⟩ inner hinner
    rcases hinner.cases_head with rfl | ⟨part, hpart, hrest⟩
    · exact hsite
    · exact hparts part hpart inner hrest

end Site

/-- The expression may have a role in a select, and all that is inside it the role it has. -/
def Expr.KeepsJson (e : Expr) (root s : Select) (role : Role) : Prop :=
  Site.KeepsJson root (.expr s role e)

/-- The select and all that is inside it may stand in `root`. -/
def Select.KeepsJson (s root : Select) : Prop := Site.KeepsJson root (.select s)

variable {root s : Select} {role : Role} {e : Expr}

/-- A select keeps JSON if it makes none where it sorts, and its clauses and its source keep JSON. -/
theorem Select.KeepsJson.intro (horder : s.orderBy ≠ [] → s.list = .star)
    (hclauses : s.clauses.Forall fun o => o.2.KeepsJson root s o.1)
    (hsources : s.sources.Forall fun q => q.KeepsJson root) : s.KeepsJson root := by
  refine Site.keepsJson_iff.2 ⟨horder, ?_⟩
  intro part hpart
  rcases List.mem_append.1 hpart with hsource | hclause
  · obtain ⟨q, hq, rfl⟩ := List.mem_map.1 hsource
    exact List.forall_iff_forall_mem.1 hsources q hq
  · obtain ⟨o, ho, rfl⟩ := List.mem_map.1 hclause
    exact List.forall_iff_forall_mem.1 hclauses o ho

namespace Expr

/-- An expression keeps JSON if it may have its role, and its operands and its select keep JSON. -/
theorem KeepsJson.intro (hfits : e.Fits root s role)
    (hoperands : (e.operands role).Forall fun o => o.2.KeepsJson root s o.1)
    (hselects : e.selects.Forall fun q => q.KeepsJson root) : e.KeepsJson root s role := by
  refine Site.keepsJson_iff.2 ⟨hfits, ?_⟩
  intro part hpart
  rcases List.mem_append.1 hpart with hselect | hoperand
  · obtain ⟨q, hq, rfl⟩ := List.mem_map.1 hselect
    exact List.forall_iff_forall_mem.1 hselects q hq
  · obtain ⟨o, ho, rfl⟩ := List.mem_map.1 hoperand
    exact List.forall_iff_forall_mem.1 hoperands o ho

theorem KeepsJson.fits (h : e.KeepsJson root s role) : e.Fits root s role :=
  (Site.keepsJson_iff.1 h).1

/-! #### Conditions -/

/-- Outside of JSON, a column of a stored table may stand anywhere. -/
theorem keepsJson_stored (table : TableRef) (name : String) (hrole : role ≠ .member) :
    (Expr.column (.stored table name)).KeepsJson root s role := by
  refine .intro ⟨fun h => absurd h hrole, nofun, ?_⟩ trivial trivial
  intro table name h
  cases List.mem_singleton.1 h

theorem keepsJson_value (v : Value) : (Expr.value v).KeepsJson root s .other :=
  .intro ⟨nofun, nofun, nofun⟩ trivial trivial

theorem KeepsJson.conj {l r : Expr} (hl : l.KeepsJson root s .other)
    (hr : r.KeepsJson root s .other) : (l.conj r).KeepsJson root s .other := by
  unfold Expr.conj
  split
  · exact hr
  · split
    · exact hl
    · exact .intro ⟨nofun, nofun, nofun⟩ ⟨hl, hr⟩ trivial

theorem KeepsJson.foldl_conj {es : List Expr} (he : e.KeepsJson root s .other)
    (hes : ∀ e ∈ es, e.KeepsJson root s .other) :
    (es.foldl Expr.conj e).KeepsJson root s .other := by
  induction es generalizing e with
  | nil => exact he
  | cons e' es ih =>
    rw [List.forall_mem_cons] at hes
    exact ih (he.conj hes.1) hes.2

theorem KeepsJson.foldl_or {es : List Expr} (he : e.KeepsJson root s .other)
    (hes : ∀ e ∈ es, e.KeepsJson root s .other) :
    (es.foldl Expr.or e).KeepsJson root s .other := by
  induction es generalizing e with
  | nil => exact he
  | cons e' es ih =>
    rw [List.forall_mem_cons] at hes
    exact ih (.intro ⟨nofun, nofun, nofun⟩ ⟨he, hes.1⟩ trivial) hes.2

/-! #### JSON -/

theorem KeepsJson.tagged (rule : String) (h : e.KeepsJson root s role) :
    (Expr.tagged rule e).KeepsJson root s role :=
  .intro ⟨h.fits.member, nofun, nofun⟩ h trivial

/-- Read as JSON, an expression may stand anywhere. -/
theorem KeepsJson.asJson (h : e.KeepsJson root s .json) : e.asJson.KeepsJson root s role :=
  .intro ⟨fun _ => .json [e], nofun, nofun⟩ h trivial

/-- An object may stand anywhere if its values may stand in it. -/
theorem keepsJson_object {entries : List (String × Expr)}
    (h : ∀ entry ∈ entries, entry.2.KeepsJson root s .member) :
    (Expr.object entries).KeepsJson root s role := by
  refine .intro ⟨fun _ => .object entries, nofun, nofun⟩ ?_ trivial
  refine List.forall_iff_forall_mem.2 ?_
  intro o ho
  obtain ⟨entry, hentry, rfl⟩ := List.mem_map.1 ho
  exact h entry hentry

/-- A select may be an operand where it is read as JSON, and as an item of the outermost select. -/
theorem keepsJson_subselect {q : Select} (hrole : role = .json ∨ role = .item ∧ s = root)
    (h : q.KeepsJson root) : (Expr.subselect q).KeepsJson root s role := by
  refine .intro ⟨?_, fun _ _ => hrole, nofun⟩ trivial h
  rintro rfl
  rcases hrole with hrole | ⟨hrole, -⟩ <;> cases hrole

end Expr

end DataAgent.Sql
