import DataAgent.Sql.Aggregate
import Mathlib

/-!
# Proofs — Sql — Outcomes

Lists of results that may fail: what they are when all steps succeed, and how a step after each of
them can be taken after all of them. A computation whose only failure is that an integer overflows is
`OverflowOnly`, and so is what is put together from such computations.
-/

namespace DataAgent.Sql

variable {ε α β γ : Type}

theorem bind_pure_eq_map (x : Except ε α) (f : α → β) :
    (x >>= fun a => pure (f a)) = x.map f := by
  cases x <;> rfl

/-- The results of a step for each item, when all of them succeed. -/
theorem forall₂_of_mapM_ok {f : α → Except ε β} :
    ∀ {items : List α} {results : List β}, items.mapM f = .ok results →
      List.Forall₂ (fun a b => f a = .ok b) items results
  | [], results, h => by
    cases h
    exact .nil
  | a :: items, results, h => by
    rw [List.mapM_cons] at h
    cases ha : f a with
    | error e => simp [ha, bind, Except.bind] at h
    | ok b =>
      cases hrest : items.mapM f with
      | error e => simp [ha, hrest, bind, Except.bind] at h
      | ok rest =>
        simp only [ha, hrest, bind, Except.bind, pure, Except.pure, Except.ok.injEq] at h
        subst h
        exact .cons ha (forall₂_of_mapM_ok hrest)

theorem exists_of_mem_forall₂ {R : α → β → Prop} {as : List α} {bs : List β} {a : α}
    (h : List.Forall₂ R as bs) (ha : a ∈ as) : ∃ b, R a b := by
  induction h with
  | nil => cases ha
  | cons hab _ ih =>
    rcases List.mem_cons.1 ha with rfl | ha
    · exact ⟨_, hab⟩
    · exact ih ha

/-- The steps fail with the first of them that does. -/
theorem mapM_eq_error_iff {f : α → Except ε β} {e : ε} : ∀ {items : List α},
    items.mapM f = .error e ↔ ∃ before a after, items = before ++ a :: after ∧
      (∀ b ∈ before, ∃ r, f b = .ok r) ∧ f a = .error e
  | [] => by
    constructor
    · intro h
      cases h
    · rintro ⟨before, a, after, hitems, -⟩
      simp at hitems
  | a :: items => by
    rw [List.mapM_cons]
    cases ha : f a with
    | error e' =>
      constructor
      · intro h
        cases h
        exact ⟨[], a, items, rfl, by simp, ha⟩
      · rintro ⟨before, b, after, hitems, hbefore, hb⟩
        cases before with
        | nil =>
          cases hitems
          rw [ha] at hb
          cases hb
          rfl
        | cons c before =>
          cases hitems
          obtain ⟨r, hr⟩ := hbefore a (List.mem_cons_self ..)
          rw [ha] at hr
          cases hr
    | ok r =>
      have hrest : (items.mapM f >>= fun results => pure (r :: results)) = Except.error e ↔
          items.mapM f = .error e := by
        cases items.mapM f <;> simp [bind, Except.bind, pure, Except.pure]
      refine hrest.trans (mapM_eq_error_iff.trans ?_)
      constructor
      · rintro ⟨before, b, after, rfl, hbefore, hb⟩
        exact ⟨a :: before, b, after, rfl, by simpa [ha] using hbefore, hb⟩
      · rintro ⟨before, b, after, hitems, hbefore, hb⟩
        cases before with
        | nil =>
          cases hitems
          rw [ha] at hb
          cases hb
        | cons c before =>
          cases hitems
          exact ⟨before, b, after, rfl, fun c hc => hbefore c (List.mem_cons_of_mem _ hc), hb⟩

theorem exists_mapM_ok_iff {f : α → Except ε β} {items : List α} :
    (∃ results, items.mapM f = .ok results) ↔ ∀ a ∈ items, ∃ r, f a = .ok r := by
  constructor
  · rintro ⟨results, h⟩ a ha
    exact exists_of_mem_forall₂ (forall₂_of_mapM_ok h) ha
  · intro h
    cases hitems : items.mapM f with
    | ok results => exact ⟨results, rfl⟩
    | error e =>
      obtain ⟨before, a, after, rfl, -, ha⟩ := mapM_eq_error_iff.1 hitems
      obtain ⟨r, hr⟩ := h a (by simp)
      rw [ha] at hr
      cases hr

theorem mapM_eq_ok {f : α → Except ε β} {g : α → β} :
    ∀ {items : List α}, (∀ a ∈ items, f a = .ok (g a)) → items.mapM f = .ok (items.map g)
  | [], _ => rfl
  | a :: items, h => by
    have hrest : items.mapM f = .ok (items.map g) := mapM_eq_ok fun b hb => h b (by simp [hb])
    rw [List.mapM_cons, h a (by simp), hrest]
    rfl

theorem mapM_id_map_ok (items : List α) :
    (items.map (Except.ok (ε := ε))).mapM id = .ok items := by
  induction items with
  | nil => rfl
  | cons a items ih =>
    rw [List.map_cons, List.mapM_cons, ih]
    rfl

theorem mapM_id_map (f : α → Except ε β) (g : β → γ) (items : List α) :
    (items.map fun a => (f a).map g).mapM id = (items.mapM f).map fun results => results.map g := by
  induction items with
  | nil => rfl
  | cons a items ih =>
    rw [List.map_cons, List.mapM_cons, List.mapM_cons, ih]
    cases f a with
    | error => rfl
    | ok b => cases items.mapM f <;> rfl

/-- A step that commutes with a change of the items and of the results does so for all items. -/
theorem mapM_map_comm {δ : Type} {k : γ → α} {g : δ → β} {f : α → Except ε β} {f' : γ → Except ε δ}
    (h : ∀ a, f (k a) = (f' a).map g) (items : List γ) :
    (items.map k).mapM f = (items.mapM f').map (List.map g) := by
  induction items with
  | nil => rfl
  | cons a items ih =>
    rw [List.map_cons, List.mapM_cons, List.mapM_cons, ih, h]
    cases f' a with
    | error => rfl
    | ok b => cases items.mapM f' <;> rfl

/-- The result is there, or an integer overflowed. -/
def OverflowOnly (x : Except EngineError α) : Prop :=
  ∀ err, x = .error err → err = .integerOverflow

namespace OverflowOnly

theorem ok (a : α) : OverflowOnly (.ok a) := by
  intro err h
  cases h

theorem bind {x : Except EngineError α} {f : α → Except EngineError β} (hx : OverflowOnly x)
    (hf : ∀ a, OverflowOnly (f a)) : OverflowOnly (x >>= f) := by
  intro err h
  cases x with
  | error e =>
    cases h
    exact hx _ rfl
  | ok a => exact hf a err h

theorem mapM {f : α → Except EngineError β} (hf : ∀ a, OverflowOnly (f a)) :
    ∀ items : List α, OverflowOnly (items.mapM f)
  | [] => .ok []
  | a :: items => by
    rw [List.mapM_cons]
    exact (hf a).bind fun _ => (mapM hf items).bind fun _ => .ok _

end OverflowOnly

end DataAgent.Sql
