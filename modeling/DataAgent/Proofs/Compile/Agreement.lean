import DataAgent.Proofs.Compile.Runs

/-!
# Proofs — Compile — Agreement

Two runs of the compiler side by side. They agree (`Agree`) if, from counters that are related, they
fail with the same error, or give results and counters that are related again. Steps one after the
other agree if each step does (`Agree.bind`), so that what two ways of compiling a request have in
common is said step by step, failures included.
-/

namespace DataAgent

namespace Compile

variable {α β γ δ : Type} {S : Nat → Nat → Prop} {R : α → β → Prop} {Q : γ → δ → Prop}

/-- How two runs end that agree: with the same error, or with related results and counters. -/
inductive EndAlike (S : Nat → Nat → Prop) (R : α → β → Prop) :
    EStateM.Result CompileError Nat α → EStateM.Result CompileError Nat β → Prop
  | ok {a : α} {b : β} {n m : Nat} (results : R a b) (counters : S n m) :
      EndAlike S R (.ok a n) (.ok b m)
  | error {e : CompileError} {n m : Nat} : EndAlike S R (.error e n) (.error e m)

/-- From related counters, the computations end alike. -/
def Agree (S : Nat → Nat → Prop) (R : α → β → Prop) (x : Compile α) (y : Compile β) : Prop :=
  ∀ ⦃n m : Nat⦄, S n m → EndAlike S R (x n) (y m)

namespace Agree

theorem pure {a : α} {b : β} (h : R a b) : Agree S R (pure a) (pure b) := fun _ _ hs => .ok h hs

/-- A computation agrees with itself. -/
theorem refl (x : Compile α) : Agree Eq Eq x x := by
  rintro n _ rfl
  cases x n with
  | ok a n => exact .ok rfl rfl
  | error e n => exact .error

theorem throw (e : CompileError) : Agree S R (throw e) (throw e) := fun _ _ _ => .error

/-- One step after another, the later ones being about results of the earlier. -/
theorem bind {x : Compile α} {y : Compile β} {f : α → Compile γ} {g : β → Compile δ}
    (hx : Agree S R x y) (hf : ∀ a b, R a b → Agree S Q (f a) (g b)) :
    Agree S Q (x >>= f) (y >>= g) := by
  intro n m hs
  show EndAlike S Q (EStateM.bind x f n) (EStateM.bind y g m)
  have hend := hx hs
  unfold EStateM.bind
  generalize x n = first at hend ⊢
  generalize y m = second at hend ⊢
  cases hend with
  | error => exact .error
  | ok results counters => exact hf _ _ results counters

/-- Results put together from those of a step. -/
theorem map {x : Compile α} {y : Compile β} {f : α → γ} {g : β → δ} (hx : Agree S R x y)
    (hf : ∀ a b, R a b → Q (f a) (g b)) :
    Agree S Q (x >>= fun a => Pure.pure (f a)) (y >>= fun b => Pure.pure (g b)) :=
  hx.bind fun a b hab => .pure (hf a b hab)

/-- A choice that is made alike. -/
theorem ite {p p' : Prop} [Decidable p] [Decidable p'] {x x' : Compile α} {y y' : Compile β}
    (hp : p ↔ p') (hx : Agree S R x y) (hx' : Agree S R x' y') :
    Agree S R (if p then x else x') (if p' then y else y') := by
  by_cases h : p
  · rwa [if_pos h, if_pos (hp.1 h)]
  · rwa [if_neg h, if_neg fun h' => h (hp.2 h')]

/-- A result that needs no alias, and the same one changed. -/
theorem ofExcept_map {x : Except CompileError α} {f : α → β} (h : ∀ a, x = .ok a → R a (f a)) :
    Agree S R (ofExcept x) (ofExcept (x.map f)) := by
  cases x with
  | error e => exact .throw e
  | ok a => exact .pure (h a rfl)

/-- A result that needs no alias, on both sides. -/
theorem ofExcept {R : α → α → Prop} {x : Except CompileError α} (h : ∀ a, x = .ok a → R a a) :
    Agree S R (Compile.ofExcept x) (Compile.ofExcept x) := by
  cases x with
  | error e => exact .throw e
  | ok a => exact .pure (h a rfl)

end Agree

end Compile

end DataAgent
