import LinkedContracts.Error

/-! # Steps that keep a relation

    A step takes a state to a result, or an error, and a state.  A relation
    between states that holds whatever comes of the parts of a step holds
    whatever comes of the step. -/

namespace LinkedContracts

/-- The steps of a success. -/
theorem except_bind_ok {ε α β : Type} {x : Except ε α} {g : α → Except ε β}
    {b : β} (h : (x >>= g) = .ok b) : ∃ a, x = .ok a ∧ g a = .ok b := by
  cases x with
  | error e => cases h
  | ok a => exact ⟨a, rfl, h⟩

/-- Whether something succeeds with a result is decided without telling errors
    apart. -/
instance decidableOk {ε α : Type} [DecidableEq α] (x : Except ε α) (a : α) :
    Decidable (x = .ok a) :=
  match x with
  | .ok b => decidable_of_iff (b = a) ⟨congrArg _, Except.ok.inj⟩
  | .error _ => .isFalse nofun

namespace Stateful

variable {σ α β : Type}

/-- One step after another. -/
theorem run_bind (x : ExceptT Error (StateM σ) α)
    (g : α → ExceptT Error (StateM σ) β) (s : σ) :
    (x >>= g).run s = match x.run s with
      | (.ok a, t) => (g a).run t
      | (.error e, t) => (.error e, t) := by
  simp only [ExceptT.run, bind, ExceptT.bind, ExceptT.mk, StateT.bind,
    ExceptT.bindCont]
  cases x s with
  | mk result t => cases result <;> rfl

/-- What follows a step that succeeds starts where it ended. -/
theorem run_bind_ok {x : ExceptT Error (StateM σ) α}
    {g : α → ExceptT Error (StateM σ) β} {s t : σ} {a : α} (h : x.run s = (.ok a, t)) :
    (x >>= g).run s = (g a).run t := by
  rw [run_bind, h]

theorem pure_ok {a b : α} {s t : σ}
    (h : (pure a : ExceptT Error (StateM σ) α).run s = (.ok b, t)) :
    a = b ∧ s = t := by
  obtain ⟨h1, h2⟩ := Prod.mk.inj h
  exact ⟨Except.ok.inj h1, h2⟩

/-- The steps of a success. -/
theorem bind_ok {x : ExceptT Error (StateM σ) α}
    {g : α → ExceptT Error (StateM σ) β} {s t : σ} {b : β}
    (h : (x >>= g).run s = (.ok b, t)) :
    ∃ a r, x.run s = (.ok a, r) ∧ (g a).run r = (.ok b, t) := by
  rw [run_bind] at h
  cases hx : x.run s with
  | mk result r =>
      rw [hx] at h
      cases result with
      | ok a => exact ⟨a, r, rfl, h⟩
      | error e => cases h

/-- Whatever comes of a step, it relates the state before to the one
    after. -/
def Keeps (R : σ → σ → Prop) (x : ExceptT Error (StateM σ) α) : Prop :=
  ∀ s, R s (x.run s).2

/-- A relation that holds of steps put together. -/
structure Steady (R : σ → σ → Prop) : Prop where
  refl : ∀ s, R s s
  trans : ∀ {s t u}, R s t → R t u → R s u

namespace Steady

variable {R : σ → σ → Prop} (h : Steady R)

include h

theorem pure (a : α) : Keeps R (Pure.pure a : ExceptT Error (StateM σ) α) :=
  fun s => h.refl s

theorem get : Keeps R (MonadState.get : ExceptT Error (StateM σ) σ) :=
  fun s => h.refl s

theorem throw (e : Error) :
    Keeps R (MonadExcept.throw e : ExceptT Error (StateM σ) α) :=
  fun s => h.refl s

theorem lift (x : Except Error α) :
    Keeps R (liftM x : ExceptT Error (StateM σ) α) :=
  fun s => h.refl s

theorem bind {x : ExceptT Error (StateM σ) α}
    {g : α → ExceptT Error (StateM σ) β} (hx : Keeps R x)
    (hg : ∀ a, Keeps R (g a)) : Keeps R (x >>= g) := by
  intro s
  have hs := hx s
  rw [run_bind]
  cases hr : x.run s with
  | mk result t =>
      rw [hr] at hs
      cases result with
      | ok a => exact h.trans hs (hg a t)
      | error e => exact hs

end Steady

end Stateful

end LinkedContracts
