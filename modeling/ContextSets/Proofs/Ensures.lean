import Mathlib.Logic.Basic

/-!
# What computations ensure

A computation in a monad ensures a property if it ends with nothing but results that have it. The
result of a computation with a state, once it is run, is an answer and the state at the end.
-/

namespace ContextSets

variable {m : Type → Type} {α β σ : Type}

/-- A computation ends with nothing but results that have a property. -/
def Ensures [Monad m] (x : m α) (P : α → Prop) : Prop :=
  ∃ y : m { a // P a }, Subtype.val <$> y = x

namespace Ensures

variable [Monad m] [LawfulMonad m] {P Q : α → Prop} {R : β → Prop}

theorem pure {a : α} (h : P a) : Ensures (Pure.pure a : m α) P :=
  ⟨Pure.pure ⟨a, h⟩, map_pure _ _⟩

theorem trivial (x : m α) : Ensures x fun _ => True :=
  ⟨(⟨·, True.intro⟩) <$> x, by rw [← comp_map]; exact id_map x⟩

theorem mono {x : m α} (h : Ensures x P) (hPQ : ∀ a, P a → Q a) : Ensures x Q := by
  obtain ⟨y, rfl⟩ := h
  refine ⟨(fun a => ⟨a.1, hPQ a.1 a.2⟩) <$> y, ?_⟩
  rw [← comp_map]
  rfl

theorem bind {x : m α} {f : α → m β} (hx : Ensures x P) (hf : ∀ a, P a → Ensures (f a) R) :
    Ensures (x >>= f) R := by
  obtain ⟨y, rfl⟩ := hx
  refine ⟨y >>= fun a => (hf a.1 a.2).choose, ?_⟩
  rw [map_bind, bind_map_left]
  exact congrArg (y >>= ·) (funext fun a => (hf a.1 a.2).choose_spec)

/-- A computation without effects has the property that it ensures. -/
theorem of_id {x : Id α} {P : α → Prop} (h : Ensures x P) : P x.run := by
  obtain ⟨y, rfl⟩ := h
  exact y.run.2

end Ensures

/-- A result that has every property that a computation ensures: as far as what is ensured tells,
the computation may end with it. -/
def Yields [Monad m] (x : m α) (a : α) : Prop :=
  ∀ P : α → Prop, Ensures x P → P a

/-- A computation without effects ends with its value. -/
theorem Yields.run (x : Id α) : Yields x x.run :=
  fun _ h => h.of_id

/-- A computation with no effects but on a state ends with its answer, from whatever state. -/
theorem Yields.run_state (x : StateM σ α) (s : σ) : Yields x (x.run s).run.1 := by
  intro P h
  obtain ⟨y, rfl⟩ := h
  exact (y.run s).run.1.2

namespace Ensures

variable [Monad m] [LawfulMonad m] {P Q : α → Prop} {R : β → Prop}

/-! ### Computations with a state -/

section State

variable {s : σ} {R : β × σ → Prop}

theorem run_pure {b : β} (h : R (b, s)) : Ensures ((Pure.pure b : StateT σ m β).run s) R :=
  pure h

theorem run_bind {x : StateT σ m α} {f : α → StateT σ m β} {P : α × σ → Prop}
    (hx : Ensures (x.run s) P) (hf : ∀ a s', P (a, s') → Ensures ((f a).run s') R) :
    Ensures ((x >>= f).run s) R := by
  rw [StateT.run_bind]
  exact hx.bind fun a ha => hf a.1 a.2 ha

theorem lift_bind {x : m α} {f : α → StateT σ m β} {P : α → Prop} (hx : Ensures x P)
    (hf : ∀ a, P a → Ensures ((f a).run s) R) : Ensures ((StateT.lift x >>= f).run s) R := by
  rw [StateT.run_bind, StateT.run_lift, bind_assoc]
  refine hx.bind fun a ha => ?_
  rw [pure_bind]
  exact hf a ha

theorem get_bind {f : σ → StateT σ m β} (h : Ensures ((f s).run s) R) :
    Ensures ((get >>= f).run s) R := by
  rw [StateT.run_bind, StateT.run_get, pure_bind]
  exact h

theorem set_bind {s' : σ} {f : PUnit → StateT σ m β} (h : Ensures ((f ⟨⟩).run s') R) :
    Ensures ((set s' >>= f).run s) R := by
  rw [StateT.run_bind, StateT.run_set, pure_bind]
  exact h

theorem modify_bind {change : σ → σ} {f : PUnit → StateT σ m β}
    (h : Ensures ((f ⟨⟩).run (change s)) R) : Ensures ((modify change >>= f).run s) R := by
  rw [StateT.run_bind, StateT.run_modify, pure_bind]
  exact h

theorem modifyGet_bind {change : σ → α × σ} {f : α → StateT σ m β}
    (h : Ensures ((f (change s).1).run (change s).2) R) :
    Ensures ((modifyGet change >>= f).run s) R := by
  rw [StateT.run_bind, StateT.run_modifyGet, pure_bind]
  exact h

/-- What is ensured of the answer is so from whatever state. -/
theorem run {x : StateT σ m α} (h : Ensures x P) (s : σ) : Ensures (x.run s) fun r => P r.1 := by
  obtain ⟨y, rfl⟩ := h
  refine ⟨(fun r => ⟨(r.1.1, r.2), r.1.2⟩) <$> y.run s, ?_⟩
  rw [StateT.run_map, ← comp_map]
  rfl

/-- A property of the answer that is ensured from every state is ensured. -/
theorem of_run {x : StateT σ m α} {P : α → Prop}
    (h : ∀ s, Ensures (x.run s) fun r => P r.1) : Ensures x P := by
  obtain ⟨y, hy⟩ := Classical.axiomOfChoice h
  refine ⟨fun s => (fun r => (⟨r.1.1, r.2⟩, r.1.2)) <$> y s, ?_⟩
  ext s
  rw [StateT.run_map, ← hy s]
  show _ <$> (_ <$> y s) = _
  rw [← comp_map]
  rfl

end State

end Ensures

end ContextSets
