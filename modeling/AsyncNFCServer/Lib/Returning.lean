import Mathlib.Logic.Basic

/-!
# Calls that return

A call over a state that can fail is a `StateT σ (Except ε) α`.  `Returns x s a s'`
says that the call `x`, made in the state `s`, returns `a` and leaves `s'`.  What a
composed call returns is read off its parts with `returns_bind`.
-/

namespace Returning

universe u v

variable {σ α β : Type u} {ε : Type v}

/-- The call `x` in the state `s` returns `a` and leaves `s'`. -/
def Returns (x : StateT σ (Except ε) α) (s : σ) (a : α) (s' : σ) : Prop :=
  x.run s = .ok (a, s')

variable {x : StateT σ (Except ε) α} {f : α → StateT σ (Except ε) β} {s s' s₁ : σ} {a a' : α}
  {b : β}

@[simp] theorem returns_pure :
    Returns (pure a : StateT σ (Except ε) α) s a' s' ↔ a' = a ∧ s' = s := by
  have hrun : (pure a : StateT σ (Except ε) α).run s = .ok (a, s) := rfl
  rw [Returns, hrun, Except.ok.injEq, Prod.mk.injEq, eq_comm, eq_comm (a := s)]

@[simp] theorem not_returns_throw {e : ε} :
    ¬ Returns (throw e : StateT σ (Except ε) α) s a s' := by
  intro h
  have hrun : (throw e : StateT σ (Except ε) α).run s = .error e := rfl
  rw [Returns, hrun] at h
  exact nomatch h

theorem returns_get : Returns (get : StateT σ (Except ε) σ) s s s := rfl

/-- A call has one result. -/
theorem Returns.unique (h : Returns x s a s') (h' : Returns x s a' s₁) : a' = a ∧ s₁ = s' := by
  rw [Returns] at h h'
  rw [h] at h'
  simpa [eq_comm] using h'

/-- A composed call returns what its second part returns after its first. -/
theorem returns_bind :
    Returns (x >>= f) s b s' ↔ ∃ a s₁, Returns x s a s₁ ∧ Returns (f a) s₁ b s' := by
  have hrun : (x >>= f).run s = x.run s >>= fun r => (f r.1).run r.2 := rfl
  simp only [Returns, hrun]
  constructor
  · intro h
    cases hx : x.run s with
    | error e =>
        rw [hx] at h
        exact nomatch h
    | ok r =>
        rw [hx] at h
        exact ⟨r.1, r.2, rfl, h⟩
  · rintro ⟨a, s₁, hx, hf⟩
    rw [hx]
    exact hf

/-- After its first part a composed call goes on as its second. -/
theorem Returns.run_bind (h : Returns x s a s₁) : (x >>= f).run s = (f a).run s₁ := by
  have hrun : (x >>= f).run s = x.run s >>= fun r => (f r.1).run r.2 := rfl
  rw [hrun, show x.run s = .ok (a, s₁) from h]
  rfl

theorem Returns.bind_iff (h : Returns x s a s₁) :
    Returns (x >>= f) s b s' ↔ Returns (f a) s₁ b s' := by
  rw [Returns, h.run_bind, Returns]

/-- A composed call fails where its first part does. -/
theorem run_bind_of_error {e : ε} (h : x.run s = .error e) : (x >>= f).run s = .error e := by
  have hrun : (x >>= f).run s = x.run s >>= fun r => (f r.1).run r.2 := rfl
  rw [hrun, h]
  rfl

/-- The call comes back from the state, whatever it returns. -/
def ComesBack (x : StateT σ (Except ε) α) (s : σ) : Prop := ∃ a s', Returns x s a s'

theorem Returns.comesBack (h : Returns x s a s') : ComesBack x s := ⟨a, s', h⟩

/-- After its first part a composed call comes back if its second part does. -/
theorem Returns.comesBack_bind_iff (h : Returns x s a s₁) :
    ComesBack (x >>= f) s ↔ ComesBack (f a) s₁ :=
  exists_congr fun _ => exists_congr fun _ => h.bind_iff

/-- A composed call comes back if its parts do, the second one from wherever the first one
leads. -/
theorem ComesBack.bind (h : ComesBack x s) (hf : ∀ a s₁, Returns x s a s₁ → ComesBack (f a) s₁) :
    ComesBack (x >>= f) s := by
  obtain ⟨a, s₁, hx⟩ := h
  exact hx.comesBack_bind_iff.mpr (hf a s₁ hx)

theorem comesBack_pure : ComesBack (pure a : StateT σ (Except ε) α) s :=
  (returns_pure.mpr ⟨rfl, rfl⟩ : Returns (pure a : StateT σ (Except ε) α) s a s).comesBack

end Returning
