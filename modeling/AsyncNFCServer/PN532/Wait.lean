import AsyncNFCServer.PN532.Driver

/-!
# Waiting for the chip

The three `wait_ready` functions of `pn532_rpi.c` ask the bus again and again until the
chip is ready or the time is over.  They differ in how they ask and how long they pause.
The loop has no bound of its own; what ends it is the clock.  `waitReadyBy` gives it as many
passes as there are milliseconds in the timeout, and two more: on a clock that a pause of
`n` milliseconds advances by at least that much, it never needs another one
(`waitReadyBy_comes_back`), and it does not end before the time is over
(`not_given_up_early`).
-/

namespace AsyncNFCServer

namespace PN532

/-- `struct timespec`. -/
structure Timespec where
  sec : Nat
  nsec : Nat
  nsec_lt : nsec < 1000000000

/-- The time in nanoseconds. -/
def Timespec.total (t : Timespec) : Nat := t.sec * 1000000000 + t.nsec

/-- The milliseconds between two readings of the clock, as the loops compute them. -/
def elapsed (start now : Timespec) : Int :=
  ((now.sec : Int) - start.sec) * 1000 + ((now.nsec : Int) - start.nsec).tdiv 1000000

/-- `clock_gettime` with `CLOCK_MONOTONIC`, and `delay`. -/
structure Timer (σ : Type) where
  now : Driver σ Timespec
  delay : Nat → Driver σ Unit

variable {σ α : Type}

/-- The loop of a `wait_ready` function with at most so many passes; `poll` asks the bus. -/
def waitLoop (timer : Timer σ) (poll : α → Driver σ (Bool × α)) (pause timeout : Nat)
    (start : Timespec) : Nat → α → Driver σ Bool
  | 0, _ => throw .endless
  | passes + 1, a => do
      let (ready, a) ← poll a
      if ready then pure true
      else do
        timer.delay pause
        let now ← timer.now
        if (timeout : Int) < elapsed start now then pure false
        else waitLoop timer poll pause timeout start passes a

/-- A `wait_ready` function. -/
def waitReadyBy (timer : Timer σ) (poll : α → Driver σ (Bool × α)) (pause timeout : Nat) (a : α) :
    Driver σ Bool := do
  let start ← timer.now
  waitLoop timer poll pause timeout start (timeout + 2) a

open Returning

/-- In the states of `J` the clock shows the time, and pauses take their time. -/
structure Timer.Runs (timer : Timer σ) (time : σ → Nat) (J : σ → Prop) : Prop where
  now {s : σ} (h : J s) : ∃ t s', Returns timer.now s t s' ∧ J s' ∧ time s ≤ t.total ∧
    t.total ≤ time s'
  delay {s : σ} (h : J s) (n : Nat) : ∃ s', Returns (timer.delay n) s () s' ∧ J s' ∧
    time s + n * 1000000 ≤ time s'

/-- `elapsed` is less than a millisecond off. -/
theorem lt_elapsed {start now : Timespec} {n : Nat}
    (h : start.total + n * 1000000 ≤ now.total) : (n : Int) < elapsed start now + 1 := by
  have hstart := start.nsec_lt
  have hnow := now.nsec_lt
  simp only [Timespec.total] at h
  have htdiv : ((now.nsec : Int) - start.nsec) / 1000000 ≤
      ((now.nsec : Int) - start.nsec).tdiv 1000000 := by
    rw [Int.tdiv_eq_ediv]
    split_ifs
    · omega
    · have hsign : (1000000 : Int).sign = 1 := Int.sign_eq_one_of_pos (by omega)
      omega
  rw [elapsed]
  omega

theorem tdiv_mul_lt (a : Int) : a.tdiv 1000000 * 1000000 < a + 1000000 := by
  rw [Int.tdiv_eq_ediv]
  split_ifs with hexact
  · omega
  · have hsign : (1000000 : Int).sign = 1 := Int.sign_eq_one_of_pos (by omega)
    omega

/-- Nor is it more than a millisecond ahead. -/
theorem total_lt_of_lt_elapsed {start now : Timespec} {n : Nat}
    (h : (n : Int) < elapsed start now) :
    start.total + n * 1000000 < now.total := by
  have htdiv := tdiv_mul_lt ((now.nsec : Int) - start.nsec)
  rw [elapsed] at h
  generalize ((now.nsec : Int) - start.nsec).tdiv 1000000 = milliseconds at h htdiv
  simp only [Timespec.total]
  omega

section Loop

variable {timer : Timer σ} {poll : α → Driver σ (Bool × α)} {pause timeout : Nat} {time : σ → Nat}
  {J : σ → Prop} {A : α → Prop} {s : σ} {a : α}

/-- A chip that is ready at the first question is waited for no longer. -/
theorem waitReadyBy_of_ready (htimer : timer.Runs time J) (hJ : J s)
    (hready : ∀ s, J s → ∃ a' s', Returns (poll a) s (true, a') s' ∧ J s') :
    ∃ s', Returns (waitReadyBy timer poll pause timeout a) s true s' ∧ J s' := by
  obtain ⟨t, s₁, hnow, hJ₁, -⟩ := htimer.now hJ
  obtain ⟨a', s', hpoll, hJ'⟩ := hready s₁ hJ₁
  refine ⟨s', hnow.bind_iff.mpr ?_, hJ'⟩
  rw [waitLoop]
  exact hpoll.bind_iff.mpr (returns_pure.mpr ⟨rfl, rfl⟩)

/-- With so much time gone already, the passes that are left are enough. -/
theorem waitLoop_comes_back {P : Bool → Prop} (hP : P false) (htimer : timer.Runs time J)
    (hpause : 1 ≤ pause)
    (hpoll : ∀ s a, J s → A a → ∃ ready a' s', Returns (poll a) s (ready, a') s' ∧ P ready ∧ A a' ∧
      J s' ∧ time s ≤ time s')
    {start : Timespec} {passes gone : Nat} (hJ : J s) (hA : A a)
    (hgone : start.total + gone * 1000000 ≤ time s) (henough : timeout + 2 ≤ gone + passes)
    (hpasses : 1 ≤ passes) :
    ∃ ready s', Returns (waitLoop timer poll pause timeout start passes a) s ready s' ∧ P ready ∧
      J s' := by
  induction passes generalizing s a gone with
  | zero => omega
  | succ passes ih =>
      obtain ⟨ready, a', s₁, hasked, hready, hA', hJ₁, htime₁⟩ := hpoll s a hJ hA
      rw [waitLoop]
      cases ready with
      | true =>
          refine ⟨true, s₁, hasked.bind_iff.mpr ?_, hready, hJ₁⟩
          exact returns_pure.mpr ⟨rfl, rfl⟩
      | false =>
          obtain ⟨s₂, hdelay, hJ₂, htime₂⟩ := htimer.delay hJ₁ pause
          obtain ⟨t, s₃, hnow, hJ₃, hfrom, hto⟩ := htimer.now hJ₂
          have hlater : start.total + (gone + 1) * 1000000 ≤ t.total :=
            calc start.total + (gone + 1) * 1000000
                = start.total + gone * 1000000 + 1 * 1000000 := by rw [Nat.add_mul, Nat.add_assoc]
              _ ≤ time s₁ + pause * 1000000 :=
                  Nat.add_le_add (hgone.trans htime₁) (Nat.mul_le_mul_right _ hpause)
              _ ≤ t.total := htime₂.trans hfrom
          have helapsed := lt_elapsed hlater
          by_cases hover : (timeout : Int) < elapsed start t
          · refine ⟨false, s₃, hasked.bind_iff.mpr (hdelay.bind_iff.mpr (hnow.bind_iff.mpr ?_)), hP,
              hJ₃⟩
            rw [if_pos hover]
            exact returns_pure.mpr ⟨rfl, rfl⟩
          · obtain ⟨ready, s', hrest, hready', hJ'⟩ :=
              ih hJ₃ hA' (hlater.trans hto) (by omega) (by omega)
            refine ⟨ready, s', hasked.bind_iff.mpr (hdelay.bind_iff.mpr (hnow.bind_iff.mpr ?_)),
              hready', hJ'⟩
            rw [if_neg hover]
            exact hrest

/-- A `wait_ready` function comes back, and needs no more passes than there are. -/
theorem waitReadyBy_comes_back {P : Bool → Prop} (hP : P false) (htimer : timer.Runs time J)
    (hpause : 1 ≤ pause)
    (hpoll : ∀ s a, J s → A a → ∃ ready a' s', Returns (poll a) s (ready, a') s' ∧ P ready ∧ A a' ∧
      J s' ∧ time s ≤ time s') (hJ : J s) (hA : A a) :
    ∃ ready s', Returns (waitReadyBy timer poll pause timeout a) s ready s' ∧ P ready ∧ J s' := by
  obtain ⟨t, s₁, hnow, hJ₁, -, hto⟩ := htimer.now hJ
  have hgone : t.total + 0 * 1000000 ≤ time s₁ := by
    rw [Nat.zero_mul, Nat.add_zero]
    exact hto
  have henough : timeout + 2 ≤ 0 + (timeout + 2) := (Nat.zero_add _).ge
  obtain ⟨ready, s', hloop, hready, hJ'⟩ := waitLoop_comes_back hP htimer hpause hpoll hJ₁ hA hgone
    henough (Nat.le_add_left 1 _)
  exact ⟨ready, s', hnow.bind_iff.mpr hloop, hready, hJ'⟩

/-- A chip that does not get ready is waited for until the time is over. -/
theorem waitReadyBy_of_quiet (htimer : timer.Runs time J) (hpause : 1 ≤ pause)
    (hquiet : ∀ s a, J s → A a → ∃ a' s', Returns (poll a) s (false, a') s' ∧ A a' ∧ J s' ∧
      time s ≤ time s')
    (hJ : J s) (hA : A a) :
    ∃ s', Returns (waitReadyBy timer poll pause timeout a) s false s' ∧ J s' := by
  have hpoll : ∀ s a, J s → A a → ∃ ready a' s', Returns (poll a) s (ready, a') s' ∧
      ready = false ∧ A a' ∧ J s' ∧ time s ≤ time s' := fun s a hJ hA => by
    obtain ⟨a', s', hasked, hrest⟩ := hquiet s a hJ hA
    exact ⟨false, a', s', hasked, rfl, hrest⟩
  obtain ⟨ready, s', hwait, rfl, hJ'⟩ :=
    waitReadyBy_comes_back (P := fun ready => ready = false) rfl htimer hpause hpoll hJ hA
  exact ⟨s', hwait, hJ'⟩

theorem lt_time_of_waitLoop (htimer : timer.Runs time J)
    (hpoll : ∀ s a r s', J s → Returns (poll a) s r s' → J s') {start : Timespec} {passes : Nat}
    {s' : σ} (hJ : J s)
    (h : Returns (waitLoop timer poll pause timeout start passes a) s false s') :
    start.total + timeout * 1000000 < time s' := by
  induction passes generalizing s a with
  | zero => exact absurd h not_returns_throw
  | succ passes ih =>
      rw [waitLoop, returns_bind] at h
      obtain ⟨⟨ready, a'⟩, s₁, hasked, h⟩ := h
      have hJ₁ := hpoll s a _ s₁ hJ hasked
      dsimp only at h
      split_ifs at h with hready
      · exact absurd (returns_pure.mp h).1 (by simp)
      · obtain ⟨s₂, hdelay, hJ₂, -⟩ := htimer.delay hJ₁ pause
        obtain ⟨t, s₃, hnow, hJ₃, -, hto⟩ := htimer.now hJ₂
        rw [hdelay.bind_iff, hnow.bind_iff] at h
        split_ifs at h with hover
        · obtain ⟨-, rfl⟩ := returns_pure.mp h
          exact (total_lt_of_lt_elapsed hover).trans_le hto
        · exact ih hJ₃ h

/-- **Nobody gives up early.**  Whatever the bus answers, and however long it takes for that,
a `wait_ready` function that comes back without success has waited for longer than the
timeout. -/
theorem not_given_up_early (htimer : timer.Runs time J)
    (hpoll : ∀ s a r s', J s → Returns (poll a) s r s' → J s') {s' : σ} (hJ : J s)
    (h : Returns (waitReadyBy timer poll pause timeout a) s false s') :
    time s + timeout * 1000000 < time s' := by
  obtain ⟨t, s₁, hnow, hJ₁, hfrom, -⟩ := htimer.now hJ
  have hlate := lt_time_of_waitLoop htimer hpoll hJ₁ (hnow.bind_iff.mp h)
  omega

end Loop

end PN532

end AsyncNFCServer
