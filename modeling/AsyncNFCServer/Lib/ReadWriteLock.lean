import AsyncNFCServer.Lib.Runs
import Mathlib.Data.List.Nodup

/-!
# Threads under a reader/writer lock

Each thread takes one lock once, exclusively or shared, runs a sequence of
instructions while it holds it, and releases it.  A writer's instruction changes
the shared state and the thread's local state, a reader's only the latter.  A
run is a list of threads, each of which takes its next step when it is its turn
and stays where it is while the lock is not to be had.

`log` records the order in which the lock was taken exclusively.  Nothing looks
at it.  `final_invariant` says that it explains the run: while no writer holds
the lock the shared state is that of the writers in the log executed whole, one
after the other; each writer that has finished has the local state it has in
that execution; and each reader that has finished has read the shared state
after the writers of some prefix of the log.
-/

namespace ReadWriteLock

variable {ι σ ω ρ : Type*}

/-- What a thread does while it holds the lock. -/
inductive Job (σ ω ρ : Type*) where
  | writer (start : ω) (code : List (σ × ω → σ × ω))
  | reader (start : ρ) (code : List (σ → ρ → ρ))

/-- A writer's instructions, one after the other. -/
def runWriter (code : List (σ × ω → σ × ω)) (x : σ × ω) : σ × ω :=
  code.foldl (fun x f => f x) x

/-- A reader's instructions, one after the other, on a shared state that does
not change. -/
def runReader (code : List (σ → ρ → ρ)) (s : σ) (r : ρ) : ρ :=
  code.foldl (fun r f => f s r) r

/-- Where a thread stands: the instructions it has still to execute and its
local state. -/
inductive Phase (σ ω ρ : Type*) where
  | idle
  | writing (rest : List (σ × ω → σ × ω)) (l : ω)
  | reading (rest : List (σ → ρ → ρ)) (r : ρ)
  | wrote (l : ω)
  | hasRead (r : ρ)

/-- The thread holds the lock. -/
def Phase.Holds : Phase σ ω ρ → Prop
  | writing _ _ | reading _ _ => True
  | _ => False

/-- The thread holds the lock exclusively. -/
def Phase.Writes : Phase σ ω ρ → Prop
  | writing _ _ => True
  | _ => False

theorem Phase.Writes.holds {p : Phase σ ω ρ} (h : p.Writes) : p.Holds := by
  cases p with
  | writing rest l => trivial
  | idle | reading rest r | wrote l | hasRead r => exact h.elim

/-- The lock; it is free when it is shared by nobody. -/
inductive Lock (ι : Type*) where
  | exclusive (i : ι)
  | shared (holders : List ι)

/-- The shared state, the lock and the threads. -/
structure World (ι σ ω ρ : Type*) where
  shared : σ
  lock : Lock ι
  phase : ι → Phase σ ω ρ
  log : List ι

/-- No thread has started. -/
def World.start (s : σ) : World ι σ ω ρ := ⟨s, .shared [], fun _ => .idle, []⟩

section Step

variable [DecidableEq ι] (job : ι → Option (Job σ ω ρ))

/-- The next step of thread `i`, which does nothing while the thread has to wait
and when it has no more to do. -/
def step (w : World ι σ ω ρ) (i : ι) : World ι σ ω ρ :=
  match w.phase i with
  | .idle =>
      match job i, w.lock with
      | some (.writer start code), .shared [] =>
          { w with
            lock := .exclusive i
            phase := Function.update w.phase i (.writing code start)
            log := w.log ++ [i] }
      | some (.reader start code), .shared holders =>
          { w with
            lock := .shared (i :: holders)
            phase := Function.update w.phase i (.reading code start) }
      | _, _ => w
  | .writing (f :: rest) l =>
      { w with
        shared := (f (w.shared, l)).1
        phase := Function.update w.phase i (.writing rest (f (w.shared, l)).2) }
  | .writing [] l =>
      { w with lock := .shared [], phase := Function.update w.phase i (.wrote l) }
  | .reading (f :: rest) r =>
      { w with phase := Function.update w.phase i (.reading rest (f w.shared r)) }
  | .reading [] r =>
      { w with
        lock :=
          match w.lock with
          | .shared holders => .shared (holders.erase i)
          | lock => lock
        phase := Function.update w.phase i (.hasRead r) }
  | .wrote _ | .hasRead _ => w

end Step

/-! ## The serial execution -/

variable (job : ι → Option (Job σ ω ρ))

/-- What a thread does to the shared state when it runs alone. -/
def effect (i : ι) (s : σ) : σ :=
  match job i with
  | some (.writer start code) => (runWriter code (s, start)).1
  | _ => s

/-- The threads of a list, one after the other. -/
def serial (s : σ) (is : List ι) : σ :=
  is.foldl (fun s i => effect job i s) s

theorem serial_concat (s : σ) (is : List ι) (i : ι) :
    serial job s (is ++ [i]) = effect job i (serial job s is) := by
  simp [serial]

theorem effect_of_writer {i : ι} {start : ω} {code : List (σ × ω → σ × ω)}
    (h : job i = some (.writer start code)) (s : σ) :
    effect job i s = (runWriter code (s, start)).1 := by
  simp [effect, h]

/-! ## The invariant -/

/-- What the lock says of the threads and of the shared state. -/
def LockExplains (s₀ : σ) (w : World ι σ ω ρ) : Lock ι → Prop
  | .exclusive i =>
      (∀ j, (w.phase j).Holds → j = i) ∧
        ∃ start code pre rest l, job i = some (.writer start code) ∧
          w.phase i = .writing rest l ∧ w.log = pre ++ [i] ∧
          runWriter rest (w.shared, l) = runWriter code (serial job s₀ pre, start)
  | .shared holders =>
      (∀ j, ¬ (w.phase j).Writes) ∧ (∀ j, (w.phase j).Holds → j ∈ holders) ∧
        w.shared = serial job s₀ w.log

/-- What the log says of thread `i` in the phase `p`. -/
def ThreadExplained (s₀ : σ) (w : World ι σ ω ρ) (i : ι) : Phase σ ω ρ → Prop
  | .idle => i ∉ w.log
  | .writing _ _ => True
  | .reading rest r =>
      ∃ start code, job i = some (.reader start code) ∧
        runReader rest w.shared r = runReader code w.shared start
  | .wrote l =>
      ∃ start code pre post, job i = some (.writer start code) ∧ w.log = pre ++ i :: post ∧
        l = (runWriter code (serial job s₀ pre, start)).2
  | .hasRead r =>
      ∃ start code pre, job i = some (.reader start code) ∧ pre <+: w.log ∧
        r = runReader code (serial job s₀ pre) start

/-- The log explains the world. -/
structure Invariant (s₀ : σ) (w : World ι σ ω ρ) : Prop where
  lock : LockExplains job s₀ w w.lock
  threads : ∀ i, ThreadExplained job s₀ w i (w.phase i)
  nodup : w.log.Nodup

theorem invariant_start (s₀ : σ) : Invariant job s₀ (.start s₀) where
  lock := ⟨fun _ h => h, fun _ h => h.elim, rfl⟩
  threads _ := List.not_mem_nil
  nodup := List.nodup_nil

variable {job}

/-- A thread that makes no step stays explained when the log grows by another
thread and, if it is reading, the shared state is not touched. -/
theorem ThreadExplained.frame {s₀ : σ} {w w' : World ι σ ω ρ} {j : ι} {p : Phase σ ω ρ}
    (h : ThreadExplained job s₀ w j p)
    (hlog : w'.log = w.log ∨ ∃ i, i ≠ j ∧ w'.log = w.log ++ [i])
    (hshared : p.Holds → w'.shared = w.shared) : ThreadExplained job s₀ w' j p := by
  have hgrown : w.log <+: w'.log := by
    rcases hlog with hlog | ⟨i, -, hlog⟩ <;> simp [hlog]
  cases p with
  | idle =>
      rcases hlog with hlog | ⟨i, hij, hlog⟩
      · simpa [ThreadExplained, hlog] using h
      · simpa [ThreadExplained, hlog, Ne.symm hij] using h
  | writing rest l => trivial
  | reading rest r =>
      obtain ⟨start, code, hjob, hrest⟩ := h
      exact ⟨start, code, hjob, by rw [hshared trivial]; exact hrest⟩
  | wrote l =>
      -- the log grows behind the writer only
      obtain ⟨start, code, pre, post, hjob, hsplit, hl⟩ := h
      obtain ⟨more, hmore⟩ := hgrown
      exact ⟨start, code, pre, post ++ more, hjob, by rw [← hmore, hsplit]; simp, hl⟩
  | hasRead r =>
      obtain ⟨start, code, pre, hjob, hpre, hr⟩ := h
      exact ⟨start, code, pre, hjob, hpre.trans hgrown, hr⟩

/-! ## One step -/

section Preservation

variable {s₀ : σ} {w : World ι σ ω ρ} {i : ι}

/-- A thread that writes holds the lock, so that no other does. -/
theorem Invariant.writer (h : Invariant job s₀ w) {rest : List (σ × ω → σ × ω)} {l : ω}
    (hphase : w.phase i = .writing rest l) :
    w.lock = .exclusive i ∧ (∀ j, (w.phase j).Holds → j = i) ∧
      ∃ start code pre, job i = some (.writer start code) ∧ w.log = pre ++ [i] ∧
        runWriter rest (w.shared, l) = runWriter code (serial job s₀ pre, start) := by
  have hlock := h.lock
  cases hw : w.lock with
  | shared holders =>
      rw [hw] at hlock
      exact absurd (by rw [hphase]; trivial) (hlock.1 i)
  | exclusive k =>
      rw [hw] at hlock
      obtain ⟨hholder, start, code, pre, rest', l', hjob, hk, hlog, hrest⟩ := hlock
      obtain rfl : i = k := hholder i (by rw [hphase]; trivial)
      obtain ⟨rfl, rfl⟩ := Phase.writing.inj (hphase.symm.trans hk)
      exact ⟨rfl, hholder, start, code, pre, hjob, hlog, hrest⟩

/-- While a thread reads, the lock is shared. -/
theorem Invariant.reader (h : Invariant job s₀ w) {rest : List (σ → ρ → ρ)} {r : ρ}
    (hphase : w.phase i = .reading rest r) :
    ∃ holders, w.lock = .shared holders := by
  cases hw : w.lock with
  | shared holders => exact ⟨holders, rfl⟩
  | exclusive k =>
      have hlock := h.lock
      rw [hw] at hlock
      obtain ⟨hholder, -, -, -, rest', l', -, hk, -⟩ := hlock
      obtain rfl : i = k := hholder i (by rw [hphase]; trivial)
      rw [hphase] at hk
      cases hk

/-- A writer that has begun is in the log. -/
theorem Invariant.mem_log (h : Invariant job s₀ w) {start : ω}
    {code : List (σ × ω → σ × ω)} (hjob : job i = some (.writer start code))
    (hbegun : w.phase i ≠ .idle) : i ∈ w.log := by
  have hexplained := h.threads i
  cases hphase : w.phase i with
  | idle => exact absurd hphase hbegun
  | writing rest l =>
      obtain ⟨-, -, -, -, pre, -, hlog, -⟩ := h.writer hphase
      simp [hlog]
  | wrote l =>
      rw [hphase] at hexplained
      obtain ⟨-, -, pre, post, -, hlog, -⟩ := hexplained
      simp [hlog]
  | reading rest r | hasRead r =>
      -- the lock has been taken shared, by a reader
      rw [hphase] at hexplained
      simp [ThreadExplained, hjob] at hexplained

/-- While nobody writes, the shared state is that of the serial execution. -/
theorem Invariant.shared_eq (h : Invariant job s₀ w) (hfree : ∀ j, ¬ (w.phase j).Writes) :
    w.shared = serial job s₀ w.log := by
  have hlock := h.lock
  cases hw : w.lock with
  | shared holders =>
      rw [hw] at hlock
      exact hlock.2.2
  | exclusive i =>
      rw [hw] at hlock
      obtain ⟨-, -, -, -, rest, l, -, hphase, -⟩ := hlock
      exact absurd (by rw [hphase]; trivial) (hfree i)

variable [DecidableEq ι]

/-- The exclusive lock is taken. -/
theorem Invariant.lockExclusive (h : Invariant job s₀ w) (hidle : w.phase i = .idle)
    {start : ω} {code : List (σ × ω → σ × ω)} (hjob : job i = some (.writer start code))
    (hlock : w.lock = .shared []) :
    Invariant job s₀
      { w with
        lock := .exclusive i
        phase := Function.update w.phase i (.writing code start)
        log := w.log ++ [i] } := by
  have hfree := h.lock
  rw [hlock] at hfree
  obtain ⟨-, hnone, hshared⟩ := hfree
  have hnew := h.threads i
  rw [hidle] at hnew
  constructor
  · refine ⟨(Function.forall_update_iff w.phase fun j p => p.Holds → j = i).mpr
        ⟨fun _ => rfl, fun j _ hj => absurd (hnone j hj) List.not_mem_nil⟩,
      start, code, w.log, code, start, hjob, Function.update_self .., rfl, by rw [hshared]⟩
  · exact (Function.forall_update_iff w.phase _).mpr ⟨trivial, fun j hji =>
      (h.threads j).frame (.inr ⟨i, hji.symm, rfl⟩) fun _ => rfl⟩
  · simpa using List.Nodup.concat hnew h.nodup

/-- The lock is taken shared. -/
theorem Invariant.lockShared (h : Invariant job s₀ w)
    {start : ρ} {code : List (σ → ρ → ρ)} (hjob : job i = some (.reader start code))
    {holders : List ι} (hlock : w.lock = .shared holders) :
    Invariant job s₀
      { w with
        lock := .shared (i :: holders)
        phase := Function.update w.phase i (.reading code start) } := by
  have hheld := h.lock
  rw [hlock] at hheld
  obtain ⟨hnowriter, hholders, hshared⟩ := hheld
  constructor
  · exact ⟨(Function.forall_update_iff w.phase fun _ p => ¬ p.Writes).mpr
        ⟨id, fun j _ => hnowriter j⟩,
      (Function.forall_update_iff w.phase fun j p => p.Holds → j ∈ i :: holders).mpr
        ⟨fun _ => List.mem_cons_self, fun j _ hj => List.mem_cons_of_mem i (hholders j hj)⟩,
      hshared⟩
  · exact (Function.forall_update_iff w.phase _).mpr ⟨⟨start, code, hjob, rfl⟩, fun j _ =>
      (h.threads j).frame (.inl rfl) fun _ => rfl⟩
  · exact h.nodup

/-- A writer executes an instruction. -/
theorem Invariant.write (h : Invariant job s₀ w) {f : σ × ω → σ × ω}
    {rest : List (σ × ω → σ × ω)} {l : ω} (hphase : w.phase i = .writing (f :: rest) l) :
    Invariant job s₀
      { w with
        shared := (f (w.shared, l)).1
        phase := Function.update w.phase i (.writing rest (f (w.shared, l)).2) } := by
  obtain ⟨hlock, hholder, start, code, pre, hjob, hlog, hrest⟩ := h.writer hphase
  constructor
  · rw [hlock]
    exact ⟨(Function.forall_update_iff w.phase fun j p => p.Holds → j = i).mpr
        ⟨fun _ => rfl, fun j _ => hholder j⟩,
      start, code, pre, rest, _, hjob, Function.update_self .., hlog, hrest⟩
  · exact (Function.forall_update_iff w.phase _).mpr ⟨trivial, fun j hji =>
      (h.threads j).frame (.inl rfl) fun hj => absurd (hholder j hj) hji⟩
  · exact h.nodup

/-- The exclusive lock is released. -/
theorem Invariant.unlock (h : Invariant job s₀ w) {l : ω} (hphase : w.phase i = .writing [] l) :
    Invariant job s₀
      { w with lock := .shared [], phase := Function.update w.phase i (.wrote l) } := by
  obtain ⟨-, hholder, start, code, pre, hjob, hlog, hrest⟩ := h.writer hphase
  constructor
  · refine ⟨(Function.forall_update_iff w.phase fun _ p => ¬ p.Writes).mpr
        ⟨id, fun j hji hj => hji (hholder j hj.holds)⟩,
      (Function.forall_update_iff w.phase fun j p => p.Holds → j ∈ []).mpr
        ⟨False.elim, fun j hji hj => absurd (hholder j hj) hji⟩, ?_⟩
    -- nothing is left to execute, so the effect of the writer is complete
    calc w.shared = (runWriter code (serial job s₀ pre, start)).1 := congrArg Prod.fst hrest
      _ = serial job s₀ w.log := by rw [hlog, serial_concat, effect_of_writer job hjob]
  · exact (Function.forall_update_iff w.phase _).mpr
      ⟨⟨start, code, pre, [], hjob, hlog, congrArg Prod.snd hrest⟩, fun j _ =>
        (h.threads j).frame (.inl rfl) fun _ => rfl⟩
  · exact h.nodup

/-- A reader executes an instruction. -/
theorem Invariant.read (h : Invariant job s₀ w) {f : σ → ρ → ρ} {rest : List (σ → ρ → ρ)} {r : ρ}
    (hphase : w.phase i = .reading (f :: rest) r) :
    Invariant job s₀
      { w with phase := Function.update w.phase i (.reading rest (f w.shared r)) } := by
  obtain ⟨holders, hlock⟩ := h.reader hphase
  have hheld := h.lock
  have hreading := h.threads i
  rw [hlock] at hheld
  rw [hphase] at hreading
  obtain ⟨hnowriter, hholders, hshared⟩ := hheld
  constructor
  · rw [hlock]
    exact ⟨(Function.forall_update_iff w.phase fun _ p => ¬ p.Writes).mpr
        ⟨id, fun j _ => hnowriter j⟩,
      (Function.forall_update_iff w.phase fun j p => p.Holds → j ∈ holders).mpr
        ⟨fun _ => hholders i (by rw [hphase]; trivial), fun j _ => hholders j⟩,
      hshared⟩
  · exact (Function.forall_update_iff w.phase _).mpr
      ⟨hreading, fun j _ => (h.threads j).frame (.inl rfl) fun _ => rfl⟩
  · exact h.nodup

/-- The shared lock is released. -/
theorem Invariant.unlockShared (h : Invariant job s₀ w) {r : ρ}
    (hphase : w.phase i = .reading [] r) {holders : List ι} (hlock : w.lock = .shared holders) :
    Invariant job s₀
      { w with
        lock := .shared (holders.erase i)
        phase := Function.update w.phase i (.hasRead r) } := by
  have hheld := h.lock
  have hreading := h.threads i
  rw [hlock] at hheld
  rw [hphase] at hreading
  obtain ⟨hnowriter, hholders, hshared⟩ := hheld
  obtain ⟨start, code, hjob, hrest⟩ := hreading
  constructor
  · exact ⟨(Function.forall_update_iff w.phase fun _ p => ¬ p.Writes).mpr
        ⟨id, fun j _ => hnowriter j⟩,
      (Function.forall_update_iff w.phase fun j p => p.Holds → j ∈ holders.erase i).mpr
        ⟨False.elim, fun j hji hj => (List.mem_erase_of_ne hji).mpr (hholders j hj)⟩,
      hshared⟩
  · -- no writer has come since the lock was taken, so the whole log has been read
    refine (Function.forall_update_iff w.phase _).mpr
      ⟨⟨start, code, w.log, hjob, List.prefix_refl _, ?_⟩, fun j _ =>
        (h.threads j).frame (.inl rfl) fun _ => rfl⟩
    rw [← hshared]
    exact hrest
  · exact h.nodup

/-- Every step keeps the log explaining the world. -/
theorem Invariant.step (h : Invariant job s₀ w) (i : ι) :
    Invariant job s₀ (step job w i) := by
  unfold ReadWriteLock.step
  cases hphase : w.phase i with
  | idle =>
      simp only
      split
      · rename_i hjob hlock
        exact h.lockExclusive hphase hjob hlock
      · rename_i hjob hlock
        exact h.lockShared hjob hlock
      · exact h
  | writing rest l =>
      cases rest with
      | nil => exact h.unlock hphase
      | cons f rest => exact h.write hphase
  | reading rest r =>
      cases rest with
      | nil =>
          obtain ⟨holders, hlock⟩ := h.reader hphase
          simp only [hlock]
          exact h.unlockShared hphase hlock
      | cons f rest => exact h.read hphase
  | wrote l => exact h
  | hasRead r => exact h

end Preservation

/-- In every run the log explains the world. -/
theorem final_invariant [DecidableEq ι] (job : ι → Option (Job σ ω ρ)) (s₀ : σ)
    (schedule : List ι) : Invariant job s₀ (Runs.final (step job) (.start s₀) schedule) :=
  Runs.invariant_final_of_forall (fun _ i h => h.step i) (invariant_start job s₀) schedule

end ReadWriteLock
