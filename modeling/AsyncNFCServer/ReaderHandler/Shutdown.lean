import AsyncNFCServer.TCP.TcpServer
import AsyncNFCServer.Lib.Runs

/-!
# Startup and shutdown

The constructor of `ReaderHandler` starts the two servers one after the other
and only then sets `running`, the flag that `runLoop` waits on; from the moment
the CLI server runs, its workers may execute `shutdown` commands, which clear the
flag and stop both servers.  A `Program` is the main thread together with the
commands that have been received so far, each step one statement of one of them.

The flag is the only thing both sides write: a `shutdown` is heeded throughout a
run if and only if the constructor does not set it after a command has cleared
it (`heeded_iff`).
-/

namespace AsyncNFCServer

/-- The statement that the main thread executes next. -/
inductive MainPc where
  /-- `clientServer.start()` -/
  | startClient
  /-- `cliServer.start()` -/
  | startCli
  /-- `running = true` -/
  | setRunning
  /-- `while (running)` -/
  | loop
  /-- `clientServer.stop()`, in the destructor -/
  | stopClient
  /-- `cliServer.stop()`, in the destructor -/
  | stopCli
  | done
  deriving DecidableEq, Repr

/-- The statement that a worker executes next in the branch `shutdown`. -/
inductive ShutdownPc where
  /-- `running = false` -/
  | clear
  /-- `clientServer.stop()` -/
  | stopClient
  /-- `cliServer.stop()` -/
  | stopCli
  | done
  deriving DecidableEq, Repr

/-- A `shutdown` command, on the worker of the CLI server at the position. -/
structure ShutdownRun where
  position : Nat
  pc : ShutdownPc
  deriving DecidableEq, Repr

/-- The program. -/
structure Program where
  pc : MainPc
  running : Bool
  clientServer : TcpServer
  cliServer : TcpServer
  shutdowns : List ShutdownRun
  deriving DecidableEq, Repr

/-- Whose turn it is. -/
inductive Turn where
  | main
  /-- the worker at the position receives the command -/
  | receive (position : Nat)
  /-- the next statement of the command with that number -/
  | shutdown (number : Nat)
  deriving DecidableEq, Repr

namespace Program

/-- The constructor of `ReaderHandler` up to the start of the servers; `running`
is a static member, initialised to true. -/
def initial : Program := ⟨.startClient, true, .construct, .construct, []⟩

/-- One statement of the main thread. -/
def stepMain (p : Program) : Program :=
  match p.pc with
  | .startClient =>
      { p with pc := .startCli, clientServer := p.clientServer.start TcpServer.threadCount }
  | .startCli =>
      { p with pc := .setRunning, cliServer := p.cliServer.start TcpServer.threadCount }
  | .setRunning => { p with pc := .loop, running := true }
  | .loop => if p.running then p else { p with pc := .stopClient }
  | .stopClient => { p with pc := .stopCli, clientServer := p.clientServer.stop none }
  | .stopCli => { p with pc := .done, cliServer := p.cliServer.stop none }
  | .done => p

/-- One statement of a `shutdown` command, with the command's place in it. -/
def stepShutdown (p : Program) (number : Nat) (x : ShutdownRun) : Program :=
  match x.pc with
  | .clear =>
      { p with running := false, shutdowns := p.shutdowns.set number { x with pc := .stopClient } }
  | .stopClient =>
      -- the client server's threads do not execute commands
      { p with
        clientServer := p.clientServer.stop none
        shutdowns := p.shutdowns.set number { x with pc := .stopCli } }
  | .stopCli =>
      { p with
        cliServer := p.cliServer.stop (some x.position)
        shutdowns := p.shutdowns.set number { x with pc := .done } }
  | .done => p

/-- One step.  A worker receives a command while its server runs, and none after
that. -/
def step (p : Program) : Turn → Program
  | .main => p.stepMain
  | .receive position =>
      if p.cliServer.running = true ∧ position < TcpServer.threadCount ∧
          position ∉ p.shutdowns.map ShutdownRun.position then
        { p with shutdowns := p.shutdowns ++ [⟨position, .clear⟩] }
      else p
  | .shutdown number =>
      match p.shutdowns[number]? with
      | none => p
      | some x => p.stepShutdown number x

/-- Every `shutdown` command that has begun keeps the flag cleared, so that the
loop ends at its next check, and one that is done has both servers stopped. -/
def Heeded (p : Program) : Prop :=
  ∀ x ∈ p.shutdowns,
    (x.pc ≠ .clear → p.running = false ∧ (p.pc = .loop → p.stepMain.pc ≠ .loop)) ∧
      (x.pc = .done → p.clientServer.running = false ∧ p.cliServer.running = false)

/-- The turn does not set the flag that a command has cleared. -/
def KeepsCleared (p : Program) (turn : Turn) : Prop :=
  turn = .main → p.pc = .setRunning → ∀ x ∈ p.shutdowns, x.pc = .clear

/-- What the commands have seen to: none is received before the CLI server runs,
and each leaves the servers stopped that it has passed. -/
structure Orderly (p : Program) : Prop where
  started : p.pc = .startClient ∨ p.pc = .startCli → p.cliServer.running = false ∧ p.shutdowns = []
  client : ∀ x ∈ p.shutdowns, x.pc = .stopCli ∨ x.pc = .done → p.clientServer.running = false
  cli : ∀ x ∈ p.shutdowns, x.pc = .done → p.cliServer.running = false

/-- The flag's part of `Heeded`. -/
theorem heeded_iff_running {p : Program} (h : p.Orderly) :
    p.Heeded ↔ ∀ x ∈ p.shutdowns, x.pc ≠ .clear → p.running = false := by
  constructor
  · intro hheeded x hx hcleared
    exact ((hheeded x hx).1 hcleared).1
  · intro hrunning x hx
    refine ⟨?_, fun hdone => ⟨h.client x hx (Or.inr hdone), h.cli x hx hdone⟩⟩
    intro hcleared
    have hfalse := hrunning x hx hcleared
    refine ⟨hfalse, ?_⟩
    intro hloop
    simp [stepMain, hloop, hfalse]

theorem orderly_initial : initial.Orderly :=
  ⟨fun _ => ⟨rfl, rfl⟩, by simp [initial], by simp [initial]⟩

/-! ## One step -/

theorem Orderly.stepMain {p : Program} (h : p.Orderly) : p.stepMain.Orderly := by
  cases hpc : p.pc with
  | startClient =>
      obtain ⟨hcli, hnone⟩ := h.started (Or.inl hpc)
      have hnone' : p.stepMain.shutdowns = [] := by simp [Program.stepMain, hpc, hnone]
      exact ⟨fun _ => ⟨by simp [Program.stepMain, hpc, hcli], hnone'⟩, by simp [hnone'],
        by simp [hnone']⟩
  | startCli =>
      obtain ⟨-, hnone⟩ := h.started (Or.inr hpc)
      exact ⟨by simp [Program.stepMain, hpc], by simp [Program.stepMain, hpc, hnone],
        by simp [Program.stepMain, hpc, hnone]⟩
  | setRunning =>
      exact ⟨by simp [Program.stepMain, hpc], by simpa [Program.stepMain, hpc] using h.client,
        by simpa [Program.stepMain, hpc] using h.cli⟩
  | loop =>
      unfold Program.stepMain
      simp only [hpc]
      split_ifs with hrunning
      · exact h
      · exact ⟨by simp, h.client, h.cli⟩
  | stopClient =>
      exact ⟨by simp [Program.stepMain, hpc], by simp [Program.stepMain, hpc],
        by simpa [Program.stepMain, hpc] using h.cli⟩
  | stopCli =>
      exact ⟨by simp [Program.stepMain, hpc], by simpa [Program.stepMain, hpc] using h.client,
        by simp [Program.stepMain, hpc]⟩
  | done =>
      have hsame : p.stepMain = p := by simp [Program.stepMain, hpc]
      rw [hsame]
      exact h

theorem Orderly.stepShutdown {p : Program} (h : p.Orderly) {number : Nat} {x : ShutdownRun}
    (hx : p.shutdowns[number]? = some x) : (p.stepShutdown number x).Orderly := by
  have hmem : x ∈ p.shutdowns := List.mem_of_getElem? hx
  have hpast : ¬ (p.pc = .startClient ∨ p.pc = .startCli) := by
    intro hstart
    rw [(h.started hstart).2] at hmem
    exact absurd hmem List.not_mem_nil
  cases hpc : x.pc with
  | clear =>
      simp only [Program.stepShutdown, hpc]
      refine ⟨fun hstart => absurd hstart hpast, ?_, ?_⟩
      · intro y hy hstopped
        rcases List.mem_or_eq_of_mem_set hy with hold | rfl
        · exact h.client y hold hstopped
        · exact absurd hstopped (by simp)
      · intro y hy hdone
        rcases List.mem_or_eq_of_mem_set hy with hold | rfl
        · exact h.cli y hold hdone
        · exact absurd hdone (by simp)
  | stopClient =>
      simp only [Program.stepShutdown, hpc]
      refine ⟨fun hstart => absurd hstart hpast, fun y _ _ => TcpServer.stop_running _ _, ?_⟩
      intro y hy hdone
      rcases List.mem_or_eq_of_mem_set hy with hold | rfl
      · exact h.cli y hold hdone
      · exact absurd hdone (by simp)
  | stopCli =>
      have hclient := h.client x hmem (Or.inl hpc)
      simp only [Program.stepShutdown, hpc]
      exact ⟨fun hstart => absurd hstart hpast, fun y _ _ => hclient,
        fun y _ _ => TcpServer.stop_running _ _⟩
  | done =>
      simp only [Program.stepShutdown, hpc]
      exact h

theorem Orderly.step {p : Program} (h : p.Orderly) (turn : Turn) : (p.step turn).Orderly := by
  cases turn with
  | main => exact h.stepMain
  | receive position =>
      simp only [Program.step]
      split_ifs with henabled
      · refine ⟨?_, ?_, ?_⟩
        · intro hstart
          rw [(h.started hstart).1] at henabled
          exact absurd henabled.1 (by simp)
        · intro x hx hstopped
          rcases List.mem_append.mp hx with hold | hnew
          · exact h.client x hold hstopped
          · rw [List.mem_singleton.mp hnew] at hstopped
            exact absurd hstopped (by simp)
        · intro x hx hdone
          rcases List.mem_append.mp hx with hold | hnew
          · exact h.cli x hold hdone
          · rw [List.mem_singleton.mp hnew] at hdone
            exact absurd hdone (by simp)
      · exact h
  | shutdown number =>
      simp only [Program.step]
      cases hx : p.shutdowns[number]? with
      | none => exact h
      | some x => exact h.stepShutdown hx

/-- The commands that have begun keep the flag cleared. -/
def Cleared (p : Program) : Prop := ∀ x ∈ p.shutdowns, x.pc ≠ .clear → p.running = false

theorem Cleared.stepMain_iff {p : Program} (h : p.Cleared) :
    p.stepMain.Cleared ↔ p.KeepsCleared .main := by
  cases hpc : p.pc with
  | setRunning =>
      -- the one statement that sets the flag
      simp only [Program.stepMain, hpc, Cleared, Bool.true_eq_false, imp_false, ne_eq, not_not,
        KeepsCleared, forall_const]
  | loop =>
      refine iff_of_true ?_ (by simp [KeepsCleared, hpc])
      simp only [Program.stepMain, hpc]
      split_ifs
      · exact h
      · exact h
  | startClient | startCli | stopClient | stopCli | done =>
      refine iff_of_true ?_ (by simp [KeepsCleared, hpc])
      simpa [Program.stepMain, hpc, Cleared] using h

theorem Cleared.stepShutdown {p : Program} (h : p.Cleared) {number : Nat} {x : ShutdownRun}
    (hx : x ∈ p.shutdowns) : (p.stepShutdown number x).Cleared := by
  cases hpc : x.pc with
  | clear => simp [Program.stepShutdown, hpc, Cleared]
  | stopClient | stopCli | done =>
      have hrunning : p.running = false := h x hx (by simp [hpc])
      simp [Program.stepShutdown, hpc, Cleared, hrunning]

/-- A step keeps the flag cleared exactly if it does not set it. -/
theorem Cleared.step_iff {p : Program} (h : p.Cleared) (turn : Turn) :
    (p.step turn).Cleared ↔ p.KeepsCleared turn := by
  cases turn with
  | main => exact h.stepMain_iff
  | receive position =>
      refine iff_of_true ?_ (by simp [KeepsCleared])
      simp only [Program.step]
      split_ifs with henabled
      · intro x hx hcleared
        rcases List.mem_append.mp hx with hold | hnew
        · exact h x hold hcleared
        · rw [List.mem_singleton.mp hnew] at hcleared
          exact absurd rfl hcleared
      · exact h
  | shutdown number =>
      refine iff_of_true ?_ (by simp [KeepsCleared])
      simp only [Program.step]
      cases hx : p.shutdowns[number]? with
      | none => exact h
      | some x => exact h.stepShutdown (List.mem_of_getElem? hx)

/-! ## Runs -/

/-- **When no shutdown is lost.**  Over any interleaving, `shutdown` commands are
heeded in every state if and only if the constructor never sets the flag after a
command has cleared it. -/
theorem heeded_iff (turns : List Turn) :
    Runs.Along step Heeded initial turns ↔ Runs.Each step KeepsCleared initial turns := by
  refine Runs.along_iff_each_of_forall (J := Orderly) (fun p turn h => h.step turn) ?_
    orderly_initial ?_ turns
  · intro p turn h hheeded
    have hcleared : p.Cleared := (heeded_iff_running h).mp hheeded
    exact (heeded_iff_running (h.step turn)).trans (hcleared.step_iff turn)
  · simp [Heeded, initial]

/-- A command is received and executed before the constructor sets the flag. -/
theorem not_heeded : ¬ ∀ turns : List Turn, Runs.Along step Heeded initial turns := by
  intro h
  have hrun := h [.main, .main, .receive 0, .shutdown 0, .shutdown 0, .shutdown 0, .main]
  have hlast := hrun.final ⟨0, .done⟩ (by decide)
  exact absurd (hlast.1 (by decide)).1 (by decide)

end Program

end AsyncNFCServer
