import AsyncNFCServer.TCP.Connection

/-!
# Starting and stopping a server

`TcpServer::start` spawns the threads that run the `io_context`, `stop` joins
them.  `stop` is called by the main thread, in the destructors, and by whatever
worker executes a CLI `shutdown`, and it clears `running` before it is done: the
first call on a server does the work and all others return at once.

Assumed is that calls on one server come one after the other, or that at least their
tests of `running` do, each with the clearing behind it: test and clear are separate
statements, and two calls that both test before either has cleared are not modelled.

A thread that joins itself throws, so the first call decides how the server ends
(`cleanStop_iff`).
-/

namespace AsyncNFCServer

/-- The threads that call `stop`: the main thread, and the workers of a server,
numbered by their position in its `asyncThreads_t`. -/
inductive Thread where
  | main
  | worker (server : Server) (position : Nat)
  deriving DecidableEq, Repr

/-- The position of the thread in the `asyncThreads_t` of the server. -/
def Thread.position? (server : Server) : Thread → Option Nat
  | main => none
  | worker server' position => if server' = server then some position else none

/-- `TcpServer`, without its connections. -/
structure TcpServer where
  running : Bool
  /-- `io_context.stop()` has been called -/
  ioStopped : Bool
  acceptorOpen : Bool
  /-- for each thread of `asyncThreads_t`, whether it is joinable -/
  threads : List Bool
  /-- some call of `stop` has joined the thread it was running on -/
  selfJoin : Bool
  deriving DecidableEq, Repr

namespace TcpServer

/-- `TcpServer::threadCount`, as the constructor of `ReaderHandler` sets it. -/
def threadCount : Nat := 4

/-- The constructor: the acceptor listens, nothing runs. -/
def construct : TcpServer := ⟨false, false, true, [], false⟩

/-- `TcpServer::start`, without its accept.  Of the threads that
`asyncThreads_t.clear()` drops none is joinable: a `stop` has joined them, or there
are none. -/
def start (threadCount : Nat) (t : TcpServer) : TcpServer :=
  if t.running then t
  else { t with running := true, ioStopped := false, threads := List.replicate threadCount true }

/-- The loop of `stop` from position `i` on, on the thread at position `self`:
the threads it leaves, and whether `join` threw. -/
def joinFrom (self : Option Nat) : Nat → List Bool → List Bool × Bool
  | _, [] => ([], false)
  | i, joinable :: threads =>
      if joinable = true ∧ self = some i then (joinable :: threads, true)
      else
        let rest := joinFrom self (i + 1) threads
        (false :: rest.1, rest.2)

/-- `TcpServer::stop`, on the thread at position `self` of its own threads, if it
is one. -/
def stop (self : Option Nat) (t : TcpServer) : TcpServer :=
  if t.running then
    let joined := joinFrom self 0 t.threads
    if joined.2 then
      -- the exception of `join` skips the acceptor
      { t with running := false, ioStopped := true, threads := joined.1, selfJoin := true }
    else
      { t with running := false, ioStopped := true, threads := joined.1, acceptorOpen := false }
  else t

/-- What a server must be like when it is destroyed: no call has joined its own
thread, the acceptor is closed and no thread is joinable. -/
def Clean (t : TcpServer) : Prop :=
  t.selfJoin = false ∧ t.acceptorOpen = false ∧ true ∉ t.threads

instance (t : TcpServer) : Decidable t.Clean :=
  inferInstanceAs (Decidable (t.selfJoin = false ∧ t.acceptorOpen = false ∧ true ∉ t.threads))

/-! ## Joining -/

/-- `join` throws exactly on a joinable thread at the caller's own position. -/
theorem joinFrom_threw_iff (self : Option Nat) (i : Nat) (threads : List Bool) :
    (joinFrom self i threads).2 = true ↔
      ∃ k, threads[k]? = some true ∧ self = some (i + k) := by
  induction threads generalizing i with
  | nil => simp [joinFrom]
  | cons joinable threads ih =>
      unfold joinFrom
      split_ifs with hself
      · refine iff_of_true rfl ⟨0, ?_, ?_⟩
        · simp [hself.1]
        · simp [hself.2]
      · rw [ih]
        constructor
        · rintro ⟨k, hk, hpos⟩
          exact ⟨k + 1, by simpa using hk, by rw [hpos, Nat.add_right_comm, Nat.add_assoc]⟩
        · rintro ⟨k, hk, hpos⟩
          cases k with
          | zero => exact absurd ⟨by simpa using hk, by simpa using hpos⟩ hself
          | succ k => exact ⟨k, by simpa using hk, by rw [hpos, Nat.add_right_comm, Nat.add_assoc]⟩

/-- A loop that ends has joined every thread. -/
theorem notMem_joinFrom {self : Option Nat} {i : Nat} {threads : List Bool}
    (h : (joinFrom self i threads).2 = false) : true ∉ (joinFrom self i threads).1 := by
  induction threads generalizing i with
  | nil => simp [joinFrom]
  | cons joinable threads ih =>
      unfold joinFrom at h ⊢
      split_ifs at h ⊢ with hself
      simpa using ih h

theorem stop_of_not_running {t : TcpServer} (h : t.running = false) (self : Option Nat) :
    t.stop self = t := by
  simp [stop, h]

@[simp] theorem stop_running (self : Option Nat) (t : TcpServer) :
    (t.stop self).running = false := by
  cases hrunning : t.running with
  | false => rw [stop_of_not_running hrunning, hrunning]
  | true =>
      simp only [stop, hrunning, if_true]
      split_ifs <;> rfl

@[simp] theorem start_running (threadCount : Nat) (t : TcpServer) :
    (t.start threadCount).running = true := by
  unfold start
  split_ifs with hrunning
  · exact hrunning
  · rfl

/-- The call that stops a running server leaves it clean exactly if it is not on
one of the server's joinable threads. -/
theorem clean_stop_iff {t : TcpServer} (hrunning : t.running = true) (hself : t.selfJoin = false)
    (self : Option Nat) :
    (t.stop self).Clean ↔ ∀ k, t.threads[k]? = some true → self ≠ some k := by
  have hthrew := joinFrom_threw_iff self 0 t.threads
  simp only [Nat.zero_add] at hthrew
  cases hjoin : (joinFrom self 0 t.threads).2 with
  | true =>
      obtain ⟨k, hk, hpos⟩ := hthrew.mp hjoin
      refine iff_of_false ?_ fun h => h k hk hpos
      simp [stop, hrunning, hjoin, Clean]
  | false =>
      refine iff_of_true ?_ ?_
      · simp [stop, hrunning, hjoin, Clean, hself, notMem_joinFrom hjoin]
      · intro k hk hpos
        rw [hthrew.mpr ⟨k, hk, hpos⟩] at hjoin
        exact absurd hjoin (by simp)

end TcpServer

/-! ## Orders of calls -/

/-- A call of `stop`. -/
structure StopCall where
  thread : Thread
  server : Server
  deriving DecidableEq, Repr

/-- The effect of a call on one of the two servers. -/
def TcpServer.afterCall (server : Server) (t : TcpServer) (call : StopCall) : TcpServer :=
  if call.server = server then t.stop (call.thread.position? server) else t

/-- The calls of the main thread when `reader` goes out of scope: those of
`ReaderHandler::stop`, then those of the destructors of its two servers. -/
def destructorCalls : List StopCall :=
  [⟨.main, .clientServer⟩, ⟨.main, .cliServer⟩, ⟨.main, .cliServer⟩, ⟨.main, .clientServer⟩]

/-- Both servers are clean when they are destroyed, after the calls `calls` in
that order. -/
def CleanStop (threadCount : Nat) (calls : List StopCall) : Prop :=
  ∀ server, (Runs.final (TcpServer.afterCall server) (TcpServer.construct.start threadCount)
    (calls ++ destructorCalls)).Clean

/-- Only the first call on a server has an effect. -/
theorem TcpServer.final_afterCall (server : Server) (t : TcpServer) (calls : List StopCall) :
    Runs.final (afterCall server) t calls =
      match calls.find? (fun call => call.server = server) with
      | none => t
      | some call => t.stop (call.thread.position? server) := by
  induction calls generalizing t with
  | nil => rfl
  | cons call calls ih =>
      rw [Runs.final_cons, ih]
      by_cases hserver : call.server = server
      · -- the server is no longer running
        have hstop : ∀ self, ((t.stop (call.thread.position? server)).stop self) =
            t.stop (call.thread.position? server) :=
          fun self => stop_of_not_running (stop_running _ _) self
        simp only [afterCall, hserver, if_true, List.find?_cons, decide_true]
        split <;> simp [hstop]
      · simp [afterCall, hserver]

/-- **When both servers stop cleanly.**  The first call on each server must not
come from one of its own workers. -/
theorem cleanStop_iff (threadCount : Nat) (calls : List StopCall) :
    CleanStop threadCount calls ↔
      ∀ server, ∀ call, calls.find? (fun call => call.server = server) = some call →
        ∀ position, position < threadCount → call.thread ≠ .worker server position := by
  refine forall_congr' fun server => ?_
  rw [TcpServer.final_afterCall, List.find?_append]
  have hthreads : ∀ k, (TcpServer.construct.start threadCount).threads[k]? = some true ↔
      k < threadCount := by
    intro k
    simp [TcpServer.construct, TcpServer.start, List.getElem?_replicate]
  have hclean := fun self => TcpServer.clean_stop_iff
    (TcpServer.start_running threadCount .construct) rfl self
  cases hfirst : calls.find? (fun call => call.server = server) with
  | none =>
      -- the main thread comes first
      have hmain : ∃ call, destructorCalls.find? (fun call => call.server = server) = some call ∧
          call.thread = .main := by
        cases server <;> exact ⟨_, rfl, rfl⟩
      obtain ⟨call, hcall, hthread⟩ := hmain
      simp [hcall, hclean, hthread, Thread.position?]
  | some call =>
      simp only [Option.some_or, hclean, hthreads, Option.some.injEq, forall_eq']
      refine forall_congr' fun position => imp_congr_right fun _ => not_congr ?_
      cases call.thread with
      | main => simp [Thread.position?]
      | worker server' position' => simp [Thread.position?, and_comm]

/-- The calls of a CLI `shutdown` on the worker at the position. -/
def shutdownCalls (position : Nat) : List StopCall :=
  [⟨.worker .cliServer position, .clientServer⟩, ⟨.worker .cliServer position, .cliServer⟩]

/-- A single `shutdown` leaves the CLI server with joinable threads. -/
theorem not_cleanStop :
    ¬ ∀ (threadCount : Nat) (calls : List StopCall), CleanStop threadCount calls := by
  intro h
  exact absurd (h 4 (shutdownCalls 2) .cliServer) (by decide)

end AsyncNFCServer
