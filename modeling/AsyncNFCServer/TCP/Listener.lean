import AsyncNFCServer.TCP.TcpServer

/-!
# Accepting connections across stops and starts

`TcpServer::acceptConnection` keeps one accept outstanding: `start` issues the
first, and the handler of a completed accept issues the next one, whatever came of
it.  `stop` closes the acceptor for good: only the constructor opens one.  The
accept that was outstanding is aborted, and its completion waits in the
`io_context` for the next run.

So a server that is started again after a stop runs, with all its threads, over a
closed acceptor, and with a second, stale accept (`listening_iff`).

The calls of `start` and `stop` come from one thread that is no worker.  While it is
inside `stop`, the workers end the handlers that they have begun; `running` is
false by then, so these issue no accept, and the call counts as one event.
-/

namespace AsyncNFCServer

/-- An accept that has been issued and whose handler has not begun. -/
inductive Accept where
  /-- no connection has come yet -/
  | waiting
  /-- its completion, with an error, is in the `io_context` -/
  | aborted
  deriving DecidableEq, Repr

/-- What a handler of `acceptConnection` is called with, and what the callback does. -/
inductive AcceptResult where
  | failed
  /-- a client; `connectHandler` throws a `std::exception` or returns -/
  | connected (throws : Bool)
  deriving DecidableEq, Repr

/-- A `TcpServer` with its accepts. -/
structure Listener where
  server : TcpServer
  accepts : List Accept
  /-- the handlers of completed accepts that are running -/
  handling : Nat
  deriving DecidableEq, Repr

inductive ListenerEvent where
  | start
  | stop
  /-- an outstanding accept completes, and a worker begins its handler -/
  | complete (position : Nat) (result : AcceptResult)
  /-- a handler comes to its last statement -/
  | finish
  deriving DecidableEq, Repr

namespace Listener

def construct : Listener := ⟨.construct, [], 0⟩

/-- `TcpServer::acceptConnection`.  On a closed acceptor the accept completes with an
error. -/
def acceptConnection (l : Listener) : Listener :=
  if l.server.running then
    { l with accepts := l.accepts ++ [if l.server.acceptorOpen then .waiting else .aborted] }
  else l

/-- `TcpServer::start`. -/
def start (threadCount : Nat) (l : Listener) : Listener :=
  if l.server.running then l
  else acceptConnection { l with server := l.server.start threadCount }

/-- `TcpServer::stop`, on a thread that is no worker: it joins the workers, and the
close of the acceptor aborts what is outstanding. -/
def stop (l : Listener) : Listener :=
  if l.server.running then ⟨l.server.stop none, l.accepts.map fun _ => .aborted, 0⟩ else l

/-- The completion of an accept, up to the last statement of its handler.  The
`io_context` must run and a thread of it be free.  The handler catches what the
callback throws, so all results come to its last statement. -/
def complete (position : Nat) (result : AcceptResult) (l : Listener) : Listener :=
  if l.server.ioStopped = false ∧ l.handling < l.server.threads.count true then
    match l.accepts[position]?, result with
    | none, _ => l
    -- an aborted accept has no client
    | some .aborted, .connected _ => l
    | some _, _ =>
        { l with
          accepts := l.accepts.eraseIdx position
          handling := if l.server.running then l.handling + 1 else l.handling }
  else l

/-- `if (running) acceptConnection();` -/
def finish (l : Listener) : Listener :=
  match l.handling with
  | 0 => l
  | handling + 1 => acceptConnection { l with handling := handling }

def step (threadCount : Nat) (l : Listener) : ListenerEvent → Listener
  | .start => l.start threadCount
  | .stop => l.stop
  | .complete position result => l.complete position result
  | .finish => l.finish

/-- One accept waits on the open acceptor, or one handler of it is running. -/
def OneAccept (l : Listener) : Prop :=
  l.accepts = [.waiting] ∧ l.handling = 0 ∨ l.accepts = [] ∧ l.handling = 1

instance (l : Listener) : Decidable l.OneAccept :=
  inferInstanceAs (Decidable (l.accepts = [.waiting] ∧ l.handling = 0 ∨
    l.accepts = [] ∧ l.handling = 1))

/-- A server that runs can be connected to. -/
def Listening (threadCount : Nat) (l : Listener) : Prop :=
  l.server.running = true →
    l.server.acceptorOpen = true ∧ l.OneAccept ∧ l.server.threads.count true = threadCount

instance (threadCount : Nat) (l : Listener) : Decidable (l.Listening threadCount) :=
  inferInstanceAs (Decidable (l.server.running = true → l.server.acceptorOpen = true ∧
    l.OneAccept ∧ l.server.threads.count true = threadCount))

/-- A call of `start` finds the server running, or its acceptor open. -/
def StartsOpen (l : Listener) (e : ListenerEvent) : Prop :=
  e = .start → l.server.running = true ∨ l.server.acceptorOpen = true

instance (l : Listener) (e : ListenerEvent) : Decidable (l.StartsOpen e) :=
  inferInstanceAs (Decidable (e = .start → l.server.running = true ∨
    l.server.acceptorOpen = true))

/-- A server with an open acceptor that does not run has not been started. -/
def Fresh (l : Listener) : Prop :=
  l.server.running = false → l.server.acceptorOpen = true → l.accepts = [] ∧ l.handling = 0

/-! ## One event -/

/-- On a thread that is no worker `join` does not throw. -/
theorem stop_none_acceptorOpen {t : TcpServer} (h : t.running = true) :
    (t.stop none).acceptorOpen = false := by
  have hjoin : (TcpServer.joinFrom none 0 t.threads).2 = false := by
    by_contra hthrew
    obtain ⟨k, -, hpos⟩ :=
      (TcpServer.joinFrom_threw_iff none 0 t.threads).mp (by simpa using hthrew)
    exact absurd hpos (by simp)
  simp [TcpServer.stop, h, hjoin]

variable {threadCount : Nat} {l : Listener}

theorem listening_of_not_running (h : l.server.running = false) : l.Listening threadCount := by
  intro hrunning
  rw [h] at hrunning
  exact absurd hrunning (by simp)

theorem start_of_running (h : l.server.running = true) : l.start threadCount = l := by
  simp [start, h]

/-- A start issues an accept, on an acceptor that is as it was. -/
theorem start_of_not_running (h : l.server.running = false) :
    l.start threadCount = ⟨⟨true, false, l.server.acceptorOpen,
      List.replicate threadCount true, l.server.selfJoin⟩,
      l.accepts ++ [if l.server.acceptorOpen then .waiting else .aborted], l.handling⟩ := by
  simp [start, acceptConnection, TcpServer.start, h]

theorem complete_server (position : Nat) (result : AcceptResult) (l : Listener) :
    (l.complete position result).server = l.server := by
  unfold complete
  by_cases hfree : l.server.ioStopped = false ∧ l.handling < l.server.threads.count true
  · rw [if_pos hfree]
    split <;> rfl
  · rw [if_neg hfree]

theorem finish_server (l : Listener) : l.finish.server = l.server := by
  unfold finish acceptConnection
  split
  · rfl
  · split_ifs <;> rfl

theorem complete_of_nil (h : l.accepts = []) (position : Nat) (result : AcceptResult) :
    l.complete position result = l := by
  simp [complete, h]

theorem finish_of_zero (h : l.handling = 0) : l.finish = l := by
  simp [finish, h]

theorem Fresh.step (h : l.Fresh) (e : ListenerEvent) : (l.step threadCount e).Fresh := by
  intro hrunning hopen
  cases e with
  | start =>
      cases hbefore : l.server.running with
      | true =>
          rw [Listener.step, start_of_running hbefore, hbefore] at hrunning
          exact absurd hrunning (by simp)
      | false =>
          rw [Listener.step, start_of_not_running hbefore] at hrunning
          exact absurd hrunning (by simp)
  | stop =>
      simp only [Listener.step, stop] at hrunning hopen ⊢
      split_ifs at hrunning hopen ⊢ with hbefore
      · rw [stop_none_acceptorOpen hbefore] at hopen
        exact absurd hopen (by simp)
      · exact h hrunning hopen
  | complete position result =>
      rw [Listener.step, complete_server] at hrunning hopen
      obtain ⟨haccepts, hhandling⟩ := h hrunning hopen
      rw [Listener.step, complete_of_nil haccepts]
      exact ⟨haccepts, hhandling⟩
  | finish =>
      rw [Listener.step, finish_server] at hrunning hopen
      obtain ⟨haccepts, hhandling⟩ := h hrunning hopen
      rw [Listener.step, finish_of_zero hhandling]
      exact ⟨haccepts, hhandling⟩

/-- The handler of the one accept takes its place. -/
theorem OneAccept.complete (h : l.OneAccept) (hrunning : l.server.running = true)
    (position : Nat) (result : AcceptResult) : (l.complete position result).OneAccept := by
  rcases h with ⟨haccepts, hhandling⟩ | ⟨haccepts, hhandling⟩
  · unfold Listener.complete
    by_cases hfree : l.server.ioStopped = false ∧ l.handling < l.server.threads.count true
    · rw [if_pos hfree]
      cases position with
      | zero => simp [haccepts, hhandling, hrunning, OneAccept]
      | succ position => simp [haccepts, hhandling, OneAccept]
    · rw [if_neg hfree]
      exact Or.inl ⟨haccepts, hhandling⟩
  · rw [complete_of_nil haccepts]
    exact Or.inr ⟨haccepts, hhandling⟩

/-- When the handler ends, the next accept does. -/
theorem OneAccept.finish (h : l.OneAccept) (hrunning : l.server.running = true)
    (hopen : l.server.acceptorOpen = true) : l.finish.OneAccept := by
  rcases h with ⟨haccepts, hhandling⟩ | ⟨haccepts, hhandling⟩
  · rw [finish_of_zero hhandling]
    exact Or.inl ⟨haccepts, hhandling⟩
  · simp [Listener.finish, acceptConnection, haccepts, hhandling, hrunning, hopen, OneAccept]

theorem start_listening_iff (hfresh : l.Fresh) (h : l.Listening threadCount) :
    (l.start threadCount).Listening threadCount ↔
      (l.server.running = true ∨ l.server.acceptorOpen = true) := by
  cases hrunning : l.server.running with
  | true =>
      rw [start_of_running hrunning]
      exact iff_of_true h (Or.inl rfl)
  | false =>
      rw [start_of_not_running hrunning]
      cases hopen : l.server.acceptorOpen with
      | true =>
          obtain ⟨haccepts, hhandling⟩ := hfresh hrunning hopen
          simp [Listening, OneAccept, haccepts, hhandling]
      | false => simp [Listening]

/-- **One event** keeps a running server connectable, unless it is a start over a
closed acceptor. -/
theorem listening_step_iff (hfresh : l.Fresh) (h : l.Listening threadCount) (e : ListenerEvent) :
    (l.step threadCount e).Listening threadCount ↔ l.StartsOpen e := by
  cases e with
  | start =>
      rw [Listener.step, start_listening_iff hfresh h]
      simp [StartsOpen]
  | stop =>
      refine iff_of_true (listening_of_not_running ?_) (by simp [StartsOpen])
      simp only [Listener.step, stop]
      split_ifs with hrunning
      · exact TcpServer.stop_running none l.server
      · simpa using hrunning
  | complete position result =>
      refine iff_of_true ?_ (by simp [StartsOpen])
      intro hrunning
      rw [Listener.step, complete_server] at hrunning ⊢
      obtain ⟨hopen, hone, hthreads⟩ := h hrunning
      exact ⟨hopen, hone.complete hrunning position result, hthreads⟩
  | finish =>
      refine iff_of_true ?_ (by simp [StartsOpen])
      intro hrunning
      rw [Listener.step, finish_server] at hrunning ⊢
      obtain ⟨hopen, hone, hthreads⟩ := h hrunning
      exact ⟨hopen, hone.finish hrunning hopen, hthreads⟩

end Listener

/-- **When a running server can be connected to.**  Through any calls and accept
results the server, whenever it runs, has its acceptor open, one accept outstanding
or in its handler, and all its threads, if and only if no call of `start` finds the
server stopped with its acceptor closed. -/
theorem listening_iff (threadCount : Nat) (events : List ListenerEvent) :
    Runs.Along (Listener.step threadCount) (Listener.Listening threadCount) .construct events ↔
      Runs.Each (Listener.step threadCount) Listener.StartsOpen .construct events :=
  Runs.along_iff_each_of_forall (J := Listener.Fresh) (fun _ e hfresh => hfresh.step e)
    (fun _ e hfresh h => Listener.listening_step_iff hfresh h e)
    (fun _ _ => ⟨rfl, rfl⟩) (Listener.listening_of_not_running rfl) events

/-- A server that is stopped and started again runs over a closed acceptor. -/
theorem not_forall_listening :
    ¬ ∀ (threadCount : Nat) (events : List ListenerEvent),
      Runs.Along (Listener.step threadCount) (Listener.Listening threadCount) .construct
        events := by
  intro h
  exact absurd (h 4 [.start, .stop, .start]).final (by decide)

end AsyncNFCServer
