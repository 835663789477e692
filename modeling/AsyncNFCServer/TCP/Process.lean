import AsyncNFCServer.TCP.Connection

/-!
# A server process

A `Process` is one run of the server, from the constructor of `ReaderHandler`
on: the store, the connections of both servers, and whether they are running.
A handler run is one event.  It holds `rw_mtx` for all it does to the store
except the parsing of its line, so runs on different connections can be taken
one after the other.

`step_store` is what the properties of the store are derived from: an event
changes the store by the administrative operation of its line, if it has one.
-/

namespace AsyncNFCServer

/-- A run of the server.  Connections are numbered in the order in which they
were accepted. -/
structure Process where
  store : Store
  connections : List Connection
  running : Bool

/-- What can happen to a process. -/
inductive Event where
  | connect (server : Server)
  /-- the oldest read of a connection completes with a line, at a moment when a
  rename succeeds or fails -/
  | line (connection : Nat) (pkg : Str) (renames : Bool)

/-- Whether a rename that the event leads to succeeds. -/
def Event.renames : Event → Bool
  | connect _ => true
  | line _ _ renames => renames

namespace Process

/-- The servers have been started over the loaded store. -/
def start (s : Store) : Process := ⟨s, [], true⟩

/-- The handler of the oldest read of a connection. -/
def handler? (p : Process) (connection : Nat) : Option ReadHandler :=
  if p.running then
    match p.connections[connection]? with
    | some ⟨handler :: _, .live⟩ => some handler
    | _ => none
  else none

/-- One event. -/
def step (p : Process) : Event → Process
  | .connect server =>
      if p.running then { p with connections := p.connections ++ [server.accept] } else p
  | .line connection pkg renames =>
      match p.handler? connection with
      | none => p
      | some handler =>
          let run := handler.run renames pkg p.store
          { store := run.store
            connections := p.connections.modify connection (·.receive ⟨pkg, p.store, renames⟩)
            running := decide (run.outcome ≠ .shutdown) }

/-- The operation on the store that an event performs, if any. -/
def op (p : Process) : Event → Option AdminOp
  | .connect _ => none
  | .line connection pkg _ => (p.handler? connection).bind (·.adminOp pkg)

/-- The lines the handler run of an event writes. -/
def replies (p : Process) : Event → List Str
  | .connect _ => []
  | .line connection pkg renames =>
      match p.handler? connection with
      | none => []
      | some handler => (handler.run renames pkg p.store).replies

/-- An event changes the store by its operation and in no other way. -/
theorem step_store (p : Process) (e : Event) :
    (p.step e).store =
      match p.op e with
      | some op => (op.run e.renames p.store).store
      | none => p.store := by
  cases e with
  | connect server =>
      simp only [step, op]
      split <;> rfl
  | line connection pkg renames =>
      simp only [step, op, Event.renames]
      cases p.handler? connection with
      | none => rfl
      | some handler => exact handler.run_store renames pkg p.store

/-- An event with an operation writes what the operation answers, and does not
stop the servers. -/
theorem replies_of_op {p : Process} {e : Event} {op : AdminOp} (h : p.op e = some op) :
    p.replies e = (op.run e.renames p.store).replies ∧ p.running = true ∧
      (p.step e).running = true := by
  cases e with
  | connect server => exact absurd h (by simp [Process.op])
  | line connection pkg renames =>
      simp only [Process.op, Option.bind_eq_some_iff] at h
      obtain ⟨handler, hhandler, hop⟩ := h
      obtain ⟨hreplies, -, hrunning⟩ := ReadHandler.run_of_adminOp hop renames p.store
      refine ⟨?_, ?_, ?_⟩
      · simpa only [replies, hhandler, Event.renames] using hreplies
      · by_contra hnot
        simp [handler?, hnot] at hhandler
      · simpa only [step, hhandler, decide_eq_true_eq] using hrunning

/-! ## The outstanding reads -/

/-- The handler of an event is the oldest of its connection. -/
theorem exists_of_handler? {p : Process} {connection : Nat} {handler : ReadHandler}
    (h : p.handler? connection = some handler) :
    p.running = true ∧ ∃ rest, p.connections[connection]? = some ⟨handler :: rest, .live⟩ := by
  unfold handler? at h
  split_ifs at h with hrunning
  refine ⟨hrunning, ?_⟩
  split at h
  · rename_i handler' rest hconnection
    obtain rfl := Option.some.inj h
    exact ⟨rest, hconnection⟩
  · exact absurd h (by simp)

theorem mem_modify {α : Type*} {l : List α} {i : Nat} {f : α → α} {y : α}
    (h : y ∈ l.modify i f) : y ∈ l ∨ ∃ x, l[i]? = some x ∧ y = f x := by
  obtain ⟨j, hj⟩ := List.mem_iff_getElem?.mp h
  rw [List.getElem?_modify] at hj
  cases hx : l[j]? with
  | none => simp [hx] at hj
  | some x =>
      simp only [hx, Option.map_eq_map, Option.map_some, Option.some.injEq] at hj
      split_ifs at hj with hij
      · exact Or.inr ⟨x, by rw [hij, hx], hj.symm⟩
      · exact Or.inl (hj ▸ List.mem_of_getElem? hx)

/-- A read that is outstanding after an event was so before, or is one of a
connection's own, or waits for the UID of a `newUser` line. -/
theorem mem_pending_step {p : Process} {e : Event} {connection : Connection}
    {handler : ReadHandler} (hconnection : connection ∈ (p.step e).connections)
    (hhandler : handler ∈ connection.pending) :
    (∃ before ∈ p.connections, handler ∈ before.pending) ∨ handler = .client ∨ handler = .cli ∨
      ∃ line name numeral, newUserSyntax line = some (name, numeral) ∧
        handler = .uid (toSnakeCase name) (toUInt8 (decimal numeral)) := by
  cases e with
  | connect server =>
      simp only [step] at hconnection
      split_ifs at hconnection
      · rcases List.mem_append.mp hconnection with hold | hnew
        · exact Or.inl ⟨connection, hold, hhandler⟩
        · rw [List.mem_singleton.mp hnew] at hhandler
          obtain rfl := List.mem_singleton.mp hhandler
          cases server with
          | clientServer => exact Or.inr (Or.inl rfl)
          | cliServer => exact Or.inr (Or.inr (Or.inl rfl))
      · exact Or.inl ⟨connection, hconnection, hhandler⟩
  | line number pkg renames =>
      simp only [step] at hconnection
      cases hhead : p.handler? number with
      | none =>
          rw [hhead] at hconnection
          exact Or.inl ⟨connection, hconnection, hhandler⟩
      | some head =>
          simp only [hhead] at hconnection
          rcases mem_modify hconnection with hold | ⟨before, hbefore, rfl⟩
          · exact Or.inl ⟨connection, hold, hhandler⟩
          · rcases Connection.mem_pending_receive hhandler with hpending | ⟨head', -, hreads⟩
            · exact Or.inl ⟨before, List.mem_of_getElem? hbefore, hpending⟩
            · rcases ReadHandler.eq_of_mem_reads hreads with hclient | hcli | huid
              · exact Or.inr (Or.inl hclient)
              · exact Or.inr (Or.inr (Or.inl hcli))
              · exact Or.inr (Or.inr (Or.inr ⟨_, huid⟩))

end Process

end AsyncNFCServer
