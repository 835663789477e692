import AsyncNFCServer.Lib.Unwinding
import AsyncNFCServer.ReaderHandler.Revocation

/-!
# Door clients among others

A door client is answered from the store and changes nothing in it; what its line does is
to its own connection, which is closed if the line is not a package.  So an
installation in which some of the door clients keep silent goes the same way for
everybody else: the same store, the same answers to the administrators and to the
other door clients, the same shutdown (`Process.clients_hidden`).  The hidden clients may
send any bytes, at any time and across restarts.
-/

namespace AsyncNFCServer

namespace Connection

variable {c : Connection}

/-- The reads on the connection are those of a door client. -/
def DoorClient (c : Connection) : Prop := c.pending ≠ [] ∧ ∀ handler ∈ c.pending, handler = .client

/-- No read on the connection is that of a door client. -/
def NoDoorClient (c : Connection) : Prop := ∀ handler ∈ c.pending, handler ≠ .client

theorem DoorClient.head? (h : c.DoorClient) : c.pending.head? = some .client := by
  obtain ⟨hne, hall⟩ := h
  obtain ⟨handler, rest, hpending⟩ := List.exists_cons_of_ne_nil hne
  rw [hpending, List.head?_cons, hall handler (by simp [hpending])]

theorem NoDoorClient.head? (h : c.NoDoorClient) : c.pending.head? ≠ some .client :=
  fun hhead => h .client (List.mem_of_head? hhead) rfl

/-- A line leaves a door client's connection one. -/
theorem DoorClient.receive (h : c.DoorClient) (a : Arrival) : (c.receive a).DoorClient := by
  obtain ⟨hne, hall⟩ := h
  constructor
  · unfold Connection.receive
    split
    · rename_i handler rest hstatus hpending
      obtain rfl := hall handler (by simp [hpending])
      have hout := handleClient_outcome a.line a.store
      dsimp only [ReadHandler.run]
      rw [hout]
      split_ifs <;> simp
    · exact hne
  · intro handler hhandler
    rcases Connection.mem_pending_receive hhandler with hold | ⟨head, hhead, hreads⟩
    · exact hall handler hold
    · obtain rfl := hall head hhead
      simp only [ReadHandler.run, handleClient] at hreads
      split at hreads
      · exact absurd hreads List.not_mem_nil
      · exact List.mem_singleton.mp hreads

/-- The other handlers start no reads of a door client. -/
theorem NoDoorClient.receive (h : c.NoDoorClient) (a : Arrival) : (c.receive a).NoDoorClient := by
  rintro handler hhandler rfl
  rcases Connection.mem_pending_receive hhandler with hold | ⟨head, hhead, hreads⟩
  · exact h _ hold rfl
  · cases head with
    | client => exact h _ hhead rfl
    | uid name accessLevel =>
        rw [ReadHandler.run, handleUID_reads] at hreads
        exact absurd hreads List.not_mem_nil
    | cli =>
        have hrun := cliRun_handleCli a.renames a.line a.store
        rw [ReadHandler.run] at hreads
        generalize (handleCli a.renames a.line a.store).outcome = out at hrun
        generalize (handleCli a.renames a.line a.store).reads = reads at hreads hrun
        cases hrun with
        | shutdown => exact absurd hreads List.not_mem_nil
        | threw => exact absurd hreads List.not_mem_nil
        | command => exact absurd (List.mem_singleton.mp hreads) (by simp)
        | newUser name numeral user => simp at hreads

/-- A connection belongs to one of the two servers. -/
def OneServer (c : Connection) : Prop := c.DoorClient ∨ c.NoDoorClient

theorem OneServer.receive (h : c.OneServer) (a : Arrival) : (c.receive a).OneServer :=
  h.imp (·.receive a) (·.receive a)

theorem oneServer_accept (server : Server) : server.accept.OneServer := by
  cases server with
  | clientServer => exact Or.inl ⟨by simp [Server.accept], by simp [Server.accept, Server.handler]⟩
  | cliServer => exact Or.inr (by simp [NoDoorClient, Server.accept, Server.handler])

end Connection

namespace Process

/-- The handler of the oldest read on a connection, whether or not it will complete. -/
def reader? (p : Process) (connection : Nat) : Option ReadHandler :=
  p.connections[connection]?.bind (·.pending.head?)

/-- The incident is a line of a door client of the group. -/
def FromGroup (group : Nat → Prop) (p : Process) : Incident → Prop
  | .event (.line connection _ _) => group connection ∧ p.reader? connection = some .client
  | _ => False

instance (group : Nat → Prop) [DecidablePred group] (p : Process) :
    ∀ i, Decidable (p.FromGroup group i)
  | .event (.line connection _ _) =>
      inferInstanceAs (Decidable (group connection ∧ p.reader? connection = some .client))
  | .event (.connect _) => .isFalse id
  | .restart => .isFalse id

/-- The lines that are written on an incident. -/
def written (p : Process) : Incident → List Str
  | .event e => p.replies e
  | .restart => []

/-- Two processes differ at most in the connections of door clients of the group. -/
structure Alike (group : Nat → Prop) (p q : Process) : Prop where
  store : p.store = q.store
  running : p.running = q.running
  length : p.connections.length = q.connections.length
  connections (k : Nat) (c d : Connection) (hc : p.connections[k]? = some c)
    (hd : q.connections[k]? = some d) :
      c = d ∧ c.OneServer ∨ group k ∧ c.DoorClient ∧ d.DoorClient

variable {group : Nat → Prop} {p q : Process}

theorem Alike.none_iff (h : Alike group p q) (k : Nat) :
    p.connections[k]? = none ↔ q.connections[k]? = none := by
  rw [List.getElem?_eq_none_iff, List.getElem?_eq_none_iff, h.length]

theorem reader?_eq {c : Connection} {k : Nat} (hc : p.connections[k]? = some c) :
    p.reader? k = c.pending.head? := by
  rw [reader?, hc]
  rfl

theorem handler?_eq {c : Connection} {k : Nat} (hc : p.connections[k]? = some c) :
    p.handler? k = if p.running ∧ c.status = .live then c.pending.head? else none := by
  unfold handler?
  rw [hc]
  obtain ⟨pending, status⟩ := c
  cases p.running <;> cases status <;> cases pending <;> rfl

/-- A line of a door client of the group makes no difference but to its connection. -/
theorem Alike.hides (h : Alike group p q) {i : Incident} (hi : p.FromGroup group i) :
    Alike group (p.next i) q := by
  match i, hi with
  | .event (.line k pkg renames), ⟨hgroup, hclient⟩ =>
    rw [Process.next, step]
    split
    · exact h
    · rename_i handler hhandler
      obtain ⟨hrunning, rest, hc⟩ := exists_of_handler? hhandler
      rw [reader?_eq hc, List.head?_cons, Option.some.injEq] at hclient
      subst hclient
      have hstore : (handleClient pkg p.store).store = p.store :=
        ReadHandler.run_store renames .client pkg p.store
      refine ⟨hstore.trans h.store, ?_, ?_, ?_⟩
      · rw [← h.running, hrunning, decide_eq_true_eq]
        dsimp only [ReadHandler.run]
        rw [handleClient_outcome]
        split_ifs <;> simp
      · rw [List.length_modify]
        exact h.length
      · intro j c d hj hd
        rw [List.getElem?_modify] at hj
        split_ifs at hj with hjk
        · subst hjk
          rw [hc, Option.map_eq_map, Option.map_some, Option.some.injEq] at hj
          subst hj
          rcases h.connections k _ d hc hd with ⟨rfl, hone⟩ | ⟨-, hdoor, hdoor'⟩
          · have hdoor : Connection.DoorClient ⟨.client :: rest, .live⟩ :=
              hone.resolve_right fun hno => hno.head? rfl
            exact Or.inr ⟨hgroup, hdoor.receive _, hdoor⟩
          · exact Or.inr ⟨hgroup, hdoor.receive _, hdoor'⟩
        · exact h.connections j c d (by simpa using hj) hd

theorem Alike.handler?_eq (h : Alike group p q) {k : Nat}
    (hk : ¬ (group k ∧ p.reader? k = some .client)) : p.handler? k = q.handler? k := by
  cases hc : p.connections[k]? with
  | none =>
      have hd := (h.none_iff k).mp hc
      simp [handler?, hc, hd]
  | some c =>
      obtain ⟨d, hd⟩ := Option.ne_none_iff_exists'.mp (mt (h.none_iff k).mpr (by simp [hc]))
      rcases h.connections k c d hc hd with ⟨rfl, -⟩ | ⟨hgroup, hdoor, -⟩
      · rw [Process.handler?_eq hc, Process.handler?_eq hd, h.running]
      · exact absurd ⟨hgroup, (reader?_eq hc).trans hdoor.head?⟩ hk

/-- Any other incident does the same to both. -/
theorem Alike.keeps (h : Alike group p q) {i : Incident} (hi : ¬ p.FromGroup group i) :
    Alike group (p.next i) (q.next i) := by
  match i, hi with
  | .event (.connect server), _ =>
      simp only [Process.next, step, h.running]
      split_ifs
      · refine ⟨h.store, rfl, by simp [h.length], fun j c d hj hd => ?_⟩
        rw [List.getElem?_append] at hj hd
        by_cases hold : j < p.connections.length
        · rw [if_pos hold] at hj
          rw [if_pos (h.length ▸ hold)] at hd
          exact h.connections j c d hj hd
        · rw [if_neg hold] at hj
          rw [if_neg (h.length ▸ hold), ← h.length, hj, Option.some.injEq] at hd
          obtain rfl := List.mem_singleton.mp (List.mem_of_getElem? hj)
          exact Or.inl ⟨hd, Connection.oneServer_accept server⟩
      · exact h
  | .event (.line k pkg renames), hi =>
      simp only [Process.next, step, h.handler?_eq hi, h.store]
      split
      · exact h
      · refine ⟨rfl, rfl, by simp [h.length], fun j c d hj hd => ?_⟩
        rw [List.getElem?_modify] at hj hd
        obtain ⟨c₀, hc₀, rfl⟩ := Option.map_eq_some_iff.mp hj
        obtain ⟨d₀, hd₀, rfl⟩ := Option.map_eq_some_iff.mp hd
        rcases h.connections j c₀ d₀ hc₀ hd₀ with ⟨rfl, hone⟩ | ⟨hgroup, hdoor, hdoor'⟩
        · split_ifs
          · exact Or.inl ⟨rfl, hone.receive _⟩
          · exact Or.inl ⟨rfl, hone⟩
        · split_ifs
          · exact Or.inr ⟨hgroup, hdoor.receive _, hdoor'.receive _⟩
          · exact Or.inr ⟨hgroup, hdoor, hdoor'⟩
  | .restart, _ =>
      simp only [Process.next, h.store]
      cases startup q.store.config with
      | ok s => exact ⟨rfl, rfl, rfl, fun j c d hj => absurd hj (by simp [start])⟩
      | error e => exact ⟨rfl, rfl, h.length, h.connections⟩

theorem Alike.written_eq (h : Alike group p q) {i : Incident} (hi : ¬ p.FromGroup group i) :
    p.written i = q.written i := by
  match i, hi with
  | .event (.connect server), _ => rfl
  | .event (.line k pkg renames), hi =>
      simp only [written, replies, h.handler?_eq hi, h.store]
  | .restart, _ => rfl

theorem unwinding_fromGroup (group : Nat → Prop) :
    Runs.Unwinding Process.next (FromGroup group) written (Alike group) where
  hides h _ hi := h.hides hi
  keeps h _ hi := h.keeps hi
  shows h _ hi := h.written_eq hi

/-- **Door clients do not matter to the others.**  However an installation goes on, it goes the
same way without the lines of any group of door clients: the store, whether the
servers are running, and everything that is written on the other lines. -/
theorem clients_hidden (group : Nat → Prop) [DecidablePred group] (s : Store)
    (history : List Incident) :
    let others := Runs.purge Process.next (FromGroup group) (.start s) history
    (Runs.final Process.next (.start s) history).store =
        (Runs.final Process.next (.start s) others).store ∧
      (Runs.final Process.next (.start s) history).running =
        (Runs.final Process.next (.start s) others).running ∧
      Runs.visible Process.next (FromGroup group) written (.start s) history =
        Runs.outputs Process.next written (.start s) others := by
  have hstart : Alike group (.start s) (.start s) :=
    ⟨rfl, rfl, rfl, fun j c d hj => absurd hj (by simp [start])⟩
  obtain ⟨hend, hlook⟩ := (unwinding_fromGroup group).purge hstart history
  exact ⟨hend.store, hend.running, hlook⟩

end Process

end AsyncNFCServer
