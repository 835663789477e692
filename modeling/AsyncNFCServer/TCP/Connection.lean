import AsyncNFCServer.ReaderHandler.Saving
import AsyncNFCServer.Lib.Runs

/-!
# The pending reads of a connection

`TcpConnection::read` starts an `async_read_until` and, when it completes, runs
the handler on the line and calls `read` again with the same handler.  The
handlers of `ReaderHandler` start reads too: `handleClient` and `handleCli`
call themselves, `newUser` starts the read for the UID.  A connection is
therefore the queue of its outstanding reads; Asio completes them in the order
in which they were started, each with one line.

The lines of a connection are not the only ones that change the store, so each
arrives with the store that its handler finds: an `Arrival` is a line, that
store, and whether a rename succeeds at that moment.

A connection lives as long as something holds a pointer to it: its outstanding
reads do.  When a handler throws, the read that it came from is not started again,
and if there is no other one the connection is destroyed, which closes the socket.

The number of outstanding reads is one only until the first line has been
handled: `single_read_iff`.
-/

namespace AsyncNFCServer

/-- A line together with what its handler finds. -/
structure Arrival where
  line : Str
  store : Store
  renames : Bool

/-- Whether handlers still run on a connection. -/
inductive Status where
  | live
  /-- `close()` was called, by a handler or by the destructor -/
  | closed
  /-- `shutdown` stopped the servers: no read completes any more -/
  | stopped
  deriving DecidableEq, Repr

/-- A connection: its outstanding reads, oldest first. -/
structure Connection where
  pending : List ReadHandler
  status : Status
  deriving DecidableEq, Repr

/-- The two servers of `ReaderHandler`. -/
inductive Server where
  | clientServer
  | cliServer
  deriving DecidableEq, Repr

/-- The handler of the first read on a connection of the server. -/
def Server.handler : Server → ReadHandler
  | clientServer => .client
  | cliServer => .cli

/-- A connection as `onClientConnect` leaves it. -/
def Server.accept (server : Server) : Connection := ⟨[server.handler], .live⟩

namespace Connection

/-- A connection on which an exception has left these reads: without any, the last
pointer to it is gone. -/
def leftWith (reads : List ReadHandler) : Connection :=
  ⟨reads, if reads = [] then .closed else .live⟩

@[simp] theorem leftWith_pending (reads : List ReadHandler) : (leftWith reads).pending = reads :=
  rfl

theorem leftWith_of_ne_nil {reads : List ReadHandler} (h : reads ≠ []) :
    leftWith reads = ⟨reads, .live⟩ := by
  rw [leftWith, if_neg h]

/-- The completion of the oldest read: its handler runs, and `TcpConnection::read`
starts the read again unless the handler threw. -/
def receive (c : Connection) (a : Arrival) : Connection :=
  match c.status, c.pending with
  | .live, handler :: rest =>
      let run := handler.run a.renames a.line a.store
      match run.outcome with
      | .returned => ⟨rest ++ run.reads ++ [handler], .live⟩
      | .closed => ⟨rest ++ run.reads ++ [handler], .closed⟩
      -- the exception leaves `read` before it starts the next one
      | .threw _ => leftWith (rest ++ run.reads)
      | .shutdown => ⟨rest ++ run.reads, .stopped⟩
  | _, _ => c

theorem receive_of_not_live {c : Connection} (h : c.status ≠ .live) (a : Arrival) :
    c.receive a = c := by
  unfold receive
  split
  · rename_i hlive _
    exact absurd hlive h
  · rfl

/-- A connection that is not live stays as it is. -/
theorem final_of_not_live {c : Connection} (h : c.status ≠ .live) (arrivals : List Arrival) :
    Runs.final receive c arrivals = c := by
  induction arrivals with
  | nil => rfl
  | cons a arrivals ih => rw [Runs.final_cons, receive_of_not_live h, ih]

end Connection

/-! ## What the handlers start -/

theorem handleClient_outcome (pkg : Str) (s : Store) :
    (handleClient pkg s).outcome = if parsePackage pkg = none then .closed else .returned := by
  unfold handleClient
  cases parsePackage pkg <;> simp

theorem handleClient_reads {pkg : Str} (h : parsePackage pkg ≠ none) (s : Store) :
    (handleClient pkg s).reads = [.client] := by
  obtain ⟨fields, hfields⟩ := Option.ne_none_iff_exists'.mp h
  simp [handleClient, hfields]

theorem handleUID_reads (renames : Bool) (name : Str) (accessLevel : UInt8) (pkg : Str)
    (s : Store) : (handleUID renames name accessLevel pkg s).reads = [] := by
  simp only [handleUID]
  split <;> rfl

theorem handleUID_outcome (renames : Bool) (name : Str) (accessLevel : UInt8) (pkg : Str)
    (s : Store) : (handleUID renames name accessLevel pkg s).outcome = .returned ∨
      ∃ e, (handleUID renames name accessLevel pkg s).outcome = .threw e := by
  simp only [handleUID]
  split
  · exact Or.inl rfl
  · exact Or.inr ⟨_, rfl⟩

/-- How a run of `handleCli`'s lambda on `pkg` can end, with the reads it has
started by then. -/
inductive CliRun (pkg : Str) : Outcome → List ReadHandler → Prop
  | shutdown (line : pkg = ascii "shutdown") : CliRun pkg .shutdown []
  | threw (line : pkg ≠ ascii "shutdown") (e : Exn) : CliRun pkg (.threw e) []
  | command (line : pkg ≠ ascii "shutdown") (noUser : newUserSyntax pkg = none) :
      CliRun pkg .returned [.cli]
  | newUser (name numeral : Str) (user : newUserSyntax pkg = some (name, numeral)) :
      CliRun pkg .returned [.uid (toSnakeCase name) (toUInt8 (decimal numeral)), .cli]

theorem ne_shutdown_of_isPrefixOf {command pkg : Str} (hnot : ¬ command <+: ascii "shutdown")
    (h : command.isPrefixOf pkg = true) : pkg ≠ ascii "shutdown" := by
  rintro rfl
  exact hnot (List.isPrefixOf_iff_prefix.mp h)

theorem newUserSyntax_shutdown : newUserSyntax (ascii "shutdown") = none := by decide

/-- A command that starts no read of its own. -/
theorem cliRun_thenHandleCli {pkg : Str} (hline : pkg ≠ ascii "shutdown")
    (hform : newUserSyntax pkg = none) (e : Ended) :
    CliRun pkg (e.thenHandleCli []).outcome (e.thenHandleCli []).reads := by
  unfold Ended.thenHandleCli
  cases e.thrown with
  | none => exact .command hline hform
  | some exn => exact .threw hline exn

/-- A `newUser` line: refused, thrown out by `stoul`, or waiting for the UID. -/
theorem cliRun_newUser {pkg : Str} (hline : pkg ≠ ascii "shutdown") (s : Store) :
    CliRun pkg ((newUser pkg s).1.thenHandleCli (newUser pkg s).2).outcome
      ((newUser pkg s).1.thenHandleCli (newUser pkg s).2).reads := by
  unfold newUser
  cases hform : newUserSyntax pkg with
  | none => exact .command hline hform
  | some fields =>
      obtain ⟨name, numeral⟩ := fields
      cases hn : stoul numeral with
      | none =>
          simp only [hn]
          exact .threw hline _
      | some n =>
          have hdecimal : n = decimal numeral := by
            simp only [stoul, Option.ite_none_right_eq_some, Option.some.injEq] at hn
            exact hn.2.symm
          simp only [hn, hdecimal]
          exact .newUser name numeral hform

theorem cliRun_handleCli (renames : Bool) (pkg : Str) (s : Store) :
    CliRun pkg (handleCli renames pkg s).outcome (handleCli renames pkg s).reads := by
  unfold handleCli
  split_ifs with hdoor huser hrm hlog hshut
  · exact cliRun_thenHandleCli (ne_shutdown_of_isPrefixOf (by decide) hdoor)
      (addSyntax_eq_none (isPrefixOf_eq_false (by decide) (by decide) hdoor)) _
  · exact cliRun_newUser (ne_shutdown_of_isPrefixOf (by decide) huser) s
  · exact cliRun_thenHandleCli (ne_shutdown_of_isPrefixOf (by decide) hrm)
      (addSyntax_eq_none ((Bool.not_eq_true _).mp huser)) _
  · exact .command (by rw [hlog]; decide) (addSyntax_eq_none ((Bool.not_eq_true _).mp huser))
  · exact .shutdown hshut
  · exact .command hshut (addSyntax_eq_none ((Bool.not_eq_true _).mp huser))

/-- As a command the line cannot be executed: `stoul` does not take its numeral, or the
operation on it cannot be completed. -/
def Arrival.Fails (a : Arrival) : Prop :=
  (∃ fields, (newDoorSyntax a.line = some fields ∨ newUserSyntax a.line = some fields) ∧
      stoul fields.2 = none) ∨
    ∃ op, ReadHandler.cli.adminOp a.line = some op ∧ op.Fails a.renames a.store

/-- A line with an operation is not a `newUser` line. -/
theorem adminOp_of_newUserSyntax {line : Str} {fields : Str × Str}
    (h : newUserSyntax line = some fields) : ReadHandler.cli.adminOp line = none := by
  have huser := isPrefixOf_of_addSyntax h
  have hdoor : newDoorSyntax line = none :=
    addSyntax_eq_none (isPrefixOf_eq_false (a := ascii "newUser") (by decide) (by decide) huser)
  have hrm : rmUserSyntax line = none :=
    removeSyntax_eq_none (isPrefixOf_eq_false (a := ascii "newUser") (by decide) (by decide) huser)
  simp [ReadHandler.adminOp, hdoor, hrm]

/-- A line without an operation throws exactly if its numeral is out of range. -/
theorem handleCli_throws_iff_of_none {line : Str} (hop : ReadHandler.cli.adminOp line = none)
    (renames : Bool) (s : Store) :
    (handleCli renames line s).outcome.thrown ≠ none ↔
      ∃ fields, (newDoorSyntax line = some fields ∨ newUserSyntax line = some fields) ∧
        stoul fields.2 = none := by
  cases hdoor : newDoorSyntax line with
  | some fields =>
      have hn : stoul fields.2 = none := by
        simpa [ReadHandler.adminOp, hdoor] using hop
      refine iff_of_true ?_ ⟨fields, Or.inl rfl, hn⟩
      simp [handleCli, isPrefixOf_of_addSyntax hdoor, thenHandleCli_thrown, newDoor, hdoor, hn]
  | none =>
      cases huser : newUserSyntax line with
      | some fields =>
          have hprefix := isPrefixOf_of_addSyntax huser
          have hnot := isPrefixOf_eq_false (a := ascii "newUser") (b := ascii "newDoor")
            (by decide) (by decide) hprefix
          simp only [handleCli, hnot, hprefix, Bool.false_eq_true, if_false, if_true,
            thenHandleCli_thrown, newUser, huser]
          cases hn : stoul fields.2 <;> simp [hn]
      | none =>
          have hrm : rmUserSyntax line = none := by
            simpa [ReadHandler.adminOp, hdoor] using hop
          refine iff_of_false (not_not_intro ?_) (by simp)
          unfold handleCli
          split_ifs
          · rw [thenHandleCli_thrown, newDoor, hdoor]
          · rw [thenHandleCli_thrown, newUser, huser]
          · rw [thenHandleCli_thrown, rmUser, hrm]
          · rfl
          · rfl
          · rfl

/-- **When a command throws.** -/
theorem handleCli_throws_iff (a : Arrival) :
    (handleCli a.renames a.line a.store).outcome.thrown ≠ none ↔ a.Fails := by
  cases hop : ReadHandler.cli.adminOp a.line with
  | none =>
      rw [handleCli_throws_iff_of_none hop, Arrival.Fails]
      exact (or_iff_left (by simp [hop])).symm
  | some op =>
      rw [handleCli_of_adminOp hop, thenHandleCli_thrown, op.throws_iff]
      constructor
      · exact fun hfails => Or.inr ⟨op, hop, hfails⟩
      · rintro (⟨fields, hdoor | huser, hn⟩ | ⟨op', hop', hfails⟩)
        · simp [ReadHandler.adminOp, hdoor, hn] at hop
        · simp [adminOp_of_newUserSyntax huser] at hop
        · rwa [Option.some.inj (hop.symm.trans hop')]

/-- A handler run starts a read for a UID after a `newUser` line, and otherwise
reads of the handlers it belongs to. -/
theorem ReadHandler.eq_of_mem_reads {renames : Bool} {handler started : ReadHandler} {line : Str}
    {s : Store} (h : started ∈ (handler.run renames line s).reads) :
    started = .client ∨ started = .cli ∨
      ∃ name numeral, newUserSyntax line = some (name, numeral) ∧
        started = .uid (toSnakeCase name) (toUInt8 (decimal numeral)) := by
  cases handler with
  | client =>
      simp only [run, handleClient] at h
      split at h
      · exact absurd h List.not_mem_nil
      · exact Or.inl (List.mem_singleton.mp h)
  | uid name accessLevel =>
      rw [run, handleUID_reads] at h
      exact absurd h List.not_mem_nil
  | cli =>
      have hrun := cliRun_handleCli renames line s
      rw [run] at h
      generalize (handleCli renames line s).outcome = out at hrun
      generalize (handleCli renames line s).reads = reads at h hrun
      cases hrun with
      | shutdown => exact absurd h List.not_mem_nil
      | threw => exact absurd h List.not_mem_nil
      | command => exact Or.inr (Or.inl (List.mem_singleton.mp h))
      | newUser name numeral user =>
          rcases List.mem_cons.mp h with huid | hcli
          · exact Or.inr (Or.inr ⟨name, numeral, user, huid⟩)
          · exact Or.inr (Or.inl (List.mem_singleton.mp hcli))

/-- The reads of a connection after a line. -/
theorem Connection.mem_pending_receive {c : Connection} {a : Arrival} {handler : ReadHandler}
    (h : handler ∈ (c.receive a).pending) :
    handler ∈ c.pending ∨
      ∃ head ∈ c.pending, handler ∈ (head.run a.renames a.line a.store).reads := by
  unfold Connection.receive at h
  split at h
  · rename_i head rest hstatus hpending
    rw [hpending]
    have hcases : handler ∈ rest ∨ handler ∈ (head.run a.renames a.line a.store).reads ∨
        handler = head := by
      cases hout : (head.run a.renames a.line a.store).outcome with
      | returned | closed =>
          simpa only [hout, List.mem_append, List.mem_singleton, or_assoc] using h
      | threw | shutdown =>
          simp only [hout, leftWith_pending, List.mem_append] at h
          exact h.imp_right Or.inl
    rcases hcases with hrest | hreads | rfl
    · exact Or.inl (List.mem_cons_of_mem head hrest)
    · exact Or.inr ⟨head, List.mem_cons_self, hreads⟩
    · exact Or.inl List.mem_cons_self
  · exact Or.inl h

/-! ## The number of outstanding reads -/

/-- As the first line of a connection, the line ends it: a package that closes a
door client's connection, `shutdown`, or a command that cannot be executed. -/
def Server.Ends (server : Server) (a : Arrival) : Prop :=
  match server with
  | clientServer => parsePackage a.line = none
  | cliServer => a.line = ascii "shutdown" ∨ a.Fails

/-- Between two handler runs a connection in use has one outstanding read. -/
def Connection.SingleRead (c : Connection) : Prop :=
  c.status = .live → c.pending.length = 1

/-- A first line that ends the connection leaves it not live. -/
theorem Server.receive_accept_of_ends (server : Server) {a : Arrival}
    (h : server.Ends a) : (server.accept.receive a).status ≠ .live := by
  cases server with
  | clientServer =>
      have hout : (handleClient a.line a.store).outcome = .closed := by
        exact (handleClient_outcome _ _).trans (if_pos h)
      simp [accept, handler, Connection.receive, ReadHandler.run, hout]
  | cliServer =>
      rcases h with hline | hfails
      · have hout : (handleCli a.renames a.line a.store).outcome = .shutdown := by
          rw [hline]
          rfl
        simp [accept, handler, Connection.receive, ReadHandler.run, hout]
      · have hthrown := (handleCli_throws_iff a).mpr hfails
        have hrun := cliRun_handleCli a.renames a.line a.store
        generalize hout : (handleCli a.renames a.line a.store).outcome = out at hthrown hrun
        generalize hreads : (handleCli a.renames a.line a.store).reads = reads at hrun
        cases hrun with
        | threw =>
            -- the exception takes the only read with it
            simp [accept, handler, Connection.receive, ReadHandler.run, hout, hreads,
              Connection.leftWith]
        | shutdown | command | newUser => exact absurd rfl hthrown

/-- Any other first line leaves more than one read. -/
theorem Server.receive_accept_of_not_ends (server : Server) {a : Arrival}
    (h : ¬ server.Ends a) : ¬ (server.accept.receive a).SingleRead := by
  intro hsingle
  cases server with
  | clientServer =>
      have hout : (handleClient a.line a.store).outcome = .returned := by
        exact (handleClient_outcome _ _).trans (if_neg h)
      have hreads := handleClient_reads h a.store
      simp [Connection.SingleRead, accept, handler, Connection.receive, ReadHandler.run, hout,
        hreads] at hsingle
  | cliServer =>
      have hrun := cliRun_handleCli a.renames a.line a.store
      generalize hout : (handleCli a.renames a.line a.store).outcome = out at hrun
      generalize hreads : (handleCli a.renames a.line a.store).reads = reads at hrun
      cases hrun with
      | shutdown line => exact h (Or.inl line)
      | threw line e =>
          exact h (Or.inr ((handleCli_throws_iff a).mp (by simp [hout, Outcome.thrown])))
      | command | newUser =>
          simp [Connection.SingleRead, accept, handler, Connection.receive, ReadHandler.run, hout,
            hreads] at hsingle

/-- **When a connection has a single reader.**  Exactly one read is outstanding
in every state of a connection if and only if it receives no line at all, or
ends with its first line. -/
theorem single_read_iff (server : Server) (arrivals : List Arrival) :
    Runs.Along Connection.receive Connection.SingleRead server.accept arrivals ↔
      ∀ a ∈ arrivals.head?, server.Ends a := by
  have hstart : server.accept.SingleRead := fun _ => rfl
  cases arrivals with
  | nil => simpa [Runs.Along] using hstart
  | cons a arrivals =>
      simp only [Runs.Along, List.head?_cons, Option.mem_some_iff, forall_eq']
      constructor
      · rintro ⟨-, hrest⟩
        by_contra hends
        exact server.receive_accept_of_not_ends hends
          (Runs.along_iff_forall_prefix.mp hrest [] List.nil_prefix)
      · intro hends
        have hdead := server.receive_accept_of_ends hends
        refine ⟨hstart, Runs.along_iff_forall_prefix.mpr fun pre _ => ?_⟩
        rw [Connection.final_of_not_live hdead]
        exact fun hlive => absurd hlive hdead

/-- A door client's first package leaves two reads outstanding. -/
theorem not_single_read :
    ¬ ∀ (server : Server) (arrivals : List Arrival),
      Runs.Along Connection.receive Connection.SingleRead server.accept arrivals := by
  intro h
  have hpackage := h .clientServer
    [⟨ascii "door:04a1", load emptyConfig (.doc emptyConfig), true⟩]
  exact absurd (hpackage.2 rfl) (by decide)

/-- Every package that does not close the connection adds a read to a door
client's connection: after `n` of them there are `n + 1`. -/
theorem client_pending (arrivals : List Arrival)
    (h : ∀ a ∈ arrivals, parsePackage a.line ≠ none) :
    Runs.final Connection.receive Server.clientServer.accept arrivals =
      ⟨List.replicate (arrivals.length + 1) .client, .live⟩ := by
  induction arrivals using List.reverseRecOn with
  | nil => rfl
  | append_singleton arrivals a ih =>
      have ha := h a (by simp)
      have hout : (handleClient a.line a.store).outcome = .returned := by
        rw [handleClient_outcome, if_neg ha]
      rw [Runs.final_concat, ih fun b hb => h b (by simp [hb]), List.replicate_succ]
      simp only [Connection.receive, ReadHandler.run, hout, handleClient_reads ha,
        List.length_append, List.length_singleton]
      rw [← List.replicate_succ', ← List.replicate_succ']

end AsyncNFCServer
