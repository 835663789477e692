import AsyncNFCServer.ReaderHandler.Saving
import AsyncNFCServer.ReaderHandler.Commands
import AsyncNFCServer.TCP.Process
import AsyncNFCServer.TCP.TcpServer

/-!
# The workers of a server

A worker runs handlers inside `io_context.run()`, and the `try` around that call
ends the thread: an exception that leaves a handler costs the server a worker
for good, and leaves one read less outstanding on the connection.  The handler
of an accepted connection has a `try` of its own, the handlers of received lines
have not.

Over a file that holds two lists two kinds of lines make a handler throw: a
numeral out of the range of `stoul`, and a UID that is not UTF-8 and so cannot be
dumped.  Without them no worker is ever lost (`unharmed_iff`).
-/

namespace AsyncNFCServer

/-! ## Operations over a sound file -/

/-- config.json is a text whose root is an object and whose lists are arrays. -/
def Content.Sound (config : Content) : Prop :=
  ∃ configJson, config = .doc configJson ∧ configJson.rooted = true ∧
    configJson.takes (ascii "doors") = true ∧ configJson.takes (ascii "users") = true ∧
    configJson.dumps = true

/-- The texts that an operation puts into the file are UTF-8. -/
def AdminOp.text : AdminOp → Bool
  | newDoor name _ => utf8 name
  | newUser name _ uid => utf8 name && utf8 uid
  | rmDoor _ | rmUser _ => true

theorem Json.EditedAt.sound {j edited : Json} {list : Str} {change : List Json → List Json}
    (h : j.EditedAt list change edited) (hroot : j.rooted = true)
    (hdoors : j.takes (ascii "doors") = true) (husers : j.takes (ascii "users") = true)
    (htext : edited.dumps = true) : Content.Sound (.doc edited) := by
  have htakes : ∀ key, j.takes key = true → edited.takes key = true := by
    intro key hkey
    by_cases hlist : key = list
    · rw [hlist] at hkey ⊢
      exact h.takes hkey
    · rwa [Json.takes, h.other key hlist, ← Json.takes]
  exact ⟨edited, rfl, h.rooted hroot, htakes _ hdoors, htakes _ husers, htext⟩

section SoundFile

variable {s : Store} {list name answer : Str} {entry : Json} {enter : Store → Store}
  {forget : Store → Option Store} {e : Ended}

theorem Store.Edits.sound {change : List Json → List Json} {edited : Json}
    (h : s.Edits list change edited) (hsound : s.config.Sound) (htext : edited.dumps = true) :
    Content.Sound (.doc edited) := by
  obtain ⟨configJson, hconfig, hroot, hdoors, husers, -⟩ := hsound
  obtain ⟨configJson', hread, hedited⟩ := h
  obtain rfl : configJson = configJson' := by
    rw [hconfig] at hread
    exact Except.ok.inj hread
  exact hedited.sound hroot hdoors husers htext

/-- An addition throws exactly if its entry is not UTF-8. -/
theorem Addition.thrown_iff (h : Addition true list entry answer enter s e)
    (hsound : s.config.Sound) (hlist : list = ascii "doors" ∨ list = ascii "users") :
    e.thrown = none ↔ entry.dumps = true := by
  obtain ⟨configJson, hconfig, hroot, hdoors, husers, hdumps⟩ := hsound
  have hread : readConfig s.config = .ok configJson := by
    rw [hconfig]
    rfl
  have hlisted : configJson.takes list = true := by
    rcases hlist with rfl | rfl
    · exact hdoors
    · exact husers
  have htakes : s.takes list entry =
      (configJson.rooted && configJson.takes list && configJson.dumps && entry.dumps) :=
    s.takes_eq hread entry
  rw [hroot, hlisted, hdumps] at htakes
  simp only [Bool.true_and] at htakes
  rw [← not_iff_not, ← ne_eq, h.throws_iff, htakes]
  simp

theorem Addition.sound {renames : Bool} (h : Addition renames list entry answer enter s e)
    (henter : (enter s).config = s.config) (hsound : s.config.Sound) : e.store.config.Sound := by
  cases h with
  | unread e readable => exact hsound
  | unsaved e readable fails => exact henter ▸ hsound
  | saved edited readable renamed takes edits text => exact edits.sound hsound text

/-- A removal does not throw. -/
theorem Removal.thrown_eq_none (h : Removal true list name answer forget s e)
    (hsound : s.config.Sound) : e.thrown = none := by
  obtain ⟨configJson, hconfig, -, -, -, hdumps⟩ := hsound
  have hread : readConfig s.config = .ok configJson := by
    rw [hconfig]
    rfl
  by_contra hthrown
  exact (h.throws_iff.mp hthrown).2 ⟨rfl, s.dumpsWithout_of_dumps hread hdumps list name⟩

theorem Removal.sound {renames : Bool} (h : Removal renames list name answer forget s e)
    (hforget : ∀ s', forget s = some s' → s'.config = s.config) (hsound : s.config.Sound) :
    e.store.config.Sound := by
  cases h with
  | unknown forgotten => exact hsound
  | unsaved s' e forgotten fails => exact hforget s' forgotten ▸ hsound
  | saved s' edited forgotten renamed dumps edits text => exact edits.sound hsound text

end SoundFile

/-- Over a sound file an operation throws exactly if a text of it is not UTF-8. -/
theorem AdminOp.thrown_iff (op : AdminOp) {s : Store} (hsound : s.config.Sound) :
    (op.run true s).thrown = none ↔ op.text = true := by
  cases op with
  | newDoor name accessLevel =>
      rw [(addition_newDoor true name accessLevel s).thrown_iff hsound (Or.inl rfl)]
      have hkeys : utf8 (ascii "accessLevel") = true ∧ utf8 (ascii "name") = true := by decide
      simp [doorEntry, Json.dumps, dumpsMembers, hkeys, text]
  | newUser name accessLevel uid =>
      rw [(addition_newUser true name accessLevel uid s).thrown_iff hsound (Or.inr rfl)]
      have hkeys : utf8 (ascii "accessLevel") = true ∧ utf8 (ascii "name") = true ∧
          utf8 (ascii "uid") = true := by decide
      simp [userEntry, Json.dumps, dumpsMembers, hkeys, text]
  | rmDoor name =>
      exact iff_of_true ((removal_rmDoor true name s).thrown_eq_none hsound) rfl
  | rmUser name =>
      exact iff_of_true ((removal_rmUser true name s).thrown_eq_none hsound) rfl

/-- An operation leaves a sound file. -/
theorem AdminOp.sound (renames : Bool) (op : AdminOp) {s : Store} (hsound : s.config.Sound) :
    (op.run renames s).store.config.Sound := by
  cases op with
  | newDoor name accessLevel => exact (addition_newDoor ..).sound rfl hsound
  | newUser name accessLevel uid => exact (addition_newUser ..).sound rfl hsound
  | rmDoor name =>
      refine (removal_rmDoor ..).sound ?_ hsound
      intro s' hs'
      rw [(forgetDoor_eq_some_iff.mp hs').2]
  | rmUser name =>
      refine (removal_rmUser ..).sound ?_ hsound
      intro s' hs'
      obtain ⟨user, -, rfl⟩ := forgetUser_eq_some_iff.mp hs'
      rfl

/-! ## Handler runs over a sound file -/

/-- The line does not make the handler throw: a numeral is in the range of
`stoul`, a UID is UTF-8. -/
def ReadHandler.Harmless : ReadHandler → Str → Prop
  | client, _ => True
  | cli, line =>
      ∀ name numeral, newDoorSyntax line = some (name, numeral) ∨
        newUserSyntax line = some (name, numeral) → decimal numeral ≤ ulongMax
  | uid _ _, line => utf8 line = true

/-- The name that a UID handler has captured is UTF-8. -/
def ReadHandler.TextName : ReadHandler → Prop
  | uid name _ => utf8 name = true
  | _ => True

/-- The name of an accepted addition is text. -/
theorem utf8_of_addSyntax {command line name numeral : Str}
    (h : addSyntax command line = some (name, numeral)) : utf8 (toSnakeCase name) = true := by
  obtain ⟨gap, gap', -, -, hname, -⟩ := addSyntax_eq_some_iff.mp h
  exact utf8_toSnakeCase hname.2

/-- Over a sound file the operation on a command can be completed. -/
theorem not_fails_of_adminOp {line : Str} {op : AdminOp}
    (h : ReadHandler.cli.adminOp line = some op) {s : Store} (hsound : s.config.Sound) :
    ¬ op.Fails true s := by
  rw [← op.throws_iff, ne_eq, not_not, op.thrown_iff hsound]
  rw [ReadHandler.adminOp] at h
  cases hdoor : newDoorSyntax line with
  | some fields =>
      simp only [hdoor, Option.map_eq_some_iff] at h
      obtain ⟨n, -, rfl⟩ := h
      exact utf8_of_addSyntax hdoor
  | none =>
      simp only [hdoor, Option.map_eq_some_iff] at h
      obtain ⟨name, -, rfl⟩ := h
      rfl

/-- Over a sound file a command throws exactly if its numeral is out of range. -/
theorem handleCli_thrown_iff {s : Store} (hsound : s.config.Sound) (line : Str) :
    (handleCli true line s).outcome.thrown = none ↔ ReadHandler.cli.Harmless line := by
  have hthrows := handleCli_throws_iff ⟨line, s, true⟩
  rw [← not_iff_not, ← ne_eq, hthrows, Arrival.Fails, or_iff_left]
  · simp only [ReadHandler.Harmless, not_forall, not_le, stoul_eq_none_iff, Prod.exists,
      exists_prop]
  · rintro ⟨op, hop, hfails⟩
    exact not_fails_of_adminOp hop hsound hfails

/-- **Which lines make a handler throw.** -/
theorem ReadHandler.thrown_iff {handler : ReadHandler} (hname : handler.TextName) (line : Str)
    {s : Store} (hsound : s.config.Sound) :
    (handler.run true line s).outcome.thrown = none ↔ handler.Harmless line := by
  cases handler with
  | client =>
      refine iff_of_true ?_ trivial
      rw [run, handleClient_outcome]
      split_ifs <;> rfl
  | cli => exact handleCli_thrown_iff hsound line
  | uid name accessLevel =>
      have hop : (uid name accessLevel).adminOp line =
          some (.newUser name accessLevel line) := rfl
      obtain ⟨-, hthrown, -⟩ := run_of_adminOp hop true s
      have hname' : utf8 name = true := hname
      rw [hthrown, AdminOp.thrown_iff _ hsound]
      simp [AdminOp.text, hname', Harmless]

/-- A handler closes its connection for malformed client syntax only. -/
theorem ReadHandler.malformed_of_closed {handler : ReadHandler} {renames : Bool} {line : Str}
    {s : Store} (h : (handler.run renames line s).outcome = .closed) :
    handler = .client ∧ parsePackage line = none := by
  cases handler with
  | client =>
      rw [run, handleClient_outcome] at h
      split_ifs at h with hmalformed
      exact ⟨rfl, hmalformed⟩
  | cli =>
      have hrun := cliRun_handleCli renames line s
      rw [run] at h
      rw [h] at hrun
      cases hrun
  | uid name accessLevel =>
      rw [run] at h
      rcases handleUID_outcome renames name accessLevel line s with hout | ⟨e, hout⟩
      · rw [hout] at h
        exact absurd h (by simp)
      · rw [hout] at h
        exact absurd h (by simp)

/-! ## Processes with their workers -/

/-- A process and the threads that serve it. -/
structure Crew where
  process : Process
  /-- the server of each connection -/
  servers : List Server
  /-- the threads of a server that are still inside `io_context.run()` -/
  workers : Server → Nat

namespace Crew

/-- The servers have been started over the loaded store. -/
def start (s : Store) : Crew := ⟨.start s, [], fun _ => TcpServer.threadCount⟩

/-- One event.  It needs a worker of its server to run the handler, and takes
that worker away if the handler throws. -/
def step (c : Crew) : Event → Crew
  | .connect server =>
      if c.process.running = true ∧ 0 < c.workers server then
        -- whatever the accept handler throws is caught inside it
        { c with process := c.process.step (.connect server), servers := c.servers ++ [server] }
      else c
  | .line connection pkg renames =>
      match c.servers[connection]?, c.process.handler? connection with
      | some server, some handler =>
          if 0 < c.workers server then
            let run := handler.run renames pkg c.process.store
            { c with
              process := c.process.step (.line connection pkg renames)
              workers :=
                if run.outcome.thrown = none then c.workers
                else Function.update c.workers server (c.workers server - 1) }
          else c
      | _, _ => c

/-- While the servers run they have all their workers, and every connection that
has not been closed is being read from. -/
def Unharmed (c : Crew) : Prop :=
  c.process.running = true →
    (∀ server, c.workers server = TcpServer.threadCount) ∧
      ∀ connection ∈ c.process.connections, connection.status = .live → connection.pending ≠ []

/-- The event does not make a handler throw. -/
def Harmless (c : Crew) : Event → Prop
  | .connect _ => True
  | .line connection pkg _ =>
      ∀ handler, c.process.handler? connection = some handler → handler.Harmless pkg

/-- The handler that the event runs throws nothing, and closes its connection for
malformed client syntax only.  `shutdown` counts as throwing nothing, although
`cliServer.stop()` then joins the worker it runs on; see `TcpServer.lean`. -/
def Quiet (c : Crew) : Event → Prop
  | .connect _ => True
  | .line connection pkg renames =>
      ∀ handler, c.process.handler? connection = some handler →
        (handler.run renames pkg c.process.store).outcome.thrown = none ∧
          ((handler.run renames pkg c.process.store).outcome = .closed →
            handler = .client ∧ parsePackage pkg = none)

/-- What every event leaves: a sound file, names that are text in the readers of
UIDs, and a server to each connection. -/
structure Sound (c : Crew) : Prop where
  config : c.process.store.config.Sound
  names : ∀ connection ∈ c.process.connections, ∀ handler ∈ connection.pending, handler.TextName
  servers : c.servers.length = c.process.connections.length

theorem sound_start {s : Store} (h : s.config.Sound) : (start s).Sound :=
  ⟨h, by simp [start, Process.start], rfl⟩

theorem unharmed_start (s : Store) : (start s).Unharmed :=
  fun _ => ⟨fun _ => rfl, by simp [start, Process.start]⟩

end Crew

/-! ### What a line does to a connection -/

/-- A handler that does not throw is followed by a read, on a connection that
stays live. -/
theorem Connection.pending_receive_ne_nil {handler : ReadHandler} {rest : List ReadHandler}
    {a : Arrival} (hthrown : (handler.run a.renames a.line a.store).outcome.thrown = none)
    (hlive : ((⟨handler :: rest, .live⟩ : Connection).receive a).status = .live) :
    ((⟨handler :: rest, .live⟩ : Connection).receive a).pending ≠ [] := by
  simp only [Connection.receive] at hlive ⊢
  cases hout : (handler.run a.renames a.line a.store).outcome with
  | returned => simp
  | closed => simp [hout] at hlive
  | threw e => simp [hout, Outcome.thrown] at hthrown
  | shutdown => simp [hout] at hlive

/-! ### One event -/

namespace Crew

/-- An event does nothing, or is one of the process. -/
theorem step_process (c : Crew) (e : Event) :
    c.step e = c ∨ (c.step e).process = c.process.step e := by
  cases e with
  | connect server =>
      simp only [step]
      split_ifs
      · exact Or.inr rfl
      · exact Or.inl rfl
  | line connection pkg renames =>
      simp only [step]
      split
      · rename_i server handler _ _
        by_cases hworkers : 0 < c.workers server
        · rw [if_pos hworkers]
          exact Or.inr rfl
        · rw [if_neg hworkers]
          exact Or.inl rfl
      · exact Or.inl rfl

theorem Sound.config_step {c : Crew} (h : c.Sound) (e : Event) :
    (c.process.step e).store.config.Sound := by
  rw [Process.step_store]
  cases c.process.op e with
  | none => exact h.config
  | some op => exact op.sound e.renames h.config

theorem Sound.names_step {c : Crew} (h : c.Sound) (e : Event) :
    ∀ connection ∈ (c.process.step e).connections, ∀ handler ∈ connection.pending,
      handler.TextName := by
  intro connection hconnection handler hhandler
  rcases Process.mem_pending_step hconnection hhandler with
    ⟨before, hbefore, hold⟩ | rfl | rfl | ⟨line, name, numeral, user, rfl⟩
  · exact h.names before hbefore handler hold
  · trivial
  · trivial
  · exact utf8_of_addSyntax user

theorem Sound.step {c : Crew} (h : c.Sound) (e : Event) : (c.step e).Sound := by
  rcases c.step_process e with hsame | hstep
  · rw [hsame]
    exact h
  · refine ⟨?_, ?_, ?_⟩
    · rw [hstep]
      exact h.config_step e
    · rw [hstep]
      exact h.names_step e
    · have hlength := h.servers
      cases e with
      | connect server =>
          simp only [Crew.step]
          split_ifs with henabled
          · simp [Process.step, henabled.1, hlength]
          · exact hlength
      | line connection pkg renames =>
          simp only [Crew.step]
          split
          · rename_i server handler _ hhandler
            by_cases hworkers : 0 < c.workers server
            · simp [if_pos hworkers, Process.step, hhandler, hlength]
            · simpa only [if_neg hworkers] using hlength
          · exact hlength

variable {c : Crew}

/-- The handler that a connection waits with, and the server it runs on. -/
theorem Sound.server_of_handler? (h : c.Sound) {number : Nat} {handler : ReadHandler}
    (hhandler : c.process.handler? number = some handler) :
    ∃ server, c.servers[number]? = some server := by
  obtain ⟨-, rest, hconnection⟩ := Process.exists_of_handler? hhandler
  obtain ⟨hlt, -⟩ := List.getElem?_eq_some_iff.mp hconnection
  exact ⟨_, List.getElem?_eq_getElem (h.servers ▸ hlt)⟩

theorem Sound.textName_of_handler? (h : c.Sound) {number : Nat} {handler : ReadHandler}
    (hhandler : c.process.handler? number = some handler) : handler.TextName := by
  obtain ⟨-, rest, hconnection⟩ := Process.exists_of_handler? hhandler
  exact h.names _ (List.mem_of_getElem? hconnection) handler List.mem_cons_self

/-- An event is quiet exactly if its line is harmless. -/
theorem Sound.quiet_iff (h : c.Sound) {e : Event} (hsaves : e.renames = true) :
    c.Quiet e ↔ c.Harmless e := by
  cases e with
  | connect server => exact Iff.rfl
  | line number pkg renames =>
      obtain rfl : renames = true := hsaves
      refine forall_congr' fun handler => forall_congr' fun hhandler => ?_
      rw [ReadHandler.thrown_iff (h.textName_of_handler? hhandler) pkg h.config]
      exact and_iff_left ReadHandler.malformed_of_closed

/-- A line that its connection has a worker for. -/
theorem step_line {number : Nat} {server : Server} {handler : ReadHandler} {pkg : Str}
    (hserver : c.servers[number]? = some server)
    (hhandler : c.process.handler? number = some handler) (hworkers : 0 < c.workers server) :
    c.step (.line number pkg true) =
      { c with
        process := c.process.step (.line number pkg true)
        workers :=
          if (handler.run true pkg c.process.store).outcome.thrown = none then c.workers
          else Function.update c.workers server (c.workers server - 1) } := by
  simp only [step, hserver, hhandler, if_pos hworkers]

theorem Unharmed.connect (h : c.Unharmed) (server : Server) :
    (c.step (.connect server)).Unharmed := by
  simp only [step]
  split_ifs with henabled
  · intro _
    obtain ⟨hworkers, hreads⟩ := h henabled.1
    refine ⟨hworkers, ?_⟩
    intro connection hconnection hlive
    simp only [Process.step, if_pos henabled.1] at hconnection
    rcases List.mem_append.mp hconnection with hold | hnew
    · exact hreads connection hold hlive
    · rw [List.mem_singleton.mp hnew]
      exact List.cons_ne_nil _ _
  · exact h

/-- A line whose handler does not throw leaves the workers and the reads. -/
theorem Unharmed.line_of_quiet (h : c.Unharmed) {number : Nat} {server : Server}
    {handler : ReadHandler} {pkg : Str} (hserver : c.servers[number]? = some server)
    (hhandler : c.process.handler? number = some handler) (hworkers : 0 < c.workers server)
    (hthrown : (handler.run true pkg c.process.store).outcome.thrown = none) :
    (c.step (.line number pkg true)).Unharmed := by
  obtain ⟨hrunning, rest, hconnection⟩ := Process.exists_of_handler? hhandler
  obtain ⟨hall, hreads⟩ := h hrunning
  rw [step_line hserver hhandler hworkers, if_pos hthrown]
  intro _
  refine ⟨hall, ?_⟩
  intro connection hmem hlive
  simp only [Process.step, hhandler] at hmem
  rcases Process.mem_modify hmem with hold | ⟨before, hbefore, rfl⟩
  · exact hreads connection hold hlive
  · obtain rfl : ⟨handler :: rest, .live⟩ = before :=
      Option.some.inj (hconnection.symm.trans hbefore)
    exact Connection.pending_receive_ne_nil hthrown hlive

/-- A line whose handler throws takes a worker away while the servers run on. -/
theorem Unharmed.line_of_thrown (h : c.Unharmed) {number : Nat} {server : Server}
    {handler : ReadHandler} {pkg : Str} (hserver : c.servers[number]? = some server)
    (hhandler : c.process.handler? number = some handler) (hworkers : 0 < c.workers server)
    (hthrown : (handler.run true pkg c.process.store).outcome.thrown ≠ none) :
    ¬ (c.step (.line number pkg true)).Unharmed := by
  obtain ⟨hrunning, -⟩ := Process.exists_of_handler? hhandler
  have hall := (h hrunning).1 server
  rw [step_line hserver hhandler hworkers, if_neg hthrown]
  intro hafter
  have hcontinues : (c.process.step (.line number pkg true)).running = true := by
    simp only [Process.step, hhandler, decide_eq_true_eq]
    intro hout
    exact hthrown (by rw [hout]; rfl)
  have hleft := (hafter hcontinues).1 server
  simp only [Function.update_self] at hleft
  omega

/-- **One event** keeps the workers and the reads exactly if it is harmless. -/
theorem unharmed_step_iff (hsound : c.Sound) (h : c.Unharmed) {e : Event}
    (hsaves : e.renames = true) : (c.step e).Unharmed ↔ c.Harmless e := by
  rw [← hsound.quiet_iff hsaves]
  cases e with
  | connect server => exact iff_of_true (h.connect server) trivial
  | line number pkg renames =>
      obtain rfl : renames = true := hsaves
      cases hhandler : c.process.handler? number with
      | none =>
          have hsame : c.step (.line number pkg true) = c := by
            simp [step, hhandler]
          rw [hsame]
          exact iff_of_true h fun handler hsome => by simp [hhandler] at hsome
      | some handler =>
          obtain ⟨server, hserver⟩ := hsound.server_of_handler? hhandler
          have hworkers : 0 < c.workers server := by
            rw [(h (Process.exists_of_handler? hhandler).1).1 server]
            decide
          constructor
          · intro hafter handler' hhandler'
            obtain rfl : handler = handler' := Option.some.inj (hhandler.symm.trans hhandler')
            refine ⟨?_, ReadHandler.malformed_of_closed⟩
            by_contra hthrown
            exact h.line_of_thrown hserver hhandler hworkers hthrown hafter
          · intro hquiet
            exact h.line_of_quiet hserver hhandler hworkers (hquiet handler hhandler).1

/-! ### Runs -/

/-- **Which runs cost a server a worker.**  While file operations succeed, the
handlers are quiet and the servers keep their workers and their reads exactly if
no `newDoor` or `newUser` line has a numeral beyond `stoul` and every UID line is
UTF-8. -/
theorem unharmed_iff {s : Store} (hsound : s.config.Sound) {events : List Event}
    (hsaves : ∀ e ∈ events, e.renames = true) :
    Runs.Each step Quiet (start s) events ∧ Runs.Along step Unharmed (start s) events ↔
      Runs.Each step Harmless (start s) events := by
  have heach : Runs.Each step (fun _ e => e.renames = true) (start s) events :=
    Runs.each_of_forall_mem hsaves _
  have hquiet : Runs.Each step Quiet (start s) events ↔
      Runs.Each step Harmless (start s) events :=
    Runs.each_congr (fun c e hc _ => hc.step e) (fun c e hc he => hc.quiet_iff he)
      (sound_start hsound) heach
  have hunharmed : Runs.Along step Unharmed (start s) events ↔
      Runs.Each step Harmless (start s) events :=
    Runs.along_iff_each (fun c e hc _ => hc.step e)
      (fun c e hc he hP => unharmed_step_iff hc hP he) (sound_start hsound) (unharmed_start s) heach
  rw [hquiet, hunharmed, and_self]

/-- A file with the two empty lists. -/
theorem sound_emptyConfig : (load emptyConfig (.doc emptyConfig)).config.Sound :=
  ⟨emptyConfig, rfl, rfl, rfl, rfl, by decide⟩

/-- A door is added over the command line. -/
theorem unharmed_newDoor :
    let events := [Event.connect .cliServer, .line 0 (ascii "newDoor lab 1") true]
    let c := start (load emptyConfig (.doc emptyConfig))
    Runs.Each step Quiet c events ∧ Runs.Along step Unharmed c events := by
  refine (unharmed_iff sound_emptyConfig (by decide)).mpr ⟨trivial, ?_, trivial⟩
  intro handler hhandler
  obtain rfl : ReadHandler.cli = handler := Option.some.inj hhandler
  have hdoor : newDoorSyntax (ascii "newDoor lab 1") = some (ascii "lab", ascii "1") := by decide
  have huser : newUserSyntax (ascii "newDoor lab 1") = none := by decide
  intro name numeral hform
  rcases hform with hform | hform
  · cases hdoor.symm.trans hform
    decide
  · rw [huser] at hform
    exact absurd hform (by simp)

/-- `stoul` throws on the numeral, and one of four workers is left less. -/
theorem not_forall_unharmed :
    ¬ ∀ (s : Store) (events : List Event), s.config.Sound →
      (∀ e ∈ events, e.renames = true) →
      (∀ e ∈ events, ∀ number renames, e ≠ .line number (ascii "shutdown") renames) →
      Runs.Each step Quiet (start s) events ∧ Runs.Along step Unharmed (start s) events := by
  intro h
  let events : List Event :=
    [.connect .cliServer, .line 0 (ascii "newDoor lab 99999999999999999999") true]
  have hline : ascii "newDoor lab 99999999999999999999" ≠ ascii "shutdown" := by decide
  obtain ⟨-, halong⟩ := h _ events sound_emptyConfig (by decide) (by simp [events, hline])
  obtain ⟨hworkers, -⟩ := halong.final (by decide +kernel)
  have hthree : (Runs.final step (start (load emptyConfig (.doc emptyConfig))) events).workers
      .cliServer = 3 := by decide +kernel
  rw [hworkers] at hthree
  exact absurd hthree (by decide)

end Crew

end AsyncNFCServer
