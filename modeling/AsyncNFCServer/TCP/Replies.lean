import AsyncNFCServer.ReaderHandler.Saving
import AsyncNFCServer.TCP.Connection

/-!
# Replies on the wire

Four workers run the handlers of completed reads, in whatever order they pick
them up, and `TcpConnection::write` starts an `async_write` for each reply
without waiting for the one before.  An `async_write` sends its bytes in parts,
as the socket takes them.  A `Link` is a connection with its completed reads, its
outstanding writes and the bytes the peer has received.

A request of a peer is a line, or on a CLI session a `newUser` line together with
the UID line behind it.  `InOrder` asks for one reply line to each request, in the
order of the requests.

With a single line open at a time there is one write at a time, and if each
handler answers (`ReadHandler.Answers`) the replies arrive whole and in order.
`inOrder_iff` says that this is all the server can promise: as soon as a peer has
a second line open, the replies can be swapped.
-/

namespace AsyncNFCServer

/-- The reader that `TcpConnection::read` starts again after a handler run. -/
def Outcome.rearmed (handler : ReadHandler) : Outcome → List ReadHandler
  | returned | closed => [handler]
  | threw _ | shutdown => []

/-- The status of a connection after a handler run. -/
def Outcome.status : Outcome → Status
  | returned | threw _ => .live
  | closed => .closed
  | shutdown => .stopped

/-- The lines of a peer, each with the replies that its handler run has written, once
it has run. -/
abbrev Log := List (Str × Option (List Str))

/-- A connection in full. -/
structure Link where
  /-- outstanding reads, oldest first -/
  pending : List ReadHandler
  /-- completed reads whose handler has not run: the number of the line, the
  handler and the line -/
  ready : List (Nat × ReadHandler × Str)
  /-- the lines that have been read, numbered from zero -/
  log : Log
  /-- outstanding writes: the bytes still to be sent -/
  writes : List Str
  /-- the bytes the peer has received -/
  wire : Str
  status : Status

/-- What can happen on a link. -/
inductive LinkStep where
  /-- the oldest read completes with a line -/
  | receive (line : Str)
  /-- a worker runs the handler of the `i`-th completed read -/
  | run (i : Nat) (s : Store) (renames : Bool)
  /-- the `j`-th outstanding write sends up to `m + 1` bytes -/
  | send (j m : Nat)

/-- A link as `onClientConnect` leaves it. -/
def Server.link (server : Server) : Link := ⟨[server.handler], [], [], [], [], .live⟩

namespace Link

def receive (l : Link) (line : Str) : Link :=
  match l.status, l.pending with
  | .live, handler :: rest =>
      { l with
        pending := rest
        ready := l.ready ++ [(l.log.length, handler, line)]
        log := l.log ++ [(line, none)] }
  | _, _ => l

def run (l : Link) (i : Nat) (s : Store) (renames : Bool) : Link :=
  match l.status, l.ready[i]? with
  | .live, some (number, handler, line) =>
      let run := handler.run renames line s
      { l with
        pending := l.pending ++ run.reads ++ run.outcome.rearmed handler
        ready := l.ready.eraseIdx i
        log := l.log.set number (line, some run.replies)
        writes := l.writes ++ run.replies.map wireLine
        status := run.outcome.status }
  | _, _ => l

def send (l : Link) (j m : Nat) : Link :=
  match l.writes[j]? with
  | none => l
  | some bytes =>
      { l with
        writes :=
          if bytes.length ≤ m + 1 then l.writes.eraseIdx j
          else l.writes.set j (bytes.drop (m + 1))
        wire := l.wire ++ bytes.take (m + 1) }

/-- A connection that no read, no handler and no write holds any more is destroyed. -/
def release (l : Link) : Link :=
  if l.status = .live ∧ l.pending = [] ∧ l.ready = [] ∧ l.writes = [] then
    { l with status := .closed }
  else l

def step (l : Link) : LinkStep → Link
  | .receive line => l.receive line
  | .run i s renames => (l.run i s renames).release
  | .send j m => (l.send j m).release

/-- The number of lines that are open: waiting for their handler to run, or for
a reply to be sent. -/
def openLines (l : Link) : Nat := l.ready.length + l.writes.length

end Link

/-! ## Requests and replies -/

/-- The line is a command that is followed by the line with its UID. -/
def Server.opens (server : Server) (line : Str) : Bool :=
  decide (server = .cliServer) && (newUserSyntax line).isSome

/-- The last line of the peer is a `newUser` line, and its UID is still to come. -/
def Server.awaitsUid (server : Server) : Log → Bool
  | [] => false
  | (line, _) :: log =>
      if server.opens line then
        match log with
        | [] => true
        | _ :: log => server.awaitsUid log
      else server.awaitsUid log

/-- What has been written for each request, once all of it has been handled. -/
def Server.requests (server : Server) : Log → List (Option (List Str))
  | [] => []
  | (line, written) :: log =>
      if server.opens line then
        match log with
        | [] => [none]
        | (_, answer) :: log =>
            (do pure ((← written) ++ (← answer))) :: server.requests log
      else written :: server.requests log

/-- The reply lines of the requests before the first one that has not been given
exactly one. -/
def repliesTo : List (Option (List Str)) → Str
  | some [reply] :: requests => wireLine reply ++ repliesTo requests
  | _ => []

/-- The text of a reply is one line, and not empty. -/
def IsReply (reply : Str) : Prop := reply ≠ [] ∧ newline ∉ reply

instance : DecidablePred IsReply := fun _ => inferInstanceAs (Decidable (_ ∧ _))

/-- The peer has received reply lines only, the `k`-th of them for its `k`-th request,
and when nothing is open it has one for each request. -/
def Link.InOrder (server : Server) (l : Link) : Prop :=
  l.wire <+: repliesTo (server.requests l.log) ∧
    (l.ready = [] → l.writes = [] → l.wire = repliesTo (server.requests l.log) ∧
      ∀ written, some written ∈ server.requests l.log →
        ∃ reply, written = [reply] ∧ IsReply reply)

/-- The operation succeeds, and is answered: the maps have the name it is to remove,
the document can be edited and written, and the rename succeeds. -/
def AdminOp.Succeeds (renames : Bool) (s : Store) : AdminOp → Prop
  | newDoor name accessLevel =>
      renames = true ∧ s.takes (ascii "doors") (doorEntry name accessLevel) = true
  | newUser name accessLevel uid =>
      renames = true ∧ s.takes (ascii "users") (userEntry name accessLevel uid) = true
  | rmDoor name =>
      s.doors name ≠ none ∧ renames = true ∧ s.dumpsWithout (ascii "doors") name = true
  | rmUser name =>
      s.usersByName name ≠ none ∧ renames = true ∧ s.dumpsWithout (ascii "users") name = true

/-- The handler answers the line: it does not go on to wait for a UID, `stoul` takes the
numeral, and the operation, if there is one, succeeds. -/
def ReadHandler.Answers (renames : Bool) (s : Store) : ReadHandler → Str → Prop
  | client, _ => True
  | uid name accessLevel, line => (AdminOp.newUser name accessLevel line).Succeeds renames s
  | cli, line =>
      newUserSyntax line = none ∧ (∀ fields ∈ newDoorSyntax line, stoul fields.2 ≠ none) ∧
        ∀ op ∈ ReadHandler.cli.adminOp line, op.Succeeds renames s

/-- The handler answers the line, or is a command reader that has got a `newUser` line
where its peer has sent one. -/
def Server.Serves (server : Server) (log : Log) (renames : Bool) (s : Store) :
    Nat × ReadHandler × Str → Prop
  | (number, handler, line) =>
      if server.opens line && !server.awaitsUid (log.take number) then handler = .cli
      else handler.Answers renames s line

/-- A peer that sends each line when fewer than `w` of its lines are open, a door client
packages only; and the handlers serve it. -/
def Server.Sends (server : Server) (w : Nat) (l : Link) : LinkStep → Prop
  | .receive line => (server = .clientServer → parsePackage line ≠ none) ∧ l.openLines < w
  | .run i s renames => ∀ entry ∈ l.ready[i]?, server.Serves l.log renames s entry
  | .send _ _ => True

instance (renames : Bool) (s : Store) : ∀ op : AdminOp, Decidable (op.Succeeds renames s)
  | .newDoor _ _ | .newUser _ _ _ | .rmDoor _ | .rmUser _ => inferInstanceAs (Decidable (_ ∧ _))

instance (renames : Bool) (s : Store) (line : Str) :
    ∀ handler : ReadHandler, Decidable (handler.Answers renames s line)
  | .client => .isTrue trivial
  | .uid name accessLevel =>
      inferInstanceAs (Decidable ((AdminOp.newUser name accessLevel line).Succeeds renames s))
  | .cli =>
      inferInstanceAs (Decidable (newUserSyntax line = none ∧
        (∀ fields ∈ newDoorSyntax line, stoul fields.2 ≠ none) ∧
          ∀ op ∈ ReadHandler.cli.adminOp line, op.Succeeds renames s))

instance (server : Server) (log : Log) (renames : Bool) (s : Store) :
    ∀ entry, Decidable (server.Serves log renames s entry)
  | (number, handler, line) =>
      inferInstanceAs (Decidable (if server.opens line && !server.awaitsUid (log.take number)
        then handler = .cli else handler.Answers renames s line))

instance (server : Server) (w : Nat) (l : Link) : ∀ e : LinkStep, Decidable (server.Sends w l e)
  | .receive line =>
      inferInstanceAs (Decidable ((server = .clientServer → parsePackage line ≠ none) ∧
        l.openLines < w))
  | .run i s renames =>
      inferInstanceAs (Decidable (∀ entry ∈ l.ready[i]?, server.Serves l.log renames s entry))
  | .send _ _ => .isTrue trivial

/-! ## The replies of a handler run -/

theorem Addition.replies_of_succeeds {renames : Bool} {list : Str} {entry : Json} {answer : Str}
    {enter : Store → Store} {s : Store} {e : Ended}
    (h : Addition renames list entry answer enter s e)
    (hsucceeds : renames = true ∧ s.takes list entry = true) : e.replies = [answer] := by
  cases h with
  | unread exn readable =>
      rw [Store.listReadable_of_takes hsucceeds.2] at readable
      exact absurd readable (by simp)
  | unsaved exn readable fails => exact absurd hsucceeds fails
  | saved => rfl

theorem Removal.replies_of_succeeds {renames : Bool} {list name answer : Str}
    {forget : Store → Option Store} {s : Store} {e : Ended}
    (h : Removal renames list name answer forget s e) (hknown : forget s ≠ none)
    (hsucceeds : renames = true ∧ s.dumpsWithout list name = true) : e.replies = [answer] := by
  cases h with
  | unknown forgotten => exact absurd forgotten hknown
  | unsaved s' exn forgotten fails => exact absurd hsucceeds fails
  | saved => rfl

/-- An operation that succeeds is answered by a line. -/
theorem AdminOp.Succeeds.replies {renames : Bool} {op : AdminOp} {s : Store}
    (h : op.Succeeds renames s) :
    ∃ reply, (op.run renames s).replies = [reply] ∧ IsReply reply := by
  cases op with
  | newDoor name accessLevel =>
      exact ⟨_, (addition_newDoor renames name accessLevel s).replies_of_succeeds h, by decide⟩
  | newUser name accessLevel uid =>
      exact ⟨_, (addition_newUser renames name accessLevel uid s).replies_of_succeeds h, by decide⟩
  | rmDoor name =>
      obtain ⟨level, hlevel⟩ := Option.ne_none_iff_exists'.mp h.1
      exact ⟨_, (removal_rmDoor renames name s).replies_of_succeeds (by simp [forgetDoor, hlevel])
        h.2, by decide⟩
  | rmUser name =>
      obtain ⟨user, huser⟩ := Option.ne_none_iff_exists'.mp h.1
      exact ⟨_, (removal_rmUser renames name s).replies_of_succeeds (by simp [forgetUser, huser])
        h.2, by decide⟩

theorem thenHandleCli_replies (e : Ended) (started : List ReadHandler) :
    (e.thenHandleCli started).replies = e.replies := by
  unfold Ended.thenHandleCli
  split <;> rfl

theorem isReply_lookup (s : Store) (name uid : Str) : IsReply (lookup s name uid) := by
  unfold lookup
  split
  · decide
  · split_ifs <;> decide

/-- A command that comes to no operation and starts no read for a UID is answered with a
text of its own. -/
theorem handleCli_replies_of_none {line : Str} (huser : newUserSyntax line = none)
    (hdoor : ∀ fields ∈ newDoorSyntax line, stoul fields.2 ≠ none)
    (hop : ReadHandler.cli.adminOp line = none) (renames : Bool) (s : Store) :
    ∃ reply, (handleCli renames line s).replies = [reply] ∧ IsReply reply := by
  have hnoDoor : newDoorSyntax line = none := by
    cases hform : newDoorSyntax line with
    | none => rfl
    | some fields =>
        obtain ⟨n, hn⟩ := Option.ne_none_iff_exists'.mp (hdoor fields hform)
        simp [ReadHandler.adminOp, hform, hn] at hop
  have hnoRm : rmUserSyntax line = none := by
    simpa [ReadHandler.adminOp, hnoDoor] using hop
  unfold handleCli
  split_ifs
  · exact ⟨_, by rw [thenHandleCli_replies, newDoor, hnoDoor], by decide⟩
  · exact ⟨_, by rw [thenHandleCli_replies, newUser, huser], by decide⟩
  · exact ⟨_, by rw [thenHandleCli_replies, rmUser, hnoRm], by decide⟩
  · exact ⟨_, rfl, by decide⟩
  · exact ⟨_, rfl, by decide⟩
  · exact ⟨_, rfl, by decide⟩

/-- A handler that answers writes one reply line. -/
theorem ReadHandler.Answers.replies {renames : Bool} {handler : ReadHandler} {line : Str}
    {s : Store} (h : handler.Answers renames s line) :
    ∃ reply, (handler.run renames line s).replies = [reply] ∧ IsReply reply := by
  cases handler with
  | client =>
      simp only [run, handleClient]
      cases parsePackage line with
      | none => exact ⟨_, rfl, by decide⟩
      | some fields => exact ⟨_, rfl, isReply_lookup s fields.1 fields.2⟩
  | uid name accessLevel =>
      have hop : (uid name accessLevel).adminOp line = some (.newUser name accessLevel line) := rfl
      rw [(run_of_adminOp hop renames s).1]
      exact AdminOp.Succeeds.replies h
  | cli =>
      obtain ⟨huser, hdoor, hsucceeds⟩ := h
      cases hop : cli.adminOp line with
      | none => exact handleCli_replies_of_none huser hdoor hop renames s
      | some op =>
          rw [(run_of_adminOp hop renames s).1]
          exact (hsucceeds op hop).replies

/-- A `newUser` line is not answered before its UID. -/
theorem handleCli_replies_newUser {line : Str} (h : (newUserSyntax line).isSome = true)
    (renames : Bool) (s : Store) : (handleCli renames line s).replies = [] := by
  obtain ⟨⟨name, numeral⟩, hform⟩ := Option.isSome_iff_exists.mp h
  have huser := isPrefixOf_of_addSyntax hform
  have hnot := isPrefixOf_eq_false (a := ascii "newUser") (b := ascii "newDoor") (by decide)
    (by decide) huser
  rw [handleCli, if_neg (by simp [hnot]), if_pos huser, thenHandleCli_replies, newUser, hform]
  dsimp only
  split <;> rfl

theorem Addition.replies_of_thrown {renames : Bool} {list : Str} {entry : Json} {answer : Str}
    {enter : Store → Store} {s : Store} {e : Ended}
    (h : Addition renames list entry answer enter s e) (hthrown : e.thrown ≠ none) :
    e.replies = [] := by
  cases h with
  | unread | unsaved => rfl
  | saved => exact absurd rfl hthrown

theorem Removal.replies_of_thrown {renames : Bool} {list name answer : Str}
    {forget : Store → Option Store} {s : Store} {e : Ended}
    (h : Removal renames list name answer forget s e) (hthrown : e.thrown ≠ none) :
    e.replies = [] := by
  cases h with
  | unknown | unsaved => rfl
  | saved => exact absurd rfl hthrown

/-- An operation that throws has written nothing. -/
theorem AdminOp.replies_of_thrown {renames : Bool} {op : AdminOp} {s : Store}
    (h : (op.run renames s).thrown ≠ none) : (op.run renames s).replies = [] := by
  cases op with
  | newDoor name accessLevel =>
      exact (addition_newDoor renames name accessLevel s).replies_of_thrown h
  | newUser name accessLevel uid =>
      exact (addition_newUser renames name accessLevel uid s).replies_of_thrown h
  | rmDoor name => exact (removal_rmDoor renames name s).replies_of_thrown h
  | rmUser name => exact (removal_rmUser renames name s).replies_of_thrown h

/-- A command that throws without coming to an operation has a numeral out of range, and
has written nothing. -/
theorem handleCli_replies_of_thrown {line : Str} (hop : ReadHandler.cli.adminOp line = none)
    {renames : Bool} {s : Store} (h : (handleCli renames line s).outcome.thrown ≠ none) :
    (handleCli renames line s).replies = [] := by
  obtain ⟨fields, hdoor | huser, hn⟩ := (handleCli_throws_iff_of_none hop renames s).mp h
  · rw [handleCli, if_pos (isPrefixOf_of_addSyntax hdoor), thenHandleCli_replies]
    simp [newDoor, hdoor, hn]
  · exact handleCli_replies_newUser (by simp [huser]) renames s

/-- A handler that throws has written nothing. -/
theorem ReadHandler.replies_of_threw {renames : Bool} {handler : ReadHandler} {line : Str}
    {s : Store} {e : Exn} (h : (handler.run renames line s).outcome = .threw e) :
    (handler.run renames line s).replies = [] := by
  have hthrows : (handler.run renames line s).outcome.thrown ≠ none := by simp [h, Outcome.thrown]
  cases hop : handler.adminOp line with
  | some op =>
      obtain ⟨hreplies, hthrown, -⟩ := run_of_adminOp hop renames s
      rw [hreplies]
      exact AdminOp.replies_of_thrown (hthrown ▸ hthrows)
  | none =>
      cases handler with
      | client =>
          rw [run, handleClient_outcome] at h
          split_ifs at h
      | uid name accessLevel => exact absurd hop (Option.some_ne_none _)
      | cli => exact handleCli_replies_of_thrown hop hthrows

/-! ## Links and connections -/

/-- A line whose handler runs at once, when nothing else is open, does to a connection with
its reads what it does to the link. -/
theorem link_connection (l : Link) (hready : l.ready = []) (hwrites : l.writes = [])
    (hread : l.pending ≠ []) (a : Arrival) :
    let l' := ((l.receive a.line).run 0 a.store a.renames).release
    Connection.receive ⟨l.pending, l.status⟩ a = ⟨l'.pending, l'.status⟩ := by
  obtain ⟨pending, ready, log, writes, wire, status⟩ := l
  subst hready hwrites
  obtain ⟨handler, rest, rfl⟩ := List.exists_cons_of_ne_nil hread
  cases status with
  | closed | stopped => simp [Link.receive, Link.run, Link.release, Connection.receive]
  | live =>
      simp only [Link.receive, Link.run, Connection.receive, List.nil_append,
        List.getElem?_cons_zero]
      cases hout : (handler.run a.renames a.line a.store).outcome with
      | threw e =>
          have hsilent := ReadHandler.replies_of_threw hout
          by_cases hreads : rest ++ (handler.run a.renames a.line a.store).reads = []
          · simp [Link.release, Connection.leftWith, Outcome.rearmed, Outcome.status, hsilent,
              hreads]
          · simp [Link.release, Connection.leftWith, Outcome.rearmed, Outcome.status, hreads]
      | returned | closed | shutdown => simp [Link.release, Outcome.rearmed, Outcome.status]

/-! ## One open line at a time -/

/-- The lines of whole requests, each answered by one line. -/
inductive Server.Answered (server : Server) : Log → List Str → Prop
  | nil : Server.Answered server [] []
  | line {log : Log} {replies : List Str} {line reply : Str}
      (before : Server.Answered server log replies) (whole : server.opens line = false)
      (reply_line : IsReply reply) :
      Server.Answered server (log ++ [(line, some [reply])]) (replies ++ [reply])
  | newUser {log : Log} {replies : List Str} {line uid reply : Str}
      (before : Server.Answered server log replies) (opened : server.opens line = true)
      (reply_line : IsReply reply) :
      Server.Answered server (log ++ [(line, some []), (uid, some [reply])]) (replies ++ [reply])

namespace Server

variable {server : Server} {log : Log} {replies : List Str}

theorem requests_whole {line : Str} (h : server.opens line = false)
    (written : Option (List Str)) (log : Log) :
    server.requests ((line, written) :: log) = written :: server.requests log := by
  cases log <;> simp [requests, h]

theorem requests_opens {line : Str} (h : server.opens line = true)
    (written answer : Option (List Str)) (uid : Str) (log : Log) :
    server.requests ((line, written) :: (uid, answer) :: log) =
      (do pure ((← written) ++ (← answer))) :: server.requests log := by
  simp [requests, h]

theorem awaitsUid_whole {line : Str} (h : server.opens line = false)
    (written : Option (List Str)) (log : Log) :
    server.awaitsUid ((line, written) :: log) = server.awaitsUid log := by
  cases log <;> simp [awaitsUid, h]

theorem awaitsUid_opens {line : Str} (h : server.opens line = true)
    (written answer : Option (List Str)) (uid : Str) (log : Log) :
    server.awaitsUid ((line, written) :: (uid, answer) :: log) = server.awaitsUid log := by
  simp [awaitsUid, h]

theorem Answered.isReply (h : server.Answered log replies) :
    ∀ reply ∈ replies, IsReply reply := by
  induction h with
  | nil => simp
  | line _ _ hreply ih | newUser _ _ hreply ih =>
      intro reply hmem
      rcases List.mem_append.mp hmem with hold | hnew
      · exact ih reply hold
      · rwa [List.mem_singleton.mp hnew]

/-- What comes behind whole requests is grouped as if it stood alone. -/
theorem Answered.requests_append (h : server.Answered log replies) (rest : Log) :
    server.requests (log ++ rest) =
      replies.map (fun reply => some [reply]) ++ server.requests rest := by
  induction h generalizing rest with
  | nil => rfl
  | line _ whole _ ih =>
      rw [List.append_assoc, ih, List.singleton_append, requests_whole whole]
      simp
  | newUser _ opened _ ih =>
      rw [List.append_assoc, ih, List.cons_append, List.singleton_append, requests_opens opened]
      simp

theorem Answered.awaitsUid_append (h : server.Answered log replies) (rest : Log) :
    server.awaitsUid (log ++ rest) = server.awaitsUid rest := by
  induction h generalizing rest with
  | nil => rfl
  | line _ whole _ ih =>
      rw [List.append_assoc, ih, List.singleton_append, awaitsUid_whole whole]
  | newUser _ opened _ ih =>
      rw [List.append_assoc, ih, List.cons_append, List.singleton_append, awaitsUid_opens opened]

end Server

theorem repliesTo_append (replies : List Str) (rest : List (Option (List Str))) :
    repliesTo (replies.map (fun reply => some [reply]) ++ rest) =
      replies.flatMap wireLine ++ repliesTo rest := by
  induction replies with
  | nil => rfl
  | cons reply replies ih => simp [repliesTo, ih]

namespace Link

/-- The `newUser` line whose UID is still to come, if there is one, in the log. -/
def waiting : Option Str → Log
  | none => []
  | some line => [(line, some [])]

/-- All requests but the last have been answered, and at most one reply is still being
sent; of the last one no more is missing than a UID, or its line waits for its handler. -/
def Serial (server : Server) (l : Link) : Prop :=
  ∃ (log : Log) (replies : List Str) (opened : Option Str),
    server.Answered log replies ∧ (∀ line ∈ opened, server.opens line = true) ∧
      l.wire ++ l.writes.flatten = replies.flatMap wireLine ∧
      ((l.ready = [] ∧ l.log = log ++ waiting opened ∧ l.writes.length ≤ 1) ∨
        ∃ handler line, l.ready = [((log ++ waiting opened).length, handler, line)] ∧
          l.writes = [] ∧ l.log = log ++ waiting opened ++ [(line, none)])

variable {server : Server} {l : Link}

/-- Behind the requests that have been answered there is at most one. -/
theorem requests_waiting {opened : Option Str} (h : ∀ line ∈ opened, server.opens line = true) :
    (server.requests (waiting opened) = [] ∨ server.requests (waiting opened) = [none]) ∧
      ∀ line, server.requests (waiting opened ++ [(line, none)]) = [none] := by
  cases opened with
  | none =>
      refine ⟨Or.inl rfl, fun line => ?_⟩
      simp only [waiting, List.nil_append, Server.requests]
      split_ifs <;> rfl
  | some first =>
      have hopens := h first rfl
      exact ⟨Or.inr (by simp [waiting, Server.requests, hopens]), fun line => by
        rw [waiting, List.singleton_append, Server.requests_opens hopens]
        rfl⟩

theorem Serial.inOrder (h : l.Serial server) : l.InOrder server := by
  obtain ⟨log, replies, opened, hanswered, hopened, hwire, hcase⟩ := h
  obtain ⟨rest, hrest, hrequests⟩ : ∃ rest, (rest = [] ∨ rest = [none]) ∧
      server.requests l.log = replies.map (fun reply => some [reply]) ++ rest := by
    obtain ⟨hidle, hbusy⟩ := requests_waiting hopened
    rcases hcase with ⟨-, heq, -⟩ | ⟨handler, line, -, -, heq⟩
    · exact ⟨_, hidle, by rw [heq, hanswered.requests_append]⟩
    · refine ⟨_, Or.inr (hbusy line), ?_⟩
      rw [heq, List.append_assoc, hanswered.requests_append]
  have hreplies : repliesTo (server.requests l.log) = l.wire ++ l.writes.flatten := by
    rw [hrequests, repliesTo_append, hwire]
    rcases hrest with rfl | rfl <;> simp [repliesTo]
  rw [InOrder, hreplies]
  refine ⟨List.prefix_append _ _, fun _ hwrites => ⟨by simp [hwrites], ?_⟩⟩
  intro written hwritten
  rw [hrequests, List.mem_append] at hwritten
  rcases hwritten with hmem | hmem
  · obtain ⟨reply, hreply, heq⟩ := List.mem_map.mp hmem
    exact ⟨reply, (Option.some.inj heq).symm, hanswered.isReply reply hreply⟩
  · rcases hrest with rfl | rfl <;> simp at hmem

theorem Serial.receive (h : l.Serial server) (hopen : l.openLines < 1) (line : Str) :
    (l.receive line).Serial server := by
  obtain ⟨log, replies, opened, hanswered, hopened, hwire, hcase⟩ := h
  rw [openLines, Nat.lt_one_iff, Nat.add_eq_zero_iff, List.length_eq_zero_iff,
    List.length_eq_zero_iff] at hopen
  obtain ⟨hready, hwrites⟩ := hopen
  refine ⟨log, replies, opened, hanswered, hopened, ?_⟩
  rcases hcase with ⟨-, hlog, -⟩ | ⟨handler, line', hbusy, -⟩
  · unfold Link.receive
    split
    · rename_i handler rest _ _
      refine ⟨hwire, Or.inr ⟨handler, line, ?_, hwrites, ?_⟩⟩
      · simp [hready, hlog]
      · simp [hlog]
    · exact ⟨hwire, Or.inl ⟨hready, hlog, by simp [hwrites]⟩⟩
  · rw [hready] at hbusy
    exact absurd hbusy (by simp)

/-- The last line has been handled: a request is answered, or a `newUser` line waits for
its UID. -/
theorem answered_served {log : Log} {replies : List Str} {opened : Option Str}
    (hanswered : server.Answered log replies)
    (hopened : ∀ line ∈ opened, server.opens line = true) {renames : Bool} {s : Store}
    {handler : ReadHandler} {line : Str}
    (hserves : server.Serves (log ++ waiting opened ++ [(line, none)]) renames s
      ((log ++ waiting opened).length, handler, line)) :
    ∃ log' replies' opened', server.Answered log' replies' ∧
      (∀ line ∈ opened', server.opens line = true) ∧
      log ++ waiting opened ++ [(line, some (handler.run renames line s).replies)] =
        log' ++ waiting opened' ∧
      replies.flatMap wireLine ++ (handler.run renames line s).replies.flatMap wireLine =
        replies'.flatMap wireLine ∧
      (handler.run renames line s).replies.length ≤ 1 := by
  have hawaits : server.awaitsUid (log ++ waiting opened) = opened.isSome := by
    rw [hanswered.awaitsUid_append]
    cases opened with
    | none => rfl
    | some first => simp [waiting, Server.awaitsUid, hopened first rfl]
  rw [Server.Serves, List.take_left, hawaits] at hserves
  cases opened with
  | none =>
      by_cases hopens : server.opens line = true
      · -- the line opens a request
        rw [if_pos (by simp [hopens])] at hserves
        subst hserves
        have hsome : (newUserSyntax line).isSome = true := by
          simp only [Server.opens, Bool.and_eq_true] at hopens
          exact hopens.2
        rw [ReadHandler.run, handleCli_replies_newUser hsome]
        exact ⟨log, replies, some line, hanswered, by simpa using hopens, by simp [waiting],
          by simp, Nat.zero_le 1⟩
      · rw [if_neg (by simp [hopens])] at hserves
        obtain ⟨reply, hreply, hline⟩ := hserves.replies
        rw [hreply]
        exact ⟨_, _, none, hanswered.line ((Bool.not_eq_true _).mp hopens) hline, by simp,
          by simp [waiting], by simp, Nat.le_refl 1⟩
  | some first =>
      -- the line is the UID that the request waits for
      rw [if_neg (by simp)] at hserves
      obtain ⟨reply, hreply, hline⟩ := hserves.replies
      have hwhole : server.Answered (log ++ [(first, some []), (line, some [reply])])
          (replies ++ [reply]) := hanswered.newUser (hopened first rfl) hline
      rw [hreply]
      exact ⟨_, _, none, hwhole, by simp, by simp [waiting], by simp, Nat.le_refl 1⟩

theorem Serial.run (h : l.Serial server) {i : Nat} {s : Store} {renames : Bool}
    (hserves : ∀ entry ∈ l.ready[i]?, server.Serves l.log renames s entry) :
    (l.run i s renames).Serial server := by
  unfold Link.run
  split
  · rename_i number handler line _ hready
    obtain ⟨log, replies, opened, hanswered, hopened, hwire, hcase⟩ := h
    rcases hcase with ⟨hnone, -, -⟩ | ⟨handler', line', hone, hwrites, hlog⟩
    · simp [hnone] at hready
    · -- the only completed read is that of the last line
      obtain rfl : i = 0 := by
        have hlt := (List.getElem?_eq_some_iff.mp hready).1
        simp only [hone, List.length_singleton] at hlt
        omega
      obtain ⟨rfl, rfl, rfl⟩ : (log ++ waiting opened).length = number ∧ handler' = handler ∧
          line' = line := by
        simpa [hone] using hready
      have hserved := hserves _ hready
      rw [hlog] at hserved
      obtain ⟨log', replies', opened', hanswered', hopened', hlog', hreplies, hlength⟩ :=
        answered_served hanswered hopened hserved
      rw [hwrites, List.flatten_nil, List.append_nil] at hwire
      refine ⟨log', replies', opened', hanswered', hopened', ?_, Or.inl ⟨?_, ?_, ?_⟩⟩
      · simp [hwire, hwrites, ← hreplies, List.flatMap_def]
      · simp [hone]
      · rw [← hlog', hlog]
        simp
      · simpa [hwrites] using hlength
  · exact h

theorem Serial.send (h : l.Serial server) (j m : Nat) : (l.send j m).Serial server := by
  unfold Link.send
  split
  · exact h
  · rename_i bytes hbytes
    obtain ⟨log, replies, opened, hanswered, hopened, hwire, hcase⟩ := h
    rcases hcase with ⟨hready, hlog, hlength⟩ | ⟨handler, line, -, hnone, -⟩
    · -- the only outstanding write is that of the last reply
      obtain ⟨rfl, hwrites⟩ : j = 0 ∧ l.writes = [bytes] := by
        have hlt := (List.getElem?_eq_some_iff.mp hbytes).1
        obtain rfl : j = 0 := by omega
        obtain ⟨b, hb⟩ := List.length_eq_one_iff.mp (show l.writes.length = 1 by omega)
        simp_all
      simp only [hwrites, List.flatten_singleton] at hwire
      refine ⟨log, replies, opened, hanswered, hopened, ?_, Or.inl ⟨hready, hlog, ?_⟩⟩
      · split_ifs with hlast
        · simpa [hwrites, List.take_of_length_le hlast] using hwire
        · simpa [hwrites] using hwire
      · split_ifs <;> simp [hwrites]
    · simp [hnone] at hbytes

theorem Serial.release (h : l.Serial server) : l.release.Serial server := by
  unfold Link.release
  split_ifs
  · exact h
  · exact h

/-- A peer with one open line at a time gets a reply to each request, whole and in
order. -/
theorem inOrder_of_one_open {w : Nat} (hw : w ≤ 1) {steps : List LinkStep}
    (h : Runs.Each step (server.Sends w) server.link steps) :
    Runs.Along step (InOrder server) server.link steps := by
  have hserial : ∀ pre, pre <+: steps → (Runs.final step server.link pre).Serial server := by
    -- a prefix of the run is a run of the same peer
    rintro pre ⟨post, rfl⟩
    refine Runs.invariant_final (J := Serial server) (D := server.Sends w) ?_ ?_
      (Runs.each_append.mp h).1
    · intro l e hl hsends
      cases e with
      | receive line => exact hl.receive (hsends.2.trans_le hw) line
      | run i s renames => exact (hl.run hsends).release
      | send j m => exact (hl.send j m).release
    · exact ⟨[], [], none, .nil, by simp, rfl, Or.inl ⟨rfl, rfl, Nat.zero_le 1⟩⟩
  exact Runs.along_iff_forall_prefix.mpr fun pre hpre => (hserial pre hpre).inOrder

end Link

/-! ## Two open lines -/

/-- Two lines of a peer, both handled before anything is sent; the first byte on
the wire is one of the second reply. -/
def Server.overtaking (server : Server) : List LinkStep :=
  let s := load (.object [(ascii "doors", .array [doorEntry (ascii "lab") 1]),
    (ascii "users", .array [userEntry (ascii "alice") 3 (ascii "04a1")])]) (.doc emptyConfig)
  match server with
  | clientServer =>
      [.receive (ascii "lab:04a1"), .run 0 s true, .receive (ascii "attic:04a1"), .run 0 s true,
        .send 1 0]
  | cliServer =>
      [.receive (ascii "getLog"), .run 0 s true, .receive (ascii "newDoor attic 1"), .run 0 s true,
        .send 1 0]

theorem Server.overtaking_sends (server : Server) :
    Runs.Each Link.step (server.Sends 2) server.link server.overtaking := by
  cases server <;> decide +kernel

theorem Server.overtaking_not_prefix (server : Server) :
    ¬ (Runs.final Link.step server.link server.overtaking).wire <+:
      repliesTo (server.requests (Runs.final Link.step server.link server.overtaking).log) := by
  cases server <;> decide +kernel

end AsyncNFCServer
