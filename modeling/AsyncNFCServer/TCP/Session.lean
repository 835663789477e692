import AsyncNFCServer.TCP.Connection

/-!
# CLI sessions against the two-mode automaton

A CLI session is meant to alternate between two modes: a line is a command,
and after a `newUser` line that matches the syntax exactly the next line is
that user's UID.  `interpret` is this automaton.  The server has no mode: what
a line means is decided by the handler at the head of the queue of outstanding
reads, `Connection.readings`.

The queue is fed by `handleCli`, by `newUser` and, for every handler once more,
by `TcpConnection::read`, so each command puts two command readers in the queue
and the reader of a UID comes back after each UID.  The `k`-th line of a session
is read by the `k`-th reader that was put in the queue, and a session is read as
the automaton reads it exactly when that reader is the one the automaton wants
(`Timely`).  While no handler throws, the queue of a session that starts with
`newUser` repeats the pattern `cli`, `cli`, `uid` for ever (`Schedule`), so that
a session is timely exactly when it has no UID line, or its UID lines are the
second, the fifth, the eighth and so on and all belong to the same user.
-/

namespace AsyncNFCServer

/-- What a line is taken as. -/
inductive Reading where
  | package (line : Str)
  | command (line : Str)
  | uid (name : Str) (accessLevel : UInt8) (line : Str)
  deriving DecidableEq, Repr

/-! ## The automaton -/

/-- The mode of a session; `finished` once `shutdown` was given as a command. -/
inductive Mode where
  | command
  | uid (name : Str) (accessLevel : UInt8)
  | finished
  deriving DecidableEq, Repr

/-- The mode after a command line. -/
def Mode.afterCommand (line : Str) : Mode :=
  if line = ascii "shutdown" then .finished
  else
    match newUserSyntax line with
    | some (name, numeral) => .uid (toSnakeCase name) (toUInt8 (decimal numeral))
    | none => .command

/-- How the automaton takes the lines of a session. -/
def interpret : Mode → List Str → List Reading
  | _, [] => []
  | .command, line :: lines => .command line :: interpret (.afterCommand line) lines
  | .uid name accessLevel, line :: lines =>
      .uid name accessLevel line :: interpret .command lines
  | .finished, _ :: _ => []

/-- The mode after a line. -/
def Mode.after : Mode → Str → Mode
  | .command, line => .afterCommand line
  | .uid _ _, _ => .command
  | .finished, _ => .finished

/-- The handler that takes a line as the mode does. -/
def Mode.handler : Mode → Option ReadHandler
  | .command => some .cli
  | .uid name accessLevel => some (.uid name accessLevel)
  | .finished => none

/-! ## The server -/

/-- What a line is taken as by the handler that gets it. -/
def ReadHandler.reading : ReadHandler → Str → Reading
  | client, line => .package line
  | cli, line => .command line
  | uid name accessLevel, line => .uid name accessLevel line

namespace Connection

/-- How the server takes the lines of a connection. -/
def readings : Connection → List Arrival → List Reading
  | _, [] => []
  | c, a :: arrivals =>
      match c.status, c.pending with
      | .live, handler :: _ => handler.reading a.line :: readings (c.receive a) arrivals
      | _, _ => []

/-- The handler run on this line does not end by an exception. -/
def Quiet (c : Connection) (a : Arrival) : Prop :=
  ∀ handler ∈ c.pending.head?,
    (handler.run a.renames a.line a.store).outcome.thrown = none

instance (c : Connection) (a : Arrival) : Decidable (c.Quiet a) :=
  inferInstanceAs (Decidable (∀ handler ∈ c.pending.head?,
    (handler.run a.renames a.line a.store).outcome.thrown = none))

end Connection

/-- Whether the handler run on a line ends by an exception. -/
def ReadHandler.throws (handler : ReadHandler) (a : Arrival) : Bool :=
  (handler.run a.renames a.line a.store).outcome.thrown.isSome

/-- The readers that a line, taken as the mode says, puts in the queue. -/
def Mode.enqueues : Mode → Arrival → List ReadHandler
  | .command, a =>
      if ReadHandler.cli.throws a then []
      else
        match newUserSyntax a.line with
        | some (name, numeral) => [.uid (toSnakeCase name) (toUInt8 (decimal numeral)), .cli, .cli]
        | none => [.cli, .cli]
  | .uid name accessLevel, a =>
      if (ReadHandler.uid name accessLevel).throws a then [] else [.uid name accessLevel]
  | .finished, _ => []

/-- The readers that a session puts in the queue, if its lines are taken as the
automaton takes them. -/
def enqueued : Mode → List Arrival → List ReadHandler
  | _, [] => []
  | mode, a :: arrivals => mode.enqueues a ++ enqueued (mode.after a.line) arrivals

/-- From the mode `mode` and the queue `queue` on, the `k`-th reader in the queue
is the one the automaton wants for the `k`-th line, and is there in time. -/
def TimelyFrom (mode : Mode) (queue : List ReadHandler) (arrivals : List Arrival) : Prop :=
  ∀ k < arrivals.length,
    ∀ handler ∈ ((arrivals.take k).foldl (fun mode a => mode.after a.line) mode).handler,
      (queue ++ enqueued mode (arrivals.take k))[k]? = some handler

/-- Every line of a CLI session finds the reader the automaton wants. -/
def Timely (arrivals : List Arrival) : Prop := TimelyFrom .command [.cli] arrivals

/-- The user whose UID the line is taken as. -/
def Reading.user : Reading → Option (Str × UInt8)
  | uid name accessLevel _ => some (name, accessLevel)
  | _ => none

/-- No line is taken as a UID. -/
def Plain (rs : List Reading) : Prop := ∀ r ∈ rs, r.user = none

/-- The UID lines of a session from its `i`-th line on (counted from zero) are
those at `1`, `4`, `7`, …, all of the user `name` with level `accessLevel`. -/
def Schedule (name : Str) (accessLevel : UInt8) : Nat → List Reading → Prop
  | _, [] => True
  | i, r :: rs =>
      r.user = (if i % 3 = 1 then some (name, accessLevel) else none) ∧
        Schedule name accessLevel (i + 1) rs

instance (name : Str) (accessLevel : UInt8) :
    ∀ (i : Nat) (rs : List Reading), Decidable (Schedule name accessLevel i rs)
  | _, [] => .isTrue trivial
  | i, r :: rs =>
      haveI : Decidable (Schedule name accessLevel (i + 1) rs) :=
        instDecidableSchedule name accessLevel (i + 1) rs
      inferInstanceAs (Decidable (r.user = (if i % 3 = 1 then some (name, accessLevel) else none) ∧
        Schedule name accessLevel (i + 1) rs))

/-- The sessions that the server reads as the automaton does. -/
def Regular (rs : List Reading) : Prop :=
  Plain rs ∨ ∃ name accessLevel, Schedule name accessLevel 0 rs

/-! ## One line of a session -/

namespace Connection

theorem readings_cons (handler : ReadHandler) (rest : List ReadHandler) (a : Arrival)
    (arrivals : List Arrival) :
    readings ⟨handler :: rest, .live⟩ (a :: arrivals) =
      handler.reading a.line :: readings (receive ⟨handler :: rest, .live⟩ a) arrivals := rfl

theorem readings_of_not_live {c : Connection} (h : c.status ≠ .live) (arrivals : List Arrival) :
    c.readings arrivals = [] := by
  cases arrivals with
  | nil => rfl
  | cons a arrivals =>
      unfold readings
      split
      · rename_i hlive _
        exact absurd hlive h
      · rfl

/-- A connection that an exception has destroyed takes no further line, as it has no
reader for it. -/
theorem readings_leftWith (reads : List ReadHandler) (arrivals : List Arrival) :
    (leftWith reads).readings arrivals = readings ⟨reads, .live⟩ arrivals := by
  by_cases hreads : reads = []
  · subst hreads
    cases arrivals <;> rfl
  · rw [leftWith_of_ne_nil hreads]

/-- A line that is taken as the mode says ends the session, or puts the readers
of the mode in the queue. -/
theorem receive_handler {mode : Mode} {handler : ReadHandler} (h : mode.handler = some handler)
    (rest : List ReadHandler) (a : Arrival) :
    (mode.after a.line = .finished ∧ (receive ⟨handler :: rest, .live⟩ a).status ≠ .live) ∨
      (mode.after a.line ≠ .finished ∧ receive ⟨handler :: rest, .live⟩ a =
        if handler.throws a then leftWith (rest ++ mode.enqueues a)
        else ⟨rest ++ mode.enqueues a, .live⟩) := by
  cases mode with
  | finished => exact absurd h (by simp [Mode.handler])
  | uid name accessLevel =>
      -- the commit of a UID starts no read, so only its own reader comes back
      obtain rfl := Option.some.inj h
      refine Or.inr ⟨by simp [Mode.after], ?_⟩
      rcases handleUID_outcome a.renames name accessLevel a.line a.store with hout | ⟨e, hout⟩ <;>
        simp [receive, Mode.enqueues, ReadHandler.throws, ReadHandler.run, hout, handleUID_reads,
          Outcome.thrown]
  | command =>
      obtain rfl := Option.some.inj h
      have hrun := cliRun_handleCli a.renames a.line a.store
      generalize hout : (handleCli a.renames a.line a.store).outcome = out at hrun
      generalize hreads : (handleCli a.renames a.line a.store).reads = reads at hrun
      cases hrun with
      | shutdown line =>
          exact Or.inl ⟨by simp [Mode.after, Mode.afterCommand, line],
            by simp [receive, ReadHandler.run, hout]⟩
      | threw line e =>
          refine Or.inr ⟨?_, ?_⟩
          · simp only [Mode.after, Mode.afterCommand, if_neg line]
            split <;> simp
          · simp [receive, Mode.enqueues, ReadHandler.throws, ReadHandler.run, hout, hreads,
              Outcome.thrown]
      | command line noUser =>
          refine Or.inr ⟨by simp [Mode.after, Mode.afterCommand, line, noUser], ?_⟩
          simp [receive, Mode.enqueues, ReadHandler.throws, ReadHandler.run, hout, hreads,
            Outcome.thrown, noUser]
      | newUser name numeral user =>
          have line : a.line ≠ ascii "shutdown" := by
            intro heq
            rw [heq, newUserSyntax_shutdown] at user
            exact absurd user (by simp)
          refine Or.inr ⟨by simp [Mode.after, Mode.afterCommand, line, user], ?_⟩
          simp [receive, Mode.enqueues, ReadHandler.throws, ReadHandler.run, hout, hreads,
            Outcome.thrown, user]

/-- A handler that does not throw. -/
theorem Quiet.throws {handler : ReadHandler} {rest : List ReadHandler} {a : Arrival}
    (hquiet : Quiet ⟨handler :: rest, .live⟩ a) : handler.throws a = false := by
  simpa [ReadHandler.throws] using hquiet handler rfl

/-- A UID that is committed puts its reader at the end of the queue. -/
theorem receive_uid {name : Str} {accessLevel : UInt8} {rest : List ReadHandler} {a : Arrival}
    (hquiet : Quiet ⟨.uid name accessLevel :: rest, .live⟩ a) :
    receive ⟨.uid name accessLevel :: rest, .live⟩ a =
      ⟨rest ++ [.uid name accessLevel], .live⟩ := by
  rcases receive_handler
      (show (Mode.uid name accessLevel).handler = some _ from rfl) rest a with ⟨hover, -⟩ | ⟨-, heq⟩
  · exact absurd hover (by simp [Mode.after])
  · simpa only [Mode.enqueues, hquiet.throws, Bool.false_eq_true, if_false] using heq

/-- A command: the session is over, or two command readers follow, after the
reader of a UID if the command asks for one. -/
theorem receive_cli {rest : List ReadHandler} {a : Arrival}
    (hquiet : Quiet ⟨.cli :: rest, .live⟩ a) :
    (Mode.afterCommand a.line = .finished ∧ (receive ⟨.cli :: rest, .live⟩ a).status ≠ .live) ∨
      (Mode.afterCommand a.line = .command ∧
        receive ⟨.cli :: rest, .live⟩ a = ⟨rest ++ [.cli, .cli], .live⟩) ∨
      ∃ name accessLevel, Mode.afterCommand a.line = .uid name accessLevel ∧
        receive ⟨.cli :: rest, .live⟩ a =
          ⟨rest ++ [.uid name accessLevel, .cli, .cli], .live⟩ := by
  rcases receive_handler (show Mode.command.handler = some _ from rfl) rest a with
    hover | ⟨hmode, heq⟩
  · exact Or.inl hover
  · refine Or.inr ?_
    have hline : a.line ≠ ascii "shutdown" := fun hline =>
      hmode (by simp [Mode.after, Mode.afterCommand, hline])
    simp only [Mode.enqueues, hquiet.throws, Bool.false_eq_true, if_false] at heq
    cases hform : newUserSyntax a.line with
    | none =>
        refine Or.inl ⟨by simp [Mode.afterCommand, hline, hform], ?_⟩
        simpa [hform] using heq
    | some fields =>
        refine Or.inr ⟨toSnakeCase fields.1, toUInt8 (decimal fields.2),
          by simp [Mode.afterCommand, hline, hform], ?_⟩
        simpa [hform] using heq

end Connection

/-! ## The reader of each line -/

theorem interpret_finished (lines : List Str) : interpret .finished lines = [] := by
  cases lines <;> rfl

theorem interpret_cons {mode : Mode} {handler : ReadHandler} (h : mode.handler = some handler)
    (line : Str) (lines : List Str) :
    interpret mode (line :: lines) = handler.reading line :: interpret (mode.after line) lines := by
  cases mode with
  | finished => exact absurd h (by simp [Mode.handler])
  | command | uid name accessLevel =>
      obtain rfl := Option.some.inj h
      rfl

/-- Two handlers that the automaton can want take a line differently. -/
theorem reading_inj {mode : Mode} {handler other : ReadHandler}
    (h : mode.handler = some handler) {line : Str}
    (heq : other.reading line = handler.reading line) :
    other = handler := by
  cases mode with
  | finished => exact absurd h (by simp [Mode.handler])
  | command | uid name accessLevel =>
      obtain rfl := Option.some.inj h
      cases other <;> simp_all [ReadHandler.reading]

theorem timelyFrom_finished (queue : List ReadHandler) (arrivals : List Arrival) :
    TimelyFrom .finished queue arrivals := by
  intro k _ handler hhandler
  have hover : ∀ as : List Arrival,
      as.foldl (fun mode a => mode.after a.line) Mode.finished = .finished := by
    intro as
    induction as with
    | nil => rfl
    | cons a as ih => exact ih
  rw [hover] at hhandler
  exact absurd hhandler (by simp [Mode.handler])

theorem timelyFrom_cons {mode : Mode} {handler : ReadHandler} (h : mode.handler = some handler)
    (queue : List ReadHandler) (a : Arrival) (arrivals : List Arrival) :
    TimelyFrom mode queue (a :: arrivals) ↔
      ∃ rest, queue = handler :: rest ∧
        TimelyFrom (mode.after a.line) (rest ++ mode.enqueues a) arrivals := by
  constructor
  · intro htimely
    have hfirst := htimely 0 (by simp) handler h
    cases queue with
    | nil => exact absurd hfirst (by simp [enqueued])
    | cons first rest =>
        obtain rfl : first = handler := by simpa using hfirst
        refine ⟨rest, rfl, fun k hk other hother => ?_⟩
        have hlater := htimely (k + 1) (by simpa using hk) other hother
        simpa [enqueued] using hlater
  · rintro ⟨rest, rfl, htimely⟩ k hk other hother
    cases k with
    | zero =>
        obtain rfl : handler = other := Option.some.inj (h.symm.trans hother)
        rfl
    | succ k =>
        have hlater := htimely k (by simpa using hk) other hother
        simpa [enqueued] using hlater

/-- From any live connection and mode on, the lines are taken as the automaton
takes them exactly when each finds the reader the automaton wants. -/
theorem readings_iff_timelyFrom {mode : Mode} (hmode : mode ≠ .finished)
    (queue : List ReadHandler) (arrivals : List Arrival) :
    Connection.readings ⟨queue, .live⟩ arrivals = interpret mode (arrivals.map Arrival.line) ↔
      TimelyFrom mode queue arrivals := by
  induction arrivals generalizing mode queue with
  | nil => simp [Connection.readings, interpret, TimelyFrom]
  | cons a arrivals ih =>
      obtain ⟨handler, hhandler⟩ : ∃ handler, mode.handler = some handler := by
        cases mode with
        | finished => exact absurd rfl hmode
        | command | uid name accessLevel => exact ⟨_, rfl⟩
      rw [timelyFrom_cons hhandler, List.map_cons, interpret_cons hhandler]
      cases queue with
      | nil => simp [Connection.readings]
      | cons first rest =>
          rw [Connection.readings_cons]
          by_cases hfirst : first = handler
          · subst hfirst
            simp only [List.cons.injEq, true_and, exists_eq_left']
            rcases Connection.receive_handler hhandler rest a with ⟨hover, hdead⟩ | ⟨hmode', hnext⟩
            · rw [Connection.readings_of_not_live hdead, hover, interpret_finished]
              exact iff_of_true rfl (timelyFrom_finished _ _)
            · have hqueue : Connection.readings (Connection.receive ⟨first :: rest, .live⟩ a)
                  arrivals = Connection.readings ⟨rest ++ mode.enqueues a, .live⟩ arrivals := by
                rw [hnext]
                split_ifs
                · exact Connection.readings_leftWith _ _
                · rfl
              rw [hqueue]
              exact ih hmode' _
          · -- the wrong reader takes the line, and it cannot take it as the right one would
            refine iff_of_false ?_ ?_
            · intro heq
              exact hfirst (reading_inj hhandler (List.cons.inj heq).1)
            · rintro ⟨rest', heq, -⟩
              exact hfirst (List.cons.inj heq).1

/-! ## Sessions that start with a command other than `newUser` -/

theorem plain_cons_command (line : Str) (rs : List Reading) :
    Plain (.command line :: rs) ↔ Plain rs := by
  simp [Plain, Reading.user]

theorem not_plain_uid (name : Str) (accessLevel : UInt8) (line : Str) (rs : List Reading) :
    ¬ Plain (.uid name accessLevel line :: rs) := by
  simp [Plain, Reading.user]

/-- After one or more commands without a UID there are several command readers
in the queue, so a UID line is taken as a command. -/
theorem readings_plain_iff (arrivals : List Arrival) (m : Nat)
    (hquiet : Runs.Each Connection.receive Connection.Quiet
      ⟨List.replicate (m + 2) .cli, .live⟩ arrivals.dropLast) :
    Connection.readings ⟨List.replicate (m + 2) .cli, .live⟩ arrivals =
        interpret .command (arrivals.map Arrival.line) ↔
      Plain (interpret .command (arrivals.map Arrival.line)) := by
  induction arrivals generalizing m with
  | nil => simp [Connection.readings, interpret, Plain]
  | cons a arrivals ih =>
      rw [List.replicate_succ, Connection.readings_cons]
      simp only [List.map_cons, interpret, ReadHandler.reading, List.cons.injEq, true_and,
        plain_cons_command]
      cases arrivals with
      | nil => simp [Connection.readings, interpret, Plain]
      | cons b arrivals =>
          rw [List.dropLast_cons_cons] at hquiet
          obtain ⟨hfirst, hrest⟩ := hquiet
          rw [List.replicate_succ] at hfirst hrest
          rcases Connection.receive_cli hfirst with ⟨hover, hdead⟩ | ⟨hmode, hnext⟩ |
              ⟨name, accessLevel, hmode, hnext⟩
          · rw [Connection.readings_of_not_live hdead, hover, interpret_finished]
            simp [Plain]
          · rw [hnext, hmode]
            have hqueue : List.replicate (m + 1) ReadHandler.cli ++ [.cli, .cli] =
                List.replicate (m + 1 + 2) .cli := by
              rw [show [ReadHandler.cli, .cli] = List.replicate 2 .cli from rfl,
                List.replicate_append_replicate]
            rw [hnext, hqueue] at hrest
            rw [hqueue]
            exact ih (m + 1) hrest
          · -- the UID is due, but a command reader is at the head of the queue
            rw [hnext, hmode, List.replicate_succ]
            simp only [List.cons_append, Connection.readings_cons, List.map_cons, interpret,
              ReadHandler.reading, List.cons.injEq, reduceCtorEq, false_and, false_iff]
            exact not_plain_uid name accessLevel b.line _

/-! ## Sessions that start with `newUser` -/

section Scheduled

variable (name : Str) (accessLevel : UInt8)

/-- The reader of the `j`-th line. -/
def readerAt (j : Nat) : ReadHandler := if j % 3 = 1 then .uid name accessLevel else .cli

/-- The mode of the automaton at the `j`-th line. -/
def modeAt (j : Nat) : Mode := if j % 3 = 1 then .uid name accessLevel else .command

/-- Before its `i`-th line the session's queue holds the readers of the lines
`i`, …, `i + n - 1`, and what is appended to it continues the pattern. -/
def InStep (i : Nat) (c : Connection) : Prop :=
  ∃ n, c = ⟨(List.range' i n).map (readerAt name accessLevel), .live⟩ ∧ 3 ≤ n ∧
    (i + n) % 3 = if i % 3 = 0 then 1 else i % 3

variable {name accessLevel}

theorem InStep.head {i : Nat} {c : Connection} (h : InStep name accessLevel i c) :
    ∃ rest, c = ⟨readerAt name accessLevel i :: rest, .live⟩ := by
  obtain ⟨n, rfl, hn, -⟩ := h
  obtain ⟨n, rfl⟩ : ∃ k, n = k + 1 := ⟨n - 1, by omega⟩
  exact ⟨_, by rw [List.range'_succ, List.map_cons]⟩

/-- The queue stays in step if the readers that are appended continue the pattern. -/
theorem InStep.append {i : Nat} {handler : ReadHandler} {rest : List ReadHandler}
    (h : InStep name accessLevel i ⟨handler :: rest, .live⟩) {added : List ReadHandler}
    (hadded : added ≠ [])
    (hnext : ∀ n, (i + n) % 3 = (if i % 3 = 0 then 1 else i % 3) →
      added = (List.range' (i + n) added.length).map (readerAt name accessLevel) ∧
        (i + n + added.length) % 3 = if (i + 1) % 3 = 0 then 1 else (i + 1) % 3) :
    InStep name accessLevel (i + 1) ⟨rest ++ added, .live⟩ := by
  obtain ⟨n, hc, hn, hmod⟩ := h
  obtain ⟨n, rfl⟩ : ∃ k, n = k + 1 := ⟨n - 1, by omega⟩
  simp only [List.range'_succ, List.map_cons, Connection.mk.injEq, List.cons.injEq,
    and_true] at hc
  obtain ⟨hpattern, hend⟩ := hnext (n + 1) hmod
  have hpos : 0 < added.length := List.length_pos_iff.mpr hadded
  refine ⟨n + added.length, ?_, by omega, ?_⟩
  · rw [show i + (n + 1) = i + 1 + n by omega] at hpattern
    rw [← List.range'_append_1, List.map_append, ← hpattern, hc.2]
  · rw [← hend]
    congr 1
    omega

theorem InStep.second {i : Nat} {handler : ReadHandler} {rest : List ReadHandler}
    (h : InStep name accessLevel i ⟨handler :: rest, .live⟩) :
    ∃ rest', rest = readerAt name accessLevel (i + 1) :: rest' := by
  obtain ⟨n, hc, hn, -⟩ := h
  obtain ⟨n, rfl⟩ : ∃ k, n = k + 2 := ⟨n - 2, by omega⟩
  simp only [List.range'_succ, List.map_cons, Connection.mk.injEq, List.cons.injEq,
    and_true] at hc
  exact ⟨_, hc.2⟩

theorem InStep.next_uid {i : Nat} {rest : List ReadHandler} (hi : i % 3 = 1)
    (h : InStep name accessLevel i ⟨.uid name accessLevel :: rest, .live⟩) :
    InStep name accessLevel (i + 1) ⟨rest ++ [.uid name accessLevel], .live⟩ := by
  refine h.append (by simp) fun n hn => ⟨?_, ?_⟩
  · rw [if_neg (by omega)] at hn
    simp [readerAt, show (i + n) % 3 = 1 by omega]
  · rw [if_neg (by omega)] at hn ⊢
    simp only [List.length_singleton]
    omega

theorem InStep.next_command {i : Nat} {rest : List ReadHandler} (hi : i % 3 = 2)
    (h : InStep name accessLevel i ⟨.cli :: rest, .live⟩) :
    InStep name accessLevel (i + 1) ⟨rest ++ [.cli, .cli], .live⟩ := by
  refine h.append (by simp) fun n hn => ⟨?_, ?_⟩
  · rw [if_neg (by omega)] at hn
    simp [List.range'_succ, readerAt, show ¬ (i + n) % 3 = 1 by omega,
      show ¬ (i + n + 1) % 3 = 1 by omega]
  · rw [if_neg (by omega)] at hn
    rw [if_pos (by omega)]
    simp only [List.length_cons, List.length_nil]
    omega

theorem InStep.next_newUser {i : Nat} {rest : List ReadHandler} (hi : i % 3 = 0)
    (h : InStep name accessLevel i ⟨.cli :: rest, .live⟩) :
    InStep name accessLevel (i + 1) ⟨rest ++ [.uid name accessLevel, .cli, .cli], .live⟩ := by
  refine h.append (by simp) fun n hn => ⟨?_, ?_⟩
  · rw [if_pos hi] at hn
    simp [List.range'_succ, readerAt, hn, show ¬ (i + n + 1) % 3 = 1 by omega,
      show ¬ (i + n + 1 + 1) % 3 = 1 by omega]
  · rw [if_pos hi] at hn
    rw [if_neg (by omega)]
    simp only [List.length_cons, List.length_nil]
    omega

variable (name accessLevel) in
/-- From the `i`-th line on, the session is read as the automaton reads it if and
only if it keeps to the schedule. -/
def Follows (i : Nat) (c : Connection) (arrivals : List Arrival) : Prop :=
  c.readings arrivals = interpret (modeAt name accessLevel i) (arrivals.map Arrival.line) ↔
    Schedule name accessLevel i
      (interpret (modeAt name accessLevel i) (arrivals.map Arrival.line))

section Line

variable {i : Nat} {c : Connection} {a b : Arrival} {arrivals : List Arrival}

/-- A command is taken as one; what counts is how the session goes on. -/
theorem follows_cli_iff (hi : ¬ i % 3 = 1) (rest : List ReadHandler) :
    Follows name accessLevel i ⟨.cli :: rest, .live⟩ (a :: arrivals) ↔
      ((Connection.receive ⟨.cli :: rest, .live⟩ a).readings arrivals =
          interpret (.afterCommand a.line) (arrivals.map Arrival.line) ↔
        Schedule name accessLevel (i + 1)
          (interpret (.afterCommand a.line) (arrivals.map Arrival.line))) := by
  rw [Follows, Connection.readings_cons, modeAt, if_neg hi, List.map_cons, interpret, Schedule,
    if_neg hi]
  simp only [ReadHandler.reading, List.cons.injEq, true_and, Reading.user]

/-- Where the automaton wants another reader than the scheduled one, the line is not
taken as the automaton takes it, nor as the schedule has it. -/
theorem readings_iff_of_other {mode : Mode} {wanted : ReadHandler}
    (hmode : mode.handler = some wanted) (hother : wanted ≠ readerAt name accessLevel i)
    (rest : List ReadHandler) :
    Connection.readings ⟨readerAt name accessLevel i :: rest, .live⟩ (a :: arrivals) =
        interpret mode ((a :: arrivals).map Arrival.line) ↔
      Schedule name accessLevel i (interpret mode ((a :: arrivals).map Arrival.line)) := by
  rw [List.map_cons, interpret_cons hmode, Connection.readings_cons, Schedule]
  refine iff_of_false ?_ ?_
  · intro heq
    exact hother (reading_inj hmode (List.cons.inj heq).1).symm
  · rintro ⟨huser, -⟩
    refine hother ?_
    cases mode with
    | finished => exact absurd hmode (by simp [Mode.handler])
    | command | uid name' accessLevel' =>
        obtain rfl := Option.some.inj hmode
        rw [readerAt]
        split_ifs at huser ⊢ <;> simp_all [ReadHandler.reading, Reading.user]

/-- At the last line only its own reader matters. -/
theorem follows_last (hstep : InStep name accessLevel i c) : Follows name accessLevel i c [a] := by
  obtain ⟨rest, rfl⟩ := hstep.head
  unfold Follows
  by_cases hi : i % 3 = 1 <;>
    simp [Connection.readings, interpret, Schedule, modeAt, readerAt, hi, ReadHandler.reading,
      Reading.user]

/-- A UID is due and its reader is at the head of the queue. -/
theorem follows_uid (hi : i % 3 = 1) (hstep : InStep name accessLevel i c) (hquiet : c.Quiet a)
    (hnext : InStep name accessLevel (i + 1) (c.receive a) →
      Follows name accessLevel (i + 1) (c.receive a) (b :: arrivals)) :
    Follows name accessLevel i c (a :: b :: arrivals) := by
  obtain ⟨rest, rfl⟩ := hstep.head
  have hreader : readerAt name accessLevel i = .uid name accessLevel := if_pos hi
  rw [hreader] at hstep hquiet hnext ⊢
  rw [Connection.receive_uid hquiet] at hnext
  have hlater := hnext (hstep.next_uid hi)
  unfold Follows at hlater ⊢
  rw [Connection.readings_cons, Connection.receive_uid hquiet, modeAt, if_pos hi, List.map_cons,
    interpret, Schedule, if_pos hi]
  rw [modeAt, if_neg (by omega)] at hlater
  simpa [ReadHandler.reading, Reading.user] using hlater

/-- A command is due, and another one after it. -/
theorem follows_command (hi : i % 3 = 2) (hstep : InStep name accessLevel i c)
    (hquiet : c.Quiet a)
    (hnext : InStep name accessLevel (i + 1) (c.receive a) →
      Follows name accessLevel (i + 1) (c.receive a) (b :: arrivals)) :
    Follows name accessLevel i c (a :: b :: arrivals) := by
  obtain ⟨rest, rfl⟩ := hstep.head
  have hreader : readerAt name accessLevel i = .cli := if_neg (by omega)
  rw [hreader] at hstep hquiet hnext ⊢
  rw [follows_cli_iff (by omega)]
  rcases Connection.receive_cli hquiet with ⟨hover, hdead⟩ | ⟨hmode, heq⟩ |
      ⟨name', accessLevel', hmode, heq⟩
  · rw [Connection.readings_of_not_live hdead, hover, interpret_finished]
    simp [Schedule]
  · rw [heq] at hnext ⊢
    have hlater := hnext (hstep.next_command hi)
    rw [Follows, modeAt, if_neg (by omega)] at hlater
    rwa [hmode]
  · -- the UID is due, but a command reader is at the head of the queue
    obtain ⟨rest', rfl⟩ := hstep.second
    have hdue : readerAt name accessLevel (i + 1) = .cli := if_neg (by omega)
    rw [heq, hmode]
    exact readings_iff_of_other rfl (by simp [hdue]) _

/-- A command is due, and it should be the `newUser` of the session's user. -/
theorem follows_newUser (hi : i % 3 = 0) (hstep : InStep name accessLevel i c)
    (hquiet : c.Quiet a)
    (hnext : InStep name accessLevel (i + 1) (c.receive a) →
      Follows name accessLevel (i + 1) (c.receive a) (b :: arrivals)) :
    Follows name accessLevel i c (a :: b :: arrivals) := by
  obtain ⟨rest, rfl⟩ := hstep.head
  have hreader : readerAt name accessLevel i = .cli := if_neg (by omega)
  rw [hreader] at hstep hquiet hnext ⊢
  rw [follows_cli_iff (by omega)]
  rcases Connection.receive_cli hquiet with ⟨hover, hdead⟩ | ⟨hmode, heq⟩ |
      ⟨name', accessLevel', hmode, heq⟩
  · rw [Connection.readings_of_not_live hdead, hover, interpret_finished]
    simp [Schedule]
  · -- the reader of the next line waits for a UID, but a command is due
    obtain ⟨rest', rfl⟩ := hstep.second
    have hdue : readerAt name accessLevel (i + 1) = .uid name accessLevel := if_pos (by omega)
    rw [heq, hmode]
    exact readings_iff_of_other rfl (by simp [hdue]) _
  · rw [heq] at hnext ⊢
    by_cases huser : name' = name ∧ accessLevel' = accessLevel
    · obtain ⟨rfl, rfl⟩ := huser
      have hlater := hnext (hstep.next_newUser hi)
      rw [Follows, modeAt, if_pos (by omega)] at hlater
      rwa [hmode]
    · -- the reader of the next line waits for the UID of the first user
      obtain ⟨rest', rfl⟩ := hstep.second
      have hdue : readerAt name accessLevel (i + 1) = .uid name accessLevel := if_pos (by omega)
      rw [hmode]
      exact readings_iff_of_other rfl (by simpa [hdue] using huser) _

end Line

/-- In a session that started with `newUser` and has been read as the automaton
does so far, the reader at the head of the queue is the one the schedule names. -/
theorem readings_scheduled_iff (arrivals : List Arrival) (i : Nat) (c : Connection)
    (hstep : InStep name accessLevel i c)
    (hquiet : Runs.Each Connection.receive Connection.Quiet c arrivals.dropLast) :
    Follows name accessLevel i c arrivals := by
  induction arrivals generalizing i c with
  | nil => simp [Follows, Connection.readings, interpret, Schedule]
  | cons a arrivals ih =>
      cases arrivals with
      | nil => exact follows_last hstep
      | cons b arrivals =>
          rw [List.dropLast_cons_cons] at hquiet
          obtain ⟨hfirst, hrest⟩ := hquiet
          have hnext := fun hstep' => ih (i + 1) (c.receive a) hstep' hrest
          -- the schedule has period three
          rcases (show i % 3 = 0 ∨ i % 3 = 1 ∨ i % 3 = 2 by omega) with hi | hi | hi
          · exact follows_newUser hi hstep hfirst hnext
          · exact follows_uid hi hstep hfirst hnext
          · exact follows_command hi hstep hfirst hnext

end Scheduled

/-! ## The sessions read as the automaton reads them -/

/-- Over the lines of a CLI session whose handlers do not throw (the last one
apart), the server takes every line as the automaton does if and only if the
session has no UID line, or its UID lines are the second, the fifth, the eighth,
… and belong to one user. -/
theorem readings_eq_interpret_iff_regular (arrivals : List Arrival)
    (hquiet : Runs.Each Connection.receive Connection.Quiet Server.cliServer.accept
      arrivals.dropLast) :
    Server.cliServer.accept.readings arrivals =
        interpret .command (arrivals.map Arrival.line) ↔
      Regular (interpret .command (arrivals.map Arrival.line)) := by
  cases arrivals with
  | nil => simp [Connection.readings, interpret, Regular, Plain]
  | cons a arrivals =>
      have hstart : Server.cliServer.accept = ⟨[.cli], .live⟩ := rfl
      rw [hstart] at hquiet ⊢
      rw [Connection.readings_cons, List.map_cons, interpret]
      simp only [ReadHandler.reading, List.cons.injEq, true_and]
      have hregular : ∀ rs, Regular (.command a.line :: rs) ↔
          Plain rs ∨ ∃ name accessLevel, Schedule name accessLevel 1 rs := by
        intro rs
        simp [Regular, Plain, Schedule, Reading.user]
      rw [hregular]
      cases arrivals with
      | nil => simp [Connection.readings, interpret, Plain]
      | cons b arrivals =>
          rw [List.dropLast_cons_cons] at hquiet
          obtain ⟨hfirst, hrest⟩ := hquiet
          rcases Connection.receive_cli hfirst with ⟨hover, hdead⟩ | ⟨hmode, hnext⟩ |
              ⟨name, accessLevel, hmode, hnext⟩
          · rw [Connection.readings_of_not_live hdead, hover, interpret_finished]
            simp [Plain]
          · rw [hnext, hmode]
            rw [hnext] at hrest
            refine (readings_plain_iff (b :: arrivals) 0 hrest).trans ⟨Or.inl, ?_⟩
            rintro (hplain | ⟨name, accessLevel, hschedule⟩)
            · exact hplain
            · simp [interpret, Schedule, Reading.user] at hschedule
          · rw [hnext, hmode]
            rw [hnext] at hrest
            have hstep : InStep name accessLevel 1
                ⟨[] ++ [.uid name accessLevel, .cli, .cli], .live⟩ := ⟨3, rfl, le_rfl, rfl⟩
            refine (readings_scheduled_iff (b :: arrivals) 1 _ hstep hrest).trans
              ⟨fun h => Or.inr ⟨name, accessLevel, h⟩, ?_⟩
            rintro (hplain | ⟨name', accessLevel', hschedule⟩)
            · exact absurd hplain (not_plain_uid name accessLevel b.line _)
            · -- the second line is the UID of the user named by the first
              have huser : some (name, accessLevel) = some (name', accessLevel') := hschedule.1
              obtain ⟨rfl, rfl⟩ : name = name' ∧ accessLevel = accessLevel' := by
                simpa using huser
              exact hschedule

/-- **When a session follows the automaton.**  The server takes every line of a
CLI session as the two-mode automaton does if and only if every line finds the
reader the automaton wants.  If no handler throws (that of the last line apart),
that is the case if and only if the session has no UID line, or its UID lines are
the second, the fifth, the eighth, … and belong to one user. -/
theorem readings_eq_interpret_iff (arrivals : List Arrival) :
    (Server.cliServer.accept.readings arrivals =
        interpret .command (arrivals.map Arrival.line) ↔ Timely arrivals) ∧
      (Runs.Each Connection.receive Connection.Quiet Server.cliServer.accept arrivals.dropLast →
        (Server.cliServer.accept.readings arrivals =
            interpret .command (arrivals.map Arrival.line) ↔
          Regular (interpret .command (arrivals.map Arrival.line)))) :=
  ⟨readings_iff_timelyFrom (by simp) _ arrivals, readings_eq_interpret_iff_regular arrivals⟩

/-- A session that enrols one user and goes on with a command. -/
theorem readings_eq_interpret_newUser :
    let arrivals := ["newUser alice 1", "04a1", "getLog"].map fun line =>
      Arrival.mk (ascii line) (load emptyConfig (.doc emptyConfig)) true
    Runs.Each Connection.receive Connection.Quiet Server.cliServer.accept arrivals.dropLast ∧
      Server.cliServer.accept.readings arrivals =
        interpret .command (arrivals.map Arrival.line) := by
  intro arrivals
  have hquiet : Runs.Each Connection.receive Connection.Quiet Server.cliServer.accept
      arrivals.dropLast := by decide +kernel
  refine ⟨hquiet, ((readings_eq_interpret_iff arrivals).2 hquiet).mpr (Or.inr ?_)⟩
  exact ⟨ascii "alice", 1, by decide +kernel⟩

/-- A session the server does not read as the automaton does: the command
before `newUser` leaves a second command reader in the queue, so the UID is
dispatched as a command. -/
theorem not_forall_readings_eq_interpret :
    ¬ ∀ arrivals : List Arrival, Server.cliServer.accept.readings arrivals =
        interpret .command (arrivals.map Arrival.line) := by
  intro h
  have hthird := h (["getLog", "newUser alice 1", "04a1"].map fun line =>
    ⟨ascii line, load emptyConfig (.doc emptyConfig), true⟩)
  exact absurd hthird (by decide +kernel)

end AsyncNFCServer
