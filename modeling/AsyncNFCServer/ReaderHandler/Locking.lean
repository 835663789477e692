import AsyncNFCServer.Lib.ReadWriteLock
import AsyncNFCServer.ReaderHandler.Handlers
import AsyncNFCServer.ReaderHandler.Steps

/-!
# The store under `rw_mtx`

The handlers run on four threads, each connection with as many outstanding reads
as it has collected, so any number of handler runs can be under way at once.
A run that has an operation holds `rw_mtx` exclusively for the steps of the
operation (`Steps.lean`); the lookup of a door client holds it shared; every
other run touches neither the maps nor the file.  `newUser` is two runs, the
parsing of the command, which takes no lock, and the commit of the UID.

The runs of all sessions are one family `calls`, and a schedule lists whose turn
it is.  Sessions restrict which runs are under way together; nothing here depends
on it.  The lines of a session reach `newDoor`, `newUser` and `rmUser` only:
`rmDoor` takes the lock in the source, but no handler calls it, and so it is the
job of no run.

`serializable` is the reason why elsewhere a handler run is a single step
(`TCP/Process.lean`).
-/

namespace AsyncNFCServer

open ReadWriteLock

/-! ## The lookup step by step -/

/-- The local state of the lookup. -/
structure LookupLocals where
  /-- `user != usersByUID.end()` -/
  user : Bool
  reply : Option Str

/-- The local state when the lock has been taken. -/
def LookupLocals.start : LookupLocals := ⟨false, none⟩

/-- `doors.find(name)`, and the answer to an unknown door. -/
def findDoor (name : Str) (s : Store) (l : LookupLocals) : LookupLocals :=
  match s.doors name with
  | none => { l with reply := some (ascii "Unknown Door") }
  | some _ => l

/-- `usersByUID.find(uid)` -/
def findUser (uid : Str) (s : Store) (l : LookupLocals) : LookupLocals :=
  match l.reply with
  | some _ => l
  | none => { l with user := (s.usersByUID uid).isSome }

/-- The comparison of the levels, read through the iterators, and the answer. -/
def authorize (name uid : Str) (s : Store) (l : LookupLocals) : LookupLocals :=
  match l.reply with
  | some _ => l
  | none =>
      let userLevel := ((s.usersByUID uid).map Prod.snd).getD 0
      let doorLevel := (s.doors name).getD 0
      { l with
        reply :=
          some (if l.user ∧ doorLevel ≤ userLevel then ascii "Approved" else ascii "Denied") }

/-- What `handleClient` does under the shared lock. -/
def lookupCode (name uid : Str) : List (Store → LookupLocals → LookupLocals) :=
  [findDoor name, findUser uid, authorize name uid]

/-- On a store that does not change the steps are the lookup. -/
theorem runReader_lookupCode (name uid : Str) (s : Store) :
    (runReader (lookupCode name uid) s .start).reply = some (lookup s name uid) := by
  cases hdoor : s.doors name with
  | none => simp [runReader, lookupCode, findDoor, findUser, authorize, lookup, hdoor]
  | some doorLevel =>
      cases huser : s.usersByUID uid with
      | none =>
          simp [runReader, lookupCode, findDoor, findUser, authorize, lookup, authorized, hdoor,
            huser, LookupLocals.start]
      | some user =>
          simp [runReader, lookupCode, findDoor, findUser, authorize, lookup, authorized, hdoor,
            huser, LookupLocals.start]

/-! ## Handler runs under the lock -/

/-- A handler run: the handler, the line its read completed with, and the
amounts in which its stream, if it opens one, flushes. -/
structure Call where
  handler : ReadHandler
  line : Str
  early : List Nat
  late : List Nat

/-- What a handler run does under the lock, if it takes it.  No rename fails. -/
def Call.job (text : JsonText) (c : Call) : Option (Job Store Locals LookupLocals) :=
  match c.handler.adminOp c.line with
  | some op => some (.writer .start ((op.code true c.early c.late).map (Instr.exec text)))
  | none =>
      match c.handler, parsePackage c.line with
      | .client, some (name, uid) => some (.reader .start (lookupCode name uid))
      | _, _ => none

/-- The handler run as a whole. -/
def Call.run (c : Call) (s : Store) : HandlerRun := c.handler.run true c.line s

variable {ι : Type*}

/-- Handler runs one at a time. -/
def runInOrder (calls : ι → Call) (s : Store) (order : List ι) : Store :=
  order.foldl (fun s i => ((calls i).run s).store) s

variable {text : JsonText} {c : Call}

theorem runWriter_code (code : List Instr) (x : Store × Locals) :
    runWriter (code.map (Instr.exec text)) x = Instr.execAll text code x := by
  simp [runWriter, Instr.execAll, List.foldl_map]

/-- A run of an operation takes the lock exclusively. -/
theorem Call.job_of_adminOp {op : AdminOp} (h : c.handler.adminOp c.line = some op) :
    c.job text =
      some (.writer .start ((op.code true c.early c.late).map (Instr.exec text))) := by
  rw [Call.job, h]

/-- A run that takes the lock exclusively leaves what its handler leaves. -/
theorem Call.run_of_writer {start : Locals} {code : List (Store × Locals → Store × Locals)}
    (h : c.job text = some (.writer start code)) (s : Store) :
    (c.run s).store = (runWriter code (s, start)).1 ∧
      (c.run s).replies = (runWriter code (s, start)).2.replies ∧
      (c.run s).outcome.thrown = (runWriter code (s, start)).2.thrown := by
  unfold Call.job at h
  cases hop : c.handler.adminOp c.line with
  | none =>
      rw [hop] at h
      simp only at h
      split at h <;> cases h
  | some op =>
      rw [hop] at h
      obtain ⟨rfl, rfl⟩ := Job.writer.inj (Option.some.inj h)
      have hstore : (c.handler.run true c.line s).store = (op.run true s).store := by
        rw [ReadHandler.run_store, hop]
      obtain ⟨hreplies, hthrown, -⟩ := ReadHandler.run_of_adminOp hop true s
      have hcode := exec_code text true c.early c.late op s
      rw [runWriter_code, Call.run, hstore, hreplies, hthrown, ← hcode]
      exact ⟨rfl, rfl, rfl⟩

/-- A run that takes the lock shared answers what its handler answers. -/
theorem Call.run_of_reader {start : LookupLocals}
    {code : List (Store → LookupLocals → LookupLocals)}
    (h : c.job text = some (.reader start code)) (s : Store) :
    (c.run s).replies = (runReader code s start).reply.toList := by
  unfold Call.job at h
  cases hop : c.handler.adminOp c.line with
  | some op => simp [hop] at h
  | none =>
      rw [hop] at h
      simp only at h
      split at h
      · rename_i name uid hhandler hpackage
        obtain ⟨rfl, rfl⟩ := Job.reader.inj (Option.some.inj h)
        rw [runReader_lookupCode]
        simp [Call.run, hhandler, ReadHandler.run, handleClient, hpackage]
      · cases h

/-- What a run does to the store is what it does under the lock. -/
theorem effect_job (calls : ι → Call) (i : ι) (s : Store) :
    effect (fun i => (calls i).job text) i s = ((calls i).run s).store := by
  cases hop : (calls i).handler.adminOp (calls i).line with
  | some op =>
      have hjob : (calls i).job text = _ := Call.job_of_adminOp hop
      calc effect (fun i => (calls i).job text) i s = (runWriter _ (s, Locals.start)).1 :=
            effect_of_writer (fun i => (calls i).job text) hjob s
        _ = ((calls i).run s).store := ((calls i).run_of_writer hjob s).1.symm
  | none =>
      have hkeep : ((calls i).run s).store = s := by
        rw [Call.run, ReadHandler.run_store, hop]
      rw [hkeep, effect]
      split
      · rename_i start code hjob
        simp only [Call.job, hop] at hjob
        split at hjob <;> cases hjob
      · rfl

theorem serial_job (calls : ι → Call) (s : Store) (order : List ι) :
    serial (fun i => (calls i).job text) s order = runInOrder calls s order := by
  simp only [serial, runInOrder, effect_job]

/-! ## All interleavings -/

/-- The handler runs, as they share the store. -/
def runCalls [DecidableEq ι] (text : JsonText) (calls : ι → Call) (s : Store)
    (schedule : List ι) : World ι Store Locals LookupLocals :=
  Runs.final (ReadWriteLock.step fun i => (calls i).job text) (.start s) schedule

/-- **The handler runs are serializable.**  Take any number of handler runs and any
interleaving of their steps that respects the lock.  While nobody writes, the
maps and config.json are those of the runs that have taken the lock exclusively,
executed one at a time in the order in which they took it.  Every run of an
operation that has begun is in that order, so that it holds all of them once they
have finished; a finished one has answered, or thrown, what it does there.  A
finished lookup has answered what it answers after some number of them. -/
theorem serializable [DecidableEq ι] (text : JsonText) (calls : ι → Call) (s : Store)
    (schedule : List ι) :
    let w := runCalls text calls s schedule
    w.log.Nodup ∧
      (∀ i, (calls i).handler.adminOp (calls i).line ≠ none → w.phase i ≠ .idle → i ∈ w.log) ∧
      ((∀ i, ¬ (w.phase i).Writes) → w.shared = runInOrder calls s w.log) ∧
      (∀ i l, w.phase i = .wrote l → ∃ pre post, w.log = pre ++ i :: post ∧
        l.replies = ((calls i).run (runInOrder calls s pre)).replies ∧
        l.thrown = ((calls i).run (runInOrder calls s pre)).outcome.thrown) ∧
      (∀ i r, w.phase i = .hasRead r → ∃ pre, pre <+: w.log ∧
        r.reply.toList = ((calls i).run (runInOrder calls s pre)).replies) := by
  intro w
  have hinv : Invariant (fun i => (calls i).job text) s w :=
    final_invariant (fun i => (calls i).job text) s schedule
  refine ⟨hinv.nodup, fun i hop hbegun => ?_, fun hfree => ?_, fun i l hwrote => ?_,
    fun i r hread => ?_⟩
  · obtain ⟨op, hop⟩ := Option.ne_none_iff_exists'.mp hop
    exact hinv.mem_log (Call.job_of_adminOp hop) hbegun
  · rw [← serial_job]
    exact hinv.shared_eq hfree
  · have hexplained := hinv.threads i
    rw [hwrote] at hexplained
    obtain ⟨start, code, pre, post, hjob, hlog, rfl⟩ := hexplained
    rw [serial_job]
    obtain ⟨-, hreplies, hthrown⟩ := (calls i).run_of_writer hjob (runInOrder calls s pre)
    exact ⟨pre, post, hlog, hreplies.symm, hthrown.symm⟩
  · have hexplained := hinv.threads i
    rw [hread] at hexplained
    obtain ⟨start, code, pre, hjob, hpre, rfl⟩ := hexplained
    rw [serial_job]
    exact ⟨pre, hpre, ((calls i).run_of_reader hjob _).symm⟩

/-- A lookup that comes while a door is being added waits, although the map has
the door already, and answers once the lock has been released. -/
example :
    let calls : Bool → Call := fun client =>
      if client then ⟨.client, ascii "lab:04a1", [], []⟩ else ⟨.cli, ascii "newDoor lab 3", [], []⟩
    let w := fun turns => runCalls ⟨fun _ => 0, fun _ _ => .malformed⟩ calls
      (load emptyConfig (.doc emptyConfig)) turns
    let entering := List.replicate 4 false ++ List.replicate 9 true
    let saved := List.replicate 6 false
    ((w entering).shared.doors (ascii "lab")).isSome = true ∧
      (match (w entering).phase true with | .idle => true | _ => false) = true ∧
      (match (w (entering ++ saved ++ List.replicate 5 true)).phase true with
        | .hasRead r => r.reply == some (ascii "Denied")
        | _ => false) = true := by
  decide +kernel

end AsyncNFCServer
