import AsyncNFCServer.ReaderHandler.Admin

/-!
# The administrative operations step by step

`AdminOp.run` is an operation as a whole.  Here it is taken apart into the steps
between taking and releasing `rw_mtx`: reading config.json, each map update, the
edits of the document, putting the text into the stream on `config_tmp.json`,
the rename, the answer, and the destruction of the stream.  The stream holds
bytes back, and its last ones reach the disk when it is destroyed, after the
rename; `rw_lock` was declared before it and is released after that.

`exec_code` says that the steps, taken together, are the operation.

The text of a document is not represented, except for its length and what a
reader makes of a part of it (`JsonText`).
-/

namespace AsyncNFCServer

/-- What the steps need to know of the texts `configJson.dump(4)`. -/
structure JsonText where
  /-- the number of bytes of the text -/
  size : Json → Nat
  /-- what reading a file that holds the first `k` bytes of the text yields, for
  `0 < k < size` -/
  readCut : Json → Nat → Content

/-- What reading a file yields that holds the first `k` bytes of a text. -/
def JsonText.content (text : JsonText) (configJson : Json) (k : Nat) : Content :=
  if text.size configJson ≤ k then .doc configJson
  else if k = 0 then .empty
  else text.readCut configJson k

/-- The stream `out`, with the text of a document put into it. -/
structure OutFile where
  document : Json
  /-- the bytes that have left its buffer -/
  flushed : Nat
  /-- its file has been renamed to config.json -/
  renamed : Bool

inductive Progress where
  | running
  /-- an early `return` -/
  | returned
  | threw (e : Exn)

/-- The local state of an operation. -/
structure Locals where
  configJson : Json
  out : Option OutFile
  replies : List Str
  progress : Progress

/-- The local state when the lock has been taken. -/
def Locals.start : Locals := ⟨.null, none, [], .running⟩

/-- The exception an operation ended by, if any. -/
def Locals.thrown (l : Locals) : Option Exn :=
  match l.progress with
  | .threw e => some e
  | _ => none

/-- The steps. -/
inductive Instr where
  /-- return unless the maps have the name -/
  | returnUnless (known : Store → Bool)
  /-- one update of one map -/
  | update (f : Store → Store)
  /-- the `try` block that reads config.json -/
  | read
  | ensureArray (list : Str)
  | pushBack (list : Str) (entry : Json)
  | eraseNamed (list name : Str)
  /-- `std::ofstream out{"config_tmp.json"}; out << configJson.dump(4)` -/
  | put
  /-- up to `m` more bytes leave the buffer of the stream -/
  | flush (m : Nat)
  | rename (renames : Bool)
  | answer (reply : Str)
  /-- the destruction of the stream, at the end of the function or on the way
  out of it -/
  | close

/-- `configJson` is replaced, or the operation throws. -/
def Locals.assign (l : Locals) : Except Exn Json → Locals
  | .ok configJson => { l with configJson := configJson }
  | .error e => { l with progress := .threw e }

namespace Instr

/-- A step of an operation that is running. -/
def execRunning (text : JsonText) (s : Store) (l : Locals) : Instr → Store × Locals
  | returnUnless known => (s, if known s then l else { l with progress := .returned })
  | update f => (f s, l)
  | read => (s, l.assign (readConfig s.config))
  | ensureArray list => (s, l.assign (l.configJson.ensureArray list))
  | pushBack list entry => (s, l.assign (l.configJson.pushBackAt list entry))
  | eraseNamed list name => (s, l.assign (l.configJson.eraseNamedAt list name))
  | put =>
      (s, if l.configJson.dumps then { l with out := some ⟨l.configJson, 0, false⟩ }
        else { l with progress := .threw .typeError })
  | flush m =>
      -- the stream writes to the file it has opened, under whatever name that is
      match l.out with
      | none => (s, l)
      | some out =>
          ({ s with
              config :=
                if out.renamed then text.content out.document (out.flushed + m) else s.config },
            { l with out := some { out with flushed := out.flushed + m } })
  | rename renames =>
      match l.out with
      | none => (s, l)
      | some out =>
          if renames then
            ({ s with config := text.content out.document out.flushed },
              { l with out := some { out with renamed := true } })
          else (s, { l with progress := .threw .filesystemError })
  | answer reply => (s, { l with replies := l.replies ++ [reply] })
  | close => (s, l)

/-- A step.  After an early return or an exception nothing is executed but the
destruction of the stream, which flushes what it still holds. -/
def exec (text : JsonText) (i : Instr) (x : Store × Locals) : Store × Locals :=
  match i, x.2.progress with
  | close, _ =>
      match x.2.out with
      | none => x
      | some out =>
          ({ x.1 with config := if out.renamed then .doc out.document else x.1.config },
            { x.2 with out := none })
  | i, .running => i.execRunning text x.1 x.2
  | _, _ => x

/-- A sequence of steps. -/
def execAll (text : JsonText) (code : List Instr) (x : Store × Locals) : Store × Locals :=
  code.foldl (fun x i => i.exec text x) x

end Instr

/-! ## The steps of the operations -/

open Instr

/-- The write-back and the answer.  The stream flushes what it likes while the
text is put into it (`early`) and when it is destroyed (`late`, and the rest). -/
def writeBackCode (renames : Bool) (early late : List Nat) (reply : Str) : List Instr :=
  put :: (early.map flush ++ [rename renames, answer reply] ++ late.map flush ++ [close])

/-- An addition, up to its write-back. -/
def addCode (list : Str) (entry : Json) (updates : List (Store → Store)) : List Instr :=
  [read, ensureArray list] ++ updates.map update ++ [pushBack list entry]

/-- A removal, up to its write-back. -/
def removeCode (list name : Str) (known : Store → Bool) (updates : List (Store → Store)) :
    List Instr :=
  returnUnless known :: (updates.map update ++ [read, eraseNamed list name])

namespace AdminOp

/-- The steps of an operation up to its write-back. -/
def editCode : AdminOp → List Instr
  | newDoor name accessLevel =>
      addCode (ascii "doors") (doorEntry name accessLevel) [enterDoor name accessLevel]
  | newUser name accessLevel uid =>
      addCode (ascii "users") (userEntry name accessLevel uid)
        [fun s => { s with usersByName := s.usersByName.insert name (uid, accessLevel.toNat) },
          fun s => { s with usersByUID := s.usersByUID.insert uid (name, accessLevel.toNat) }]
  | rmDoor name =>
      removeCode (ascii "doors") name (fun s => (s.doors name).isSome)
        [fun s => { s with doors := s.doors.erase name }]
  | rmUser name =>
      removeCode (ascii "users") name (fun s => (s.usersByName name).isSome)
        [fun s =>
            match s.usersByName name with
            | none => s
            | some (uid, _) => { s with usersByUID := s.usersByUID.erase uid },
          fun s => { s with usersByName := s.usersByName.erase name }]

/-- The answer of an operation that completes. -/
def reply : AdminOp → Str
  | newDoor _ _ => ascii "Door Added Successfully"
  | newUser _ _ _ => ascii "User Added Successfully"
  | rmDoor _ => ascii "Door Removed Successfully"
  | rmUser _ => ascii "User Removed Successfully"

/-- The steps of an operation. -/
def code (renames : Bool) (early late : List Nat) (op : AdminOp) : List Instr :=
  op.editCode ++ writeBackCode renames early late op.reply

end AdminOp

/-! ## Steps one after the other -/

section Exec

variable (text : JsonText)

@[simp] theorem execAll_nil (x : Store × Locals) : execAll text [] x = x := rfl

@[simp] theorem execAll_cons (i : Instr) (code : List Instr) (x : Store × Locals) :
    execAll text (i :: code) x = execAll text code (i.exec text x) := rfl

theorem execAll_append (code code' : List Instr) (x : Store × Locals) :
    execAll text (code ++ code') x = execAll text code' (execAll text code x) := by
  simp [execAll, List.foldl_append]

/-- An operation that has ended executes no step but the last. -/
theorem exec_of_ended {i : Instr} (hi : i ≠ .close) {x : Store × Locals}
    (h : x.2.progress ≠ .running) : i.exec text x = x := by
  unfold Instr.exec
  split
  · exact absurd rfl hi
  · rename_i hrunning
    exact absurd hrunning h
  · rfl

theorem exec_close_of_none {x : Store × Locals} (h : x.2.out = none) :
    Instr.close.exec text x = x := by
  simp [Instr.exec, h]

/-- An operation that has ended without a stream stays as it is. -/
theorem execAll_of_ended (code : List Instr) {x : Store × Locals}
    (h : x.2.progress ≠ .running) (hout : x.2.out = none) : execAll text code x = x := by
  induction code with
  | nil => rfl
  | cons i code ih =>
      have hi : i.exec text x = x := by
        by_cases hclose : i = .close
        · rw [hclose, exec_close_of_none text hout]
        · exact exec_of_ended text hclose h
      rw [execAll_cons, hi, ih]

theorem exec_running (i : Instr) (hi : i ≠ .close) (s : Store) {l : Locals}
    (h : l.progress = .running) : i.exec text (s, l) = i.execRunning text s l := by
  unfold Instr.exec
  split
  · exact absurd rfl hi
  · rfl
  · rename_i hended
    exact absurd h hended

/-! ## Up to the write-back -/

/-- What an operation amounts to whose steps up to the write-back have led to
`x`. -/
def afterEdit (renames : Bool) (reply : Str) (x : Store × Locals) : Ended :=
  match x.2.progress with
  | .running => writeBack renames x.2.configJson reply x.1
  | .returned => ⟨x.1, [], none⟩
  | .threw e => ⟨x.1, [], some e⟩

/-- The steps up to the write-back have touched neither the file nor the stream,
have written no reply, and leave the rest of the operation to do. -/
structure EditLeads (renames : Bool) (reply : Str) (s : Store) (x : Store × Locals) (e : Ended) :
    Prop where
  out : x.2.out = none
  replies : x.2.replies = []
  config : x.1.config = s.config
  rest : e = afterEdit renames reply x

/-- Map updates one after the other. -/
def updateAll (updates : List (Store → Store)) (s : Store) : Store :=
  updates.foldl (fun s f => f s) s

theorem execAll_updates (updates : List (Store → Store)) (s : Store) {l : Locals}
    (h : l.progress = .running) :
    execAll text (updates.map update) (s, l) = (updateAll updates s, l) := by
  induction updates generalizing s with
  | nil => rfl
  | cons f updates ih =>
      rw [List.map_cons, execAll_cons, exec_running text _ (by simp) s h]
      exact ih (f s)

theorem exec_addCode (renames : Bool) (reply list : Str) (entry : Json)
    (updates : List (Store → Store)) (s : Store)
    (hconfig : (updateAll updates s).config = s.config) :
    EditLeads renames reply s (execAll text (addCode list entry updates) (s, .start))
      (addEntry renames list entry reply (updateAll updates) s) := by
  have hread : Instr.read.exec text (s, .start) =
      (s, Locals.start.assign (readConfig s.config)) := exec_running text _ (by simp) s rfl
  rw [addCode, List.append_assoc, List.cons_append, List.cons_append, List.nil_append, execAll_cons,
    execAll_cons, hread]
  cases hjson : readConfig s.config with
  | error e =>
      -- the exception skips all other steps
      have hstop : (Locals.start.assign (.error e)).progress ≠ .running := by simp [Locals.assign]
      rw [exec_of_ended text (by simp) hstop, execAll_of_ended text _ hstop rfl]
      exact ⟨rfl, rfl, rfl, by simp [addEntry, hjson, afterEdit, Locals.assign, bind, Except.bind]⟩
  | ok configJson =>
      rw [exec_running text _ (by simp) s rfl]
      simp only [execRunning, Locals.assign]
      cases hensure : configJson.ensureArray list with
      | error e =>
          rw [execAll_of_ended text _ (by simp) rfl]
          exact ⟨rfl, rfl, rfl,
            by simp [addEntry, hjson, hensure, afterEdit, bind, Except.bind]⟩
      | ok listed =>
          simp only
          rw [execAll_append, execAll_updates text updates s rfl, execAll_cons, execAll_nil,
            exec_running text _ (by simp) _ rfl]
          simp only [execRunning]
          cases hpush : listed.pushBackAt list entry with
          | error e =>
              exact ⟨rfl, rfl, hconfig, by
                simp [addEntry, hjson, hensure, hpush, afterEdit, Locals.assign, bind, Except.bind]⟩
          | ok edited =>
              exact ⟨rfl, rfl, hconfig, by
                simp [addEntry, hjson, hensure, hpush, afterEdit, Locals.assign, Locals.start, bind,
                  Except.bind]⟩

theorem exec_removeCode (renames : Bool) (reply list name : Str) (known : Store → Bool)
    (updates : List (Store → Store)) (s : Store)
    (hconfig : (updateAll updates s).config = s.config) :
    EditLeads renames reply s (execAll text (removeCode list name known updates) (s, .start))
      (removeEntry renames list name reply
        (fun s => if known s then some (updateAll updates s) else none) s) := by
  have hknown : (Instr.returnUnless known).exec text (s, .start) =
      (s, if known s then .start else { Locals.start with progress := .returned }) :=
    exec_running text _ (by simp) s rfl
  rw [removeCode, execAll_cons, hknown]
  cases hfound : known s with
  | false =>
      -- the early return skips all other steps
      simp only [Bool.false_eq_true, if_false]
      rw [execAll_of_ended text _ (by simp) rfl]
      exact ⟨rfl, rfl, rfl, by simp [removeEntry, hfound, afterEdit]⟩
  | true =>
      simp only [if_true]
      have hread : Instr.read.exec text (updateAll updates s, .start) =
          (updateAll updates s, Locals.start.assign (readConfig s.config)) := by
        rw [exec_running text _ (by simp) _ rfl, execRunning, hconfig]
      rw [execAll_append, execAll_updates text updates s rfl, execAll_cons, execAll_cons,
        execAll_nil, hread]
      cases hjson : readConfig s.config with
      | error e =>
          rw [exec_of_ended text (by simp) (by simp [Locals.assign])]
          exact ⟨rfl, rfl, hconfig, by
            simp [removeEntry, hfound, hconfig, hjson, afterEdit, Locals.assign, bind, Except.bind]⟩
      | ok configJson =>
          simp only [Locals.assign]
          rw [exec_running text _ (by simp) _ rfl]
          simp only [execRunning]
          cases herase : configJson.eraseNamedAt list name with
          | error e =>
              exact ⟨rfl, rfl, hconfig, by
                simp [removeEntry, hfound, hconfig, hjson, herase, afterEdit, Locals.assign, bind,
                  Except.bind]⟩
          | ok edited =>
              exact ⟨rfl, rfl, hconfig, by
                simp [removeEntry, hfound, hconfig, hjson, herase, afterEdit, Locals.assign,
                  Locals.start, bind, Except.bind]⟩

/-- The steps of an operation up to its write-back. -/
theorem exec_editCode (renames : Bool) (op : AdminOp) (s : Store) :
    EditLeads renames op.reply s (execAll text op.editCode (s, .start)) (op.run renames s) := by
  cases op with
  | newDoor name accessLevel => exact exec_addCode text renames _ _ _ _ s rfl
  | newUser name accessLevel uid => exact exec_addCode text renames _ _ _ _ s rfl
  | rmDoor name =>
      have hforget : (fun s : Store => if (s.doors name).isSome then
          some (updateAll [fun s => { s with doors := s.doors.erase name }] s) else none) =
            forgetDoor name := by
        funext s
        cases hname : s.doors name <;> simp [forgetDoor, hname, updateAll]
      have hedit := exec_removeCode text renames (AdminOp.rmDoor name).reply (ascii "doors") name
        (fun s => (s.doors name).isSome) [fun s => { s with doors := s.doors.erase name }] s rfl
      rw [hforget] at hedit
      exact hedit
  | rmUser name =>
      have hconfig : ∀ s : Store, (updateAll [fun s : Store =>
            match s.usersByName name with
            | none => s
            | some (uid, _) => { s with usersByUID := s.usersByUID.erase uid },
          fun s => { s with usersByName := s.usersByName.erase name }] s).config = s.config := by
        intro s
        simp only [updateAll, List.foldl_cons, List.foldl_nil]
        split <;> rfl
      have hforget : (fun s : Store => if (s.usersByName name).isSome then
          some (updateAll [fun s : Store =>
              match s.usersByName name with
              | none => s
              | some (uid, _) => { s with usersByUID := s.usersByUID.erase uid },
            fun s => { s with usersByName := s.usersByName.erase name }] s) else none) =
            forgetUser name := by
        funext s
        cases hname : s.usersByName name <;> simp [forgetUser, hname, updateAll]
      have hedit := exec_removeCode text renames (AdminOp.rmUser name).reply (ascii "users") name
        (fun s => (s.usersByName name).isSome) _ s (hconfig s)
      rw [hforget] at hedit
      exact hedit

/-! ## The write-back -/

/-- Flushes move the count, and the content of the file once it is config.json. -/
theorem execAll_flushes (ms : List Nat) (s : Store) {l : Locals} (h : l.progress = .running)
    {out : OutFile} (hout : l.out = some out)
    (hconfig : out.renamed = true → s.config = text.content out.document out.flushed) :
    execAll text (ms.map flush) (s, l) =
      ({ s with
          config :=
            if out.renamed then text.content out.document (out.flushed + ms.sum) else s.config },
        { l with out := some { out with flushed := out.flushed + ms.sum } }) := by
  induction ms generalizing s l out with
  | nil =>
      obtain ⟨document, flushed, renamed⟩ := out
      cases renamed with
      | false => simp [← hout]
      | true => simp [← hout, ← hconfig rfl]
  | cons m ms ih =>
      rw [List.map_cons, execAll_cons, exec_running text _ (by simp) s h]
      simp only [execRunning, hout]
      rw [ih _ (l := { l with out := some { out with flushed := out.flushed + m } }) h rfl
        fun hrenamed => if_pos hrenamed]
      cases hrenamed : out.renamed <;> simp [Nat.add_assoc]

theorem execAll_flushes_of_ended (ms : List Nat) {x : Store × Locals}
    (h : x.2.progress ≠ .running) : execAll text (ms.map flush) x = x := by
  induction ms with
  | nil => rfl
  | cons m ms ih => rw [List.map_cons, execAll_cons, exec_of_ended text (by simp) h, ih]

theorem exec_rename (renames : Bool) (s : Store) {l : Locals} (h : l.progress = .running)
    {out : OutFile} (hout : l.out = some out) :
    (rename renames).exec text (s, l) =
      if renames then
        ({ s with config := text.content out.document out.flushed },
          { l with out := some { out with renamed := true } })
      else (s, { l with progress := .threw .filesystemError }) := by
  rw [exec_running text _ (by simp) s h]
  simp only [execRunning, hout]

theorem exec_answer (reply : Str) (s : Store) {l : Locals} (h : l.progress = .running) :
    (answer reply).exec text (s, l) = (s, { l with replies := l.replies ++ [reply] }) :=
  exec_running text _ (by simp) s h

/-- The stream is destroyed, whether the operation has ended or not. -/
theorem exec_close (s : Store) {l : Locals} {out : OutFile} (hout : l.out = some out) :
    Instr.close.exec text (s, l) =
      ({ s with config := if out.renamed then .doc out.document else s.config },
        { l with out := none }) := by
  simp [Instr.exec, hout]

/-- The steps of the write-back are `writeBack`. -/
theorem exec_writeBackCode (renames : Bool) (early late : List Nat) (reply : Str) (s : Store)
    {l : Locals} (h : l.progress = .running) (hout : l.out = none) (hreplies : l.replies = []) :
    let x := execAll text (writeBackCode renames early late reply) (s, l)
    Ended.mk x.1 x.2.replies x.2.thrown = writeBack renames l.configJson reply s ∧
      x.2.out = none := by
  rw [writeBackCode, execAll_cons, exec_running text _ (by simp) s h]
  simp only [execRunning, writeBack]
  cases hdumps : l.configJson.dumps with
  | false =>
      simp only [Bool.false_eq_true, if_false]
      rw [execAll_of_ended text _ (by simp) hout]
      exact ⟨by simp [hreplies, Locals.thrown], hout⟩
  | true =>
      simp only [if_true]
      have hearly := execAll_flushes text early s
        (l := { l with out := some ⟨l.configJson, 0, false⟩ }) h rfl (by simp)
      simp only [Bool.false_eq_true, if_false, Nat.zero_add] at hearly
      rw [execAll_append, execAll_append, execAll_append, hearly]
      simp only [execAll_cons, execAll_nil]
      have hrename := exec_rename text renames s
        (l := { l with out := some ⟨l.configJson, early.sum, false⟩ }) h rfl
      cases renames with
      | false =>
          -- the stream is destroyed on the way out, but not over config.json
          rw [hrename, if_neg Bool.false_ne_true,
            exec_of_ended text (i := answer reply) (by simp) (by simp),
            execAll_flushes_of_ended text _ (by simp), exec_close text _ rfl]
          exact ⟨by simp [hreplies, Locals.thrown], rfl⟩
      | true =>
          have hanswer := exec_answer text reply
            { s with config := text.content l.configJson early.sum }
            (l := { l with out := some ⟨l.configJson, early.sum, true⟩ }) h
          have hlate := execAll_flushes text late
            { s with config := text.content l.configJson early.sum }
            (l := { l with
              out := some ⟨l.configJson, early.sum, true⟩, replies := l.replies ++ [reply] })
            h rfl fun _ => rfl
          rw [hrename, if_pos rfl, hanswer, hlate, exec_close text _ rfl]
          exact ⟨by simp [hreplies, Locals.thrown, h], rfl⟩

/-- **The steps of an operation are the operation**, however the stream flushes. -/
theorem exec_code (renames : Bool) (early late : List Nat) (op : AdminOp) (s : Store) :
    let x := execAll text (op.code renames early late) (s, .start)
    Ended.mk x.1 x.2.replies x.2.thrown = op.run renames s := by
  have hedit := exec_editCode text renames op s
  rw [AdminOp.code, execAll_append]
  generalize execAll text op.editCode (s, .start) = x at hedit
  obtain ⟨s', l⟩ := x
  obtain ⟨hout, hreplies, -, hrest⟩ := hedit
  simp only at hout hreplies
  rw [hrest, afterEdit]
  cases hprogress : l.progress with
  | running =>
      exact (exec_writeBackCode text renames early late op.reply s' hprogress hout hreplies).1
  | returned =>
      rw [execAll_of_ended text _ (by simp [hprogress]) hout]
      simp [hreplies, Locals.thrown, hprogress]
  | threw e =>
      rw [execAll_of_ended text _ (by simp [hprogress]) hout]
      simp [hreplies, Locals.thrown, hprogress]

end Exec

end AsyncNFCServer
