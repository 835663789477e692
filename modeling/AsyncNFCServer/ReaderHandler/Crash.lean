import AsyncNFCServer.ReaderHandler.Steps

/-!
# Kills during an operation

The operations write the new document to `config_tmp.json` and rename that file
to config.json, so that the process can be killed at any moment without leaving
half a document.  But the rename comes before the destruction of the stream that
holds the text back, so that what is renamed need not be complete.

`complete_iff` says when a kill is harmless: always, except between the rename
and the moment when the last byte of the text has left the stream.  A short text
does not fill the buffer, so that such a kill leaves an empty file, which the
next start takes for a missing one (`startup_unflushed`).
-/

namespace AsyncNFCServer

open Instr

/-- What is relied on of the texts of documents.  A part of the text of an object
lacks its last brace and is not JSON; no part of a text is a text of the same
document. -/
structure JsonText.Lawful (text : JsonText) : Prop where
  cut_object : ∀ members k, 0 < k → k < text.size (.object members) →
    text.readCut (.object members) k = .malformed
  cut_ne : ∀ configJson k, 0 < k → k < text.size configJson →
    text.readCut configJson k ≠ .doc configJson

/-- How an operation goes that is killed: whether the rename succeeds, what the
stream flushes before it and after it, and the number of steps executed. -/
structure Kill where
  renames : Bool
  early : List Nat
  late : List Nat
  steps : Nat

/-- The number of steps before the rename. -/
def Kill.stepsToRename (kill : Kill) (op : AdminOp) : Nat :=
  op.editCode.length + 1 + kill.early.length

/-- The config.json that the next start finds. -/
def Kill.config (text : JsonText) (kill : Kill) (op : AdminOp) (s : Store) : Content :=
  (execAll text ((op.code kill.renames kill.early kill.late).take kill.steps) (s, .start)).1.config

/-- The next start finds the old document, or what the operation leaves when it
is not killed. -/
def Kill.Complete (text : JsonText) (kill : Kill) (op : AdminOp) (s : Store) : Prop :=
  kill.config text op s = s.config ∨
    kill.config text op s = (op.run kill.renames s).store.config

/-- The document that has been written by a call that came to its answer. -/
def Ended.document (e : Ended) : Option Json :=
  match e.replies, e.store.config with
  | _ :: _, .doc configJson => some configJson
  | _, _ => none

/-- The document that the operation writes, if nothing stops it. -/
def AdminOp.newDocument (renames : Bool) (op : AdminOp) (s : Store) : Option Json :=
  (op.run renames s).document

/-- The bytes of the text that have left the stream after the rename: the answer
comes between it and the late flushes. -/
def Kill.flushed (kill : Kill) (op : AdminOp) : Nat :=
  kill.early.sum + (kill.late.take (kill.steps - kill.stepsToRename op - 2)).sum

/-- The kill comes after the rename, when the stream has not been destroyed and
has flushed less than the whole text. -/
def Kill.Unflushed (text : JsonText) (kill : Kill) (op : AdminOp) (s : Store) : Prop :=
  ∃ configJson ∈ op.newDocument kill.renames s,
    kill.stepsToRename op < kill.steps ∧
      kill.steps < (op.code kill.renames kill.early kill.late).length ∧
      kill.flushed op < text.size configJson

instance (text : JsonText) (kill : Kill) (op : AdminOp) (s : Store) :
    Decidable (kill.Unflushed text op s) := by
  unfold Kill.Unflushed
  infer_instance

/-! ## Before the write-back -/

/-- The step leaves config.json and the stream alone. -/
def Instr.Edits : Instr → Prop
  | update f => ∀ s, (f s).config = s.config
  | put | flush _ | rename _ | answer _ | close => False
  | _ => True

variable (text : JsonText)

theorem exec_config_of_edits {i : Instr} (hi : i.Edits) (x : Store × Locals) :
    (i.exec text x).1.config = x.1.config := by
  obtain ⟨s, l⟩ := x
  by_cases hrunning : l.progress = .running
  · cases i with
    | update f =>
        rw [exec_running text _ (by simp) s hrunning]
        exact hi s
    | returnUnless | read | ensureArray | pushBack | eraseNamed =>
        rw [exec_running text _ (by simp) s hrunning]
        rfl
    | put | flush | rename | answer | close => exact hi.elim
  · have hclose : i ≠ .close := by
      rintro rfl
      exact hi
    rw [exec_of_ended text hclose hrunning]

theorem execAll_config_of_edits {code : List Instr} (hcode : ∀ i ∈ code, i.Edits)
    (x : Store × Locals) : (execAll text code x).1.config = x.1.config := by
  induction code generalizing x with
  | nil => rfl
  | cons i code ih =>
      rw [execAll_cons, ih fun j hj => hcode j (List.mem_cons_of_mem i hj),
        exec_config_of_edits text (hcode i List.mem_cons_self)]

theorem edits_editCode (op : AdminOp) : ∀ i ∈ op.editCode, i.Edits := by
  cases op with
  | newDoor | newUser => simp [AdminOp.editCode, addCode, Instr.Edits, enterDoor]
  | rmDoor name => simp [AdminOp.editCode, removeCode, Instr.Edits]
  | rmUser name =>
      simp only [AdminOp.editCode, removeCode, List.map_cons, List.map_nil, List.cons_append,
        List.nil_append, List.forall_mem_cons, Instr.Edits]
      refine ⟨trivial, fun s => ?_, fun s => trivial, by simp⟩
      split <;> rfl

/-! ## During the write-back -/

/-- An operation that has ended before the rename leaves config.json as it is. -/
theorem execAll_config_of_ended (code : List Instr) {x : Store × Locals}
    (hended : x.2.progress ≠ .running) (hout : ∀ out, x.2.out = some out → out.renamed = false) :
    (execAll text code x).1.config = x.1.config := by
  induction code generalizing x with
  | nil => rfl
  | cons i code ih =>
      rw [execAll_cons]
      by_cases hclose : i = .close
      · subst hclose
        obtain ⟨s, l⟩ := x
        cases hstream : l.out with
        | none => rw [exec_close_of_none text hstream, ih hended hout]
        | some out =>
            rw [exec_close text s hstream, hout out hstream]
            exact ih hended (by simp)
      · rw [exec_of_ended text hclose hended, ih hended hout]

/-- The config.json that a kill after the answer leaves. -/
theorem config_take_flushes_close (late : List Nat) (s : Store) {l : Locals}
    (h : l.progress = .running) {out : OutFile} (hout : l.out = some out)
    (hrenamed : out.renamed = true) (hconfig : s.config = text.content out.document out.flushed)
    (t : Nat) :
    (execAll text ((late.map flush ++ [close]).take t) (s, l)).1.config =
      if t ≤ late.length then text.content out.document (out.flushed + (late.take t).sum)
      else .doc out.document := by
  split_ifs with ht
  · -- the kill comes while the stream is being destroyed
    rw [List.take_append_of_le_length (by simpa using ht), ← List.map_take,
      execAll_flushes text _ s h hout fun _ => hconfig]
    simp [hrenamed]
  · rw [List.take_of_length_le (by simp; omega), execAll_append,
      execAll_flushes text _ s h hout fun _ => hconfig, execAll_cons, execAll_nil,
      exec_close text _ rfl]
    simp [hrenamed]

/-- The config.json that a kill from the rename on leaves. -/
theorem config_take_rename (renames : Bool) (late : List Nat) (reply : Str) (s : Store)
    {l : Locals} (h : l.progress = .running) {out : OutFile} (hout : l.out = some out)
    (hnot : out.renamed = false) (n : Nat) :
    (execAll text (([rename renames, answer reply] ++ (late.map flush ++ [close])).take n)
        (s, l)).1.config =
      if n = 0 ∨ renames = false then s.config
      else if n < late.length + 3 then
        text.content out.document (out.flushed + (late.take (n - 2)).sum)
      else .doc out.document := by
  cases n with
  | zero => simp
  | succ n =>
      have hrename := exec_rename text renames s h hout
      rw [List.cons_append, List.take_succ_cons, execAll_cons, hrename]
      cases renames with
      | false =>
          rw [if_neg Bool.false_ne_true,
            execAll_config_of_ended text _ (by simp) (by simp [hout, hnot]), if_pos (Or.inr rfl)]
      | true =>
          rw [if_pos rfl, if_neg (by simp)]
          cases n with
          | zero =>
              rw [if_pos (by omega)]
              simp
          | succ n =>
              have hanswer := exec_answer text reply
                { s with config := text.content out.document out.flushed }
                (l := { l with out := some { out with renamed := true } }) h
              have hend : n + 1 + 1 < late.length + 3 ↔ n ≤ late.length := by omega
              rw [List.cons_append, List.nil_append, List.take_succ_cons, execAll_cons, hanswer,
                config_take_flushes_close text late _ (by exact h) rfl rfl rfl]
              simp only [hend, show n + 1 + 1 - 2 = n by omega]

/-- The config.json that a kill during the write-back leaves. -/
theorem config_take_writeBackCode (renames : Bool) (early late : List Nat) (reply : Str) (s : Store)
    {l : Locals} (h : l.progress = .running) (hdumps : l.configJson.dumps = true) (t : Nat) :
    (execAll text ((writeBackCode renames early late reply).take t) (s, l)).1.config =
      if t ≤ 1 + early.length ∨ renames = false then s.config
      else if t < (writeBackCode renames early late reply).length then
        text.content l.configJson (early.sum + (late.take (t - (1 + early.length) - 2)).sum)
      else .doc l.configJson := by
  have hlength : (writeBackCode renames early late reply).length =
      early.length + late.length + 4 := by
    simp [writeBackCode]
    omega
  rw [hlength]
  cases t with
  | zero => simp
  | succ t =>
      have hput : put.exec text (s, l) =
          (s, { l with out := some ⟨l.configJson, 0, false⟩ }) := by
        rw [exec_running text _ (by simp) s h, execRunning, if_pos hdumps]
      have hflushes : ∀ ms : List Nat,
          execAll text (ms.map flush) (s, { l with out := some ⟨l.configJson, 0, false⟩ }) =
            (s, { l with out := some ⟨l.configJson, ms.sum, false⟩ }) := by
        intro ms
        rw [execAll_flushes text ms s (l := { l with out := some ⟨l.configJson, 0, false⟩ }) h rfl
          (by simp)]
        simp
      rw [writeBackCode, List.take_succ_cons, execAll_cons, hput, List.append_assoc,
        List.append_assoc]
      by_cases ht : t ≤ early.length
      · -- nothing but flushes to `config_tmp.json`
        rw [List.take_append_of_le_length (by simpa using ht), ← List.map_take, hflushes,
          if_pos (Or.inl (by omega))]
      · have hbefore : t + 1 ≤ 1 + early.length ∨ renames = false ↔
            t - early.length = 0 ∨ renames = false := or_congr_left (by omega)
        have hwithin : t + 1 < early.length + late.length + 4 ↔
            t - early.length < late.length + 3 := by omega
        have hflushed : t + 1 - (1 + early.length) - 2 = t - early.length - 2 := by omega
        have hall : (early.map flush).take t = early.map flush :=
          List.take_of_length_le (by simp; omega)
        rw [List.take_append, hall, execAll_append, hflushes, List.length_map,
          config_take_rename text renames late reply s (by exact h) rfl rfl]
        simp only [hbefore, hwithin, hflushed]

/-- A write-back that is not reached, or in which `dump` or the rename throws,
leaves config.json as it is. -/
theorem config_take_of_not_written {renames : Bool} (early late : List Nat) (reply : Str)
    (t : Nat) {x : Store × Locals}
    (hstop : x.2.progress = .running → x.2.configJson.dumps = true → renames = false)
    (hout : x.2.out = none) :
    (execAll text ((writeBackCode renames early late reply).take t) x).1.config = x.1.config := by
  obtain ⟨s, l⟩ := x
  by_cases hrunning : l.progress = .running
  · cases hdumps : l.configJson.dumps with
    | true =>
        rw [config_take_writeBackCode text _ _ _ _ s hrunning hdumps,
          if_pos (Or.inr (hstop hrunning hdumps))]
    | false =>
        cases t with
        | zero => rfl
        | succ t =>
            -- `dump` throws before anything is put into the stream
            have hput : put.exec text (s, l) = (s, { l with progress := .threw .typeError }) := by
              rw [exec_running text _ (by simp) s hrunning, execRunning, hdumps]
              rfl
            rw [writeBackCode, List.take_succ_cons, execAll_cons, hput]
            exact execAll_config_of_ended text _ (by simp) (by simp_all)
  · exact execAll_config_of_ended text _ hrunning (by simp_all)

/-! ## What the next start finds -/

variable {text} in
/-- A file that holds a part of the text of a document does not read as the
document. -/
theorem JsonText.Lawful.content_ne (htext : text.Lawful) {configJson : Json} {k : Nat}
    (hk : k < text.size configJson) : text.content configJson k ≠ .doc configJson := by
  rw [JsonText.content, if_neg (by omega)]
  split_ifs with hzero
  · simp
  · exact htext.cut_ne configJson k (by omega) hk

variable {text} in
/-- A file that holds a part of the text of an object is taken for a missing or
an invalid one. -/
theorem JsonText.Lawful.content_object (htext : text.Lawful) {members : List (Str × Json)}
    {k : Nat} (hk : k < text.size (.object members)) :
    text.content (.object members) k = .empty ∨ text.content (.object members) k = .malformed := by
  rw [JsonText.content, if_neg (by omega)]
  split_ifs with hzero
  · exact Or.inl rfl
  · exact Or.inr (htext.cut_object members k (by omega) hk)

/-- Whether an operation writes a document is decided where its write-back starts. -/
theorem newDocument_cases {renames : Bool} {op : AdminOp} {s : Store} {x : Store × Locals}
    (hedit : EditLeads renames op.reply s x (op.run renames s)) :
    (x.2.progress = .running ∧ x.2.configJson.dumps = true ∧ renames = true ∧
        op.newDocument renames s = some x.2.configJson ∧
        (op.run renames s).store.config = .doc x.2.configJson) ∨
      ((x.2.progress = .running → x.2.configJson.dumps = true → renames = false) ∧
        op.newDocument renames s = none ∧ (op.run renames s).store.config = s.config) := by
  rw [AdminOp.newDocument, hedit.rest, afterEdit]
  cases hprogress : x.2.progress with
  | returned => exact Or.inr ⟨by simp, rfl, hedit.config⟩
  | threw e => exact Or.inr ⟨by simp, rfl, hedit.config⟩
  | running =>
      simp only [writeBack]
      cases hdumps : x.2.configJson.dumps with
      | false => exact Or.inr ⟨by simp, rfl, hedit.config⟩
      | true =>
          cases renames with
          | false => exact Or.inr ⟨by simp, rfl, hedit.config⟩
          | true => exact Or.inl ⟨trivial, rfl, rfl, rfl, rfl⟩

/-- What an operation leaves in config.json when it is not killed. -/
theorem run_config (renames : Bool) (op : AdminOp) (s : Store) :
    (op.run renames s).store.config =
      match op.newDocument renames s with
      | none => s.config
      | some configJson => .doc configJson := by
  rcases newDocument_cases (exec_editCode ⟨fun _ => 0, fun _ _ => .empty⟩ renames op s) with
    ⟨-, -, -, hnew, hconfig⟩ | ⟨-, hnew, hconfig⟩
  · rw [hnew, hconfig]
  · rw [hnew, hconfig]

/-- A kill before the write-back finds the old file. -/
theorem Kill.config_of_editing {kill : Kill} {op : AdminOp}
    (hsteps : kill.steps ≤ op.editCode.length) (s : Store) :
    kill.config text op s = s.config := by
  calc kill.config text op s
      = (execAll text (op.editCode.take kill.steps) (s, .start)).1.config := by
        rw [Kill.config, AdminOp.code, List.take_append_of_le_length hsteps]
    _ = s.config := execAll_config_of_edits text
        (fun i hi => edits_editCode op i (List.mem_of_mem_take hi)) (s, .start)

/-- A kill during the write-back finds what that has left. -/
theorem Kill.config_of_writing {kill : Kill} {op : AdminOp} {t : Nat}
    (ht : kill.steps = op.editCode.length + t) (s : Store) :
    kill.config text op s = (execAll text
      ((writeBackCode kill.renames kill.early kill.late op.reply).take t)
      (execAll text op.editCode (s, .start))).1.config := by
  rw [Kill.config, AdminOp.code, ht, List.take_length_add_append, execAll_append]

/-- The config.json that the next start finds. -/
theorem Kill.config_eq (kill : Kill) (op : AdminOp) (s : Store) :
    kill.config text op s =
      match op.newDocument kill.renames s with
      | none => s.config
      | some configJson =>
          if kill.steps ≤ kill.stepsToRename op then s.config
          else if kill.steps < (op.code kill.renames kill.early kill.late).length then
            text.content configJson (kill.flushed op)
          else .doc configJson := by
  have hedit := exec_editCode text kill.renames op s
  rcases Nat.le_total kill.steps op.editCode.length with hsteps | hsteps
  · have hbefore : kill.steps ≤ kill.stepsToRename op := by
      rw [Kill.stepsToRename]
      omega
    rw [Kill.config_of_editing text hsteps]
    cases op.newDocument kill.renames s with
    | none => rfl
    | some configJson => exact (if_pos hbefore).symm
  · obtain ⟨t, ht⟩ := Nat.exists_eq_add_of_le hsteps
    rw [Kill.config_of_writing text ht]
    generalize execAll text op.editCode (s, .start) = x at hedit
    obtain ⟨s', l⟩ := x
    rcases newDocument_cases hedit with
      ⟨hrunning, hdumps, hrenames, hnew, -⟩ | ⟨hstop, hnew, -⟩
    · -- the indices count from the start of the operation, not of the write-back
      have hflushed : t - (1 + kill.early.length) - 2 =
          kill.steps - kill.stepsToRename op - 2 := by
        rw [Kill.stepsToRename]
        omega
      have hbefore : t ≤ 1 + kill.early.length ∨ kill.renames = false ↔
          kill.steps ≤ kill.stepsToRename op := by
        rw [Kill.stepsToRename, hrenames]
        simp
        omega
      have hwithin : t < (writeBackCode kill.renames kill.early kill.late op.reply).length ↔
          kill.steps < (op.code kill.renames kill.early kill.late).length := by
        rw [AdminOp.code, List.length_append]
        omega
      rw [config_take_writeBackCode text _ _ _ _ s' hrunning hdumps, hnew, hflushed]
      simp only [hbefore, hwithin, Kill.flushed]
      rw [show s'.config = s.config from hedit.config]
    · rw [hnew, config_take_of_not_written text _ _ _ _ hstop hedit.out]
      exact hedit.config

theorem object_of_assign {j edited value : Json} {key : Str}
    (h : j.assign key value = .ok edited) : ∃ members, edited = .object members := by
  cases j <;> simp only [Json.assign, Except.ok.injEq, reduceCtorEq] at h <;> exact ⟨_, h.symm⟩

theorem object_of_pushBackAt {j edited entry : Json} {key : Str}
    (h : j.pushBackAt key entry = .ok edited) : ∃ members, edited = .object members := by
  unfold Json.pushBackAt at h
  cases hpush : ((j.member? key).getD .null).pushBack entry with
  | error e => simp [hpush, bind, Except.bind] at h
  | ok list =>
      rw [hpush] at h
      exact object_of_assign h

theorem object_of_eraseNamedAt {j edited : Json} {key name : Str}
    (h : j.eraseNamedAt key name = .ok edited) :
    edited = j ∨ ∃ members, edited = .object members := by
  unfold Json.eraseNamedAt at h
  split at h
  · exact Or.inl (Except.ok.inj h).symm
  · exact Or.inr (object_of_assign h)

theorem object_of_addEntry {renames : Bool} {list answer : Str} {entry new : Json}
    {enter : Store → Store} {s : Store}
    (h : (addEntry renames list entry answer enter s).document = some new) :
    ∃ members, new = .object members := by
  rcases addEntry_cases renames list entry answer enter s with
    ⟨e, -, heq⟩ | ⟨configJson, -, ⟨e, heq⟩ | ⟨edited, -, hpush, -, heq⟩⟩
  · rw [heq] at h
    cases h
  · rw [heq] at h
    cases h
  · rw [heq] at h
    rw [← Option.some.inj h]
    exact object_of_pushBackAt hpush

theorem object_of_removeEntry {renames : Bool} {list name answer : Str} {old new : Json}
    {forget : Store → Option Store} {s : Store}
    (hold : ∀ s', forget s = some s' → s'.config = .doc old)
    (h : (removeEntry renames list name answer forget s).document = some new) :
    new = old ∨ ∃ members, new = .object members := by
  rcases removeEntry_cases renames list name answer forget s with
    ⟨-, heq⟩ | ⟨s', hforget, ⟨e, heq⟩ | ⟨edited, -, herase, -, heq⟩⟩
  · rw [heq] at h
    cases h
  · rw [heq] at h
    cases h
  · rw [heq] at h
    rw [← Option.some.inj h]
    rw [hold s' hforget] at herase
    exact object_of_eraseNamedAt herase

/-- The document that an operation writes is the old one or an object. -/
theorem newDocument_object {renames : Bool} {op : AdminOp} {s : Store} {old new : Json}
    (hold : s.config = .doc old) (hnew : op.newDocument renames s = some new) :
    new = old ∨ ∃ members, new = .object members := by
  cases op with
  | newDoor name accessLevel => exact Or.inr (object_of_addEntry hnew)
  | newUser name accessLevel uid => exact Or.inr (object_of_addEntry hnew)
  | rmDoor name =>
      refine object_of_removeEntry (fun s' hs' => ?_) hnew
      unfold forgetDoor at hs'
      split at hs'
      · cases hs'
      · rw [← Option.some.inj hs']
        exact hold
  | rmUser name =>
      refine object_of_removeEntry (fun s' hs' => ?_) hnew
      unfold forgetUser at hs'
      split at hs'
      · cases hs'
      · rw [← Option.some.inj hs']
        exact hold

/-- **When a kill is harmless.**  The next start finds the old document or the
complete new one, unless the kill came between the rename and the moment when the
last byte of the text left the stream. -/
theorem complete_iff (htext : text.Lawful) (kill : Kill) (op : AdminOp) {s : Store} {old : Json}
    (hold : s.config = .doc old) :
    kill.Complete text op s ↔ ¬ kill.Unflushed text op s := by
  unfold Kill.Complete Kill.Unflushed
  rw [kill.config_eq, run_config]
  cases hnew : op.newDocument kill.renames s with
  | none => simp
  | some new =>
      simp only [Option.mem_some_iff, exists_eq_left']
      split_ifs with hbefore hwithin
      · simp [Nat.not_lt.mpr hbefore]
      · have hafter : kill.stepsToRename op < kill.steps := by omega
        simp only [hafter, hwithin, true_and]
        rcases Nat.lt_or_ge (kill.flushed op) (text.size new) with hpart | hwhole
        · have hnew' := htext.content_ne hpart
          have hold' : text.content new (kill.flushed op) ≠ s.config := by
            rw [hold]
            rcases newDocument_object hold hnew with rfl | ⟨members, rfl⟩
            · exact hnew'
            · rcases htext.content_object hpart with h | h <;> simp [h]
          simp [hpart, hnew', hold']
        · simp [JsonText.content, hwhole]
      · simp [hwithin]

/-- A kill that is not harmless and leaves a part of an object costs every door
and every user: the next start replaces the file by an empty configuration. -/
theorem startup_unflushed (htext : text.Lawful) {kill : Kill} {op : AdminOp} {s : Store}
    {members : List (Str × Json)} (hnew : op.newDocument kill.renames s = some (.object members))
    (h : kill.Unflushed text op s) :
    ∃ found, startup (kill.config text op s) = .ok found ∧ found.doors = Table.empty ∧
      found.usersByName = Table.empty ∧ found.usersByUID = Table.empty ∧
      found.config = .doc emptyConfig := by
  obtain ⟨new, hmem, hafter, hwithin, hpart⟩ := h
  obtain rfl : new = .object members := Option.some.inj (hmem.symm.trans hnew)
  rw [kill.config_eq, hnew]
  simp only [Nat.not_le.mpr hafter, hwithin, if_false, if_true]
  rcases htext.content_object hpart with hempty | hmalformed
  · rw [hempty]
    exact ⟨_, rfl, rfl, rfl, rfl, rfl⟩
  · rw [hmalformed]
    exact ⟨_, rfl, rfl, rfl, rfl, rfl⟩

/-- A text as long as that of the configuration with the door `lab` of level 3
alone. -/
def labText : JsonText := ⟨fun _ => 117, fun _ _ => .malformed⟩

theorem labText_lawful : labText.Lawful := ⟨fun _ _ _ _ => rfl, fun _ _ _ _ => by simp [labText]⟩

/-- A kill of `newDoor lab 3` before the rename, one between the rename and the
answer, and one that comes too late. -/
theorem complete_iff_newDoor :
    let s := load emptyConfig (.doc emptyConfig)
    let op := AdminOp.newDoor (ascii "lab") 3
    Kill.Complete labText ⟨true, [], [117], 5⟩ op s ∧
      ¬ Kill.Complete labText ⟨true, [], [117], 6⟩ op s ∧
      Kill.Complete labText ⟨true, [], [117], 8⟩ op s := by
  refine ⟨(complete_iff labText labText_lawful _ _ rfl).mpr ?_,
    fun h => (complete_iff labText labText_lawful _ _ rfl).mp h ?_,
    (complete_iff labText labText_lawful _ _ rfl).mpr ?_⟩
  · decide +kernel
  · decide +kernel
  · decide +kernel

/-- The first door of an empty configuration is being added and the process is
killed right after the rename. -/
theorem not_forall_complete :
    ¬ ∀ text : JsonText, text.Lawful → ∀ (kill : Kill) (op : AdminOp) (s : Store) (old : Json),
      s.config = .doc old → kill.Complete text op s := by
  intro h
  have hkill := h labText labText_lawful ⟨true, [], [], 6⟩ (.newDoor (ascii "lab") 3)
    (load emptyConfig (.doc emptyConfig)) emptyConfig rfl
  rcases hkill with hkill | hkill
  · cases hkill
  · cases hkill

end AsyncNFCServer
