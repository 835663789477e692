import AsyncNFCServer.ReaderHandler.Admin

/-!
# The handlers of received lines

A pending read of a connection carries one of three handlers: the lambdas of
`handleClient` and `handleCli`, and the one `newUser` starts for the UID.
`ReadHandler.run` is one run of a handler on the line its read completed with.
Reads that the handler starts itself are listed in `reads`; the read that
`TcpConnection::read` starts again afterwards is not the handler's
(`Connection.lean`).
-/

namespace AsyncNFCServer

/-- The handler of a pending read. -/
inductive ReadHandler where
  /-- the lambda of `handleClient` -/
  | client
  /-- the lambda of `handleCli` -/
  | cli
  /-- the lambda of `newUser`, with the captured `name` and `accessLevel` -/
  | uid (name : Str) (accessLevel : UInt8)
  deriving DecidableEq, Repr

/-- How a handler run ended. -/
inductive Outcome where
  | returned
  /-- it called `connection->close()` and returned -/
  | closed
  | threw (e : Exn)
  /-- it executed the command `shutdown`, which stops both servers -/
  | shutdown
  deriving DecidableEq, Repr

/-- The exception that escaped from the handler, if any. -/
def Outcome.thrown : Outcome → Option Exn
  | threw e => some e
  | _ => none

/-- What one run of a handler did. -/
structure HandlerRun where
  store : Store
  replies : List Str
  reads : List ReadHandler
  outcome : Outcome

/-! ## Door clients -/

/-- `':'` -/
def colon : Byte := 58

/-- The package parser of `handleClient`: the door name and the UID.  `find`
gives `npos`, here the length, when there is no colon. -/
def parsePackage (pkg : Str) : Option (Str × Str) :=
  let seperator := pkg.idxOf colon
  if seperator = pkg.length ∨ seperator = 0 ∨ seperator = pkg.length - 1 then none
  else some (pkg.take seperator, pkg.drop (seperator + 1))

/-- `user != usersByUID.end() && user->second.second >= door->second` -/
def authorized (s : Store) (uid : Str) (doorLevel : Int) : Bool :=
  match s.usersByUID uid with
  | none => false
  | some (_, level) => decide (doorLevel ≤ level)

/-- The lookup under the shared lock, and the answer it gives. -/
def lookup (s : Store) (name uid : Str) : Str :=
  match s.doors name with
  | none => ascii "Unknown Door"
  | some level => if authorized s uid level then ascii "Approved" else ascii "Denied"

/-- The lambda of `handleClient`. -/
def handleClient (pkg : Str) (s : Store) : HandlerRun :=
  match parsePackage pkg with
  | none => ⟨s, [ascii "Invalid Client Package Syntax - Connection Closed"], [], .closed⟩
  | some (name, uid) => ⟨s, [lookup s name uid], [.client], .returned⟩

/-! ## CLI sessions -/

/-- A call made by the lambda of `handleCli`, with the reads `started` before
`handleCli(connection)` starts the next one; an exception skips the latter. -/
def Ended.thenHandleCli (e : Ended) (started : List ReadHandler) : HandlerRun :=
  match e.thrown with
  | none => ⟨e.store, e.replies, started ++ [.cli], .returned⟩
  | some exn => ⟨e.store, e.replies, started, .threw exn⟩

/-- `ReaderHandler::newUser`: a reply, or a read for the UID. -/
def newUser (userData : Str) (s : Store) : Ended × List ReadHandler :=
  match newUserSyntax userData with
  | none => (⟨s, [ascii "Failed to add new user - Incorrect CLI syntax"], none⟩, [])
  | some (name, numeral) =>
      match stoul numeral with
      | none => (⟨s, [], some .stoulOutOfRange⟩, [])
      | some n => (⟨s, [], none⟩, [.uid (toSnakeCase name) (toUInt8 n)])

/-- The text of `getLog`: `log` is never assigned, so it is null. -/
def getLog : Str := ascii "null"

/-- The lambda of `handleCli`. -/
def handleCli (renames : Bool) (pkg : Str) (s : Store) : HandlerRun :=
  if (ascii "newDoor").isPrefixOf pkg then
    (newDoor renames pkg s).thenHandleCli []
  else if (ascii "newUser").isPrefixOf pkg then
    (newUser pkg s).1.thenHandleCli (newUser pkg s).2
  else if (ascii "rmUser").isPrefixOf pkg then
    -- `rmDoor` has no branch
    (rmUser renames pkg s).thenHandleCli []
  else if pkg = ascii "getLog" then
    ⟨s, [getLog], [.cli], .returned⟩
  else if pkg = ascii "shutdown" then
    ⟨s, [ascii "Shutting Down..."], [], .shutdown⟩
  else
    ⟨s, [ascii "Unknown Command"], [.cli], .returned⟩

/-- The lambda of `newUser`, which commits the user. -/
def handleUID (renames : Bool) (name : Str) (accessLevel : UInt8) (uid : Str) (s : Store) :
    HandlerRun :=
  let e := (AdminOp.newUser name accessLevel uid).run renames s
  match e.thrown with
  | none => ⟨e.store, e.replies, [], .returned⟩
  | some exn => ⟨e.store, e.replies, [], .threw exn⟩

/-- One run of the handler of a completed read. -/
def ReadHandler.run (renames : Bool) : ReadHandler → Str → Store → HandlerRun
  | client, pkg, s => handleClient pkg s
  | cli, pkg, s => handleCli renames pkg s
  | uid name accessLevel, pkg, s => handleUID renames name accessLevel pkg s

/-! ## The package parser -/

/-- A door name without a colon and a UID are read back from their package. -/
theorem parsePackage_append {name uid : Str} (hname : name ≠ []) (hcolon : colon ∉ name)
    (huid : uid ≠ []) : parsePackage (name ++ colon :: uid) = some (name, uid) := by
  have hidx : (name ++ colon :: uid).idxOf colon = name.length := by
    rw [List.idxOf_append_of_notMem hcolon, List.idxOf_cons_self, Nat.add_zero]
  have hinner : ¬ (name.length = (name ++ colon :: uid).length ∨ name.length = 0 ∨
      name.length = (name ++ colon :: uid).length - 1) := by
    have := List.length_pos_iff.mpr hname
    have := List.length_pos_iff.mpr huid
    simp only [List.length_append, List.length_cons]
    omega
  simp only [parsePackage, hidx, if_neg hinner]
  simp

/-- What a package parses to is what its halves were joined from. -/
theorem eq_of_parsePackage {pkg name uid : Str} (h : parsePackage pkg = some (name, uid)) :
    pkg = name ++ colon :: uid ∧ name ≠ [] ∧ colon ∉ name ∧ uid ≠ [] := by
  simp only [parsePackage, Option.ite_none_left_eq_some, not_or, Option.some.injEq,
    Prod.mk.injEq] at h
  obtain ⟨⟨hnpos, hzero, hlast⟩, rfl, rfl⟩ := h
  have hlt : pkg.idxOf colon < pkg.length :=
    lt_of_le_of_ne List.idxOf_le_length hnpos
  have hsplit : pkg = pkg.take (pkg.idxOf colon) ++ colon :: pkg.drop (pkg.idxOf colon + 1) :=
    calc pkg = pkg.take (pkg.idxOf colon) ++ pkg.drop (pkg.idxOf colon) :=
          (List.take_append_drop _ _).symm
      _ = pkg.take (pkg.idxOf colon) ++ colon :: pkg.drop (pkg.idxOf colon + 1) := by
          rw [List.drop_eq_getElem_cons hlt, List.getElem_idxOf hlt]
  refine ⟨hsplit, ?_, ?_, ?_⟩
  · intro hnil
    have := congrArg List.length hnil
    simp only [List.length_take, List.length_nil] at this
    omega
  · -- a colon in the first half would be found before the first colon
    intro hmem
    have hfirst := congrArg (List.idxOf colon) hsplit
    rw [List.idxOf_append, if_pos hmem] at hfirst
    have := List.idxOf_lt_length_of_mem hmem
    rw [List.length_take] at this
    omega
  · intro hnil
    have := congrArg List.length hnil
    simp only [List.length_drop, List.length_nil] at this
    omega

/-! ## What a handler run does to the store -/

/-- The operation on the store that a handler run performs on its line, if any. -/
def ReadHandler.adminOp : ReadHandler → Str → Option AdminOp
  | client, _ => none
  | uid name accessLevel, pkg => some (.newUser name accessLevel pkg)
  | cli, pkg =>
      match newDoorSyntax pkg with
      | some (name, numeral) =>
          (stoul numeral).map fun n => .newDoor (toSnakeCase name) (toUInt8 n)
      | none => (rmUserSyntax pkg).map fun name => .rmUser (toSnakeCase name)

/-- The prefix a line starts with decides which syntaxes it can match. -/
theorem isPrefixOf_of_addSyntax {command line : Str} {fields : Str × Str}
    (h : addSyntax command line = some fields) : command.isPrefixOf line = true := by
  obtain ⟨gap, gap', rfl, -⟩ := addSyntax_eq_some_iff.mp (show _ = some (fields.1, fields.2) from h)
  simp [List.append_assoc]

theorem isPrefixOf_of_removeSyntax {command line name : Str}
    (h : removeSyntax command line = some name) : command.isPrefixOf line = true := by
  obtain ⟨gap, rfl, -⟩ := removeSyntax_eq_some_iff.mp h
  simp [List.append_assoc]

theorem addSyntax_eq_none {command line : Str} (h : command.isPrefixOf line = false) :
    addSyntax command line = none := by
  simp [addSyntax, afterCommand, h]

theorem removeSyntax_eq_none {command line : Str} (h : command.isPrefixOf line = false) :
    removeSyntax command line = none := by
  simp [removeSyntax, afterCommand, h]

/-- A line does not start with two words neither of which starts the other. -/
theorem isPrefixOf_eq_false {a b line : Str} (hab : ¬ a <+: b) (hba : ¬ b <+: a)
    (ha : a.isPrefixOf line = true) : b.isPrefixOf line = false := by
  by_contra hb
  rw [Bool.not_eq_false, List.isPrefixOf_iff_prefix] at hb
  rw [List.isPrefixOf_iff_prefix] at ha
  rcases List.prefix_or_prefix_of_prefix ha hb with h | h
  · exact hab h
  · exact hba h

theorem thenHandleCli_store (e : Ended) (started : List ReadHandler) :
    (e.thenHandleCli started).store = e.store := by
  unfold Ended.thenHandleCli
  split <;> rfl

theorem thenHandleCli_thrown (e : Ended) (started : List ReadHandler) :
    (e.thenHandleCli started).outcome.thrown = e.thrown := by
  unfold Ended.thenHandleCli
  cases he : e.thrown with
  | none => rfl
  | some exn => rfl

theorem newUser_store (userData : Str) (s : Store) : (newUser userData s).1.store = s := by
  unfold newUser
  split
  · rfl
  · split <;> rfl

theorem newDoor_store (renames : Bool) (pkg : Str) (s : Store) :
    (newDoor renames pkg s).store =
      match newDoorSyntax pkg with
      | some (name, numeral) =>
          match stoul numeral with
          | some n => ((AdminOp.newDoor (toSnakeCase name) (toUInt8 n)).run renames s).store
          | none => s
      | none => s := by
  unfold newDoor
  rcases newDoorSyntax pkg with _ | ⟨name, numeral⟩
  · rfl
  · rcases hn : stoul numeral with _ | n <;> simp [hn]

theorem rmUser_store (renames : Bool) (pkg : Str) (s : Store) :
    (rmUser renames pkg s).store =
      match rmUserSyntax pkg with
      | some name => ((AdminOp.rmUser (toSnakeCase name)).run renames s).store
      | none => s := by
  unfold rmUser
  rcases rmUserSyntax pkg with _ | name <;> rfl

/-- A command line that has an operation is dispatched to it. -/
theorem handleCli_of_adminOp {pkg : Str} {op : AdminOp}
    (h : ReadHandler.cli.adminOp pkg = some op) (renames : Bool) (s : Store) :
    handleCli renames pkg s = (op.run renames s).thenHandleCli [] := by
  simp only [ReadHandler.adminOp] at h
  cases hdoor : newDoorSyntax pkg with
  | some fields =>
      obtain ⟨name, numeral⟩ := fields
      simp only [hdoor, Option.map_eq_some_iff] at h
      obtain ⟨n, hn, rfl⟩ := h
      simp only [handleCli, isPrefixOf_of_addSyntax hdoor, if_true, newDoor, hdoor, hn]
  | none =>
      simp only [hdoor, Option.map_eq_some_iff] at h
      obtain ⟨name, hname, rfl⟩ := h
      have hrm := isPrefixOf_of_removeSyntax hname
      have hnewDoor := isPrefixOf_eq_false (a := ascii "rmUser") (b := ascii "newDoor")
        (by decide) (by decide) hrm
      have hnewUser := isPrefixOf_eq_false (a := ascii "rmUser") (b := ascii "newUser")
        (by decide) (by decide) hrm
      simp only [handleCli, hnewDoor, hnewUser, hrm, Bool.false_eq_true, if_false, if_true, rmUser,
        hname]

/-- A command line that has no operation leaves the store alone. -/
theorem handleCli_store_of_none {pkg : Str} (h : ReadHandler.cli.adminOp pkg = none)
    (renames : Bool) (s : Store) : (handleCli renames pkg s).store = s := by
  simp only [ReadHandler.adminOp] at h
  unfold handleCli
  split_ifs with hdoor huser hrm hlog hshut
  · rw [thenHandleCli_store, newDoor_store]
    rcases hfields : newDoorSyntax pkg with _ | ⟨name, numeral⟩
    · rfl
    · simp only [hfields, Option.map_eq_none_iff] at h
      simp only [h]
  · rw [thenHandleCli_store, newUser_store]
  · -- a line that starts with `rmUser` does not match the syntax of `newDoor`
    have hdoorSyntax : newDoorSyntax pkg = none := by
      by_contra hne
      obtain ⟨fields, hfields⟩ := Option.ne_none_iff_exists'.mp hne
      exact hdoor (isPrefixOf_of_addSyntax hfields)
    simp only [hdoorSyntax, Option.map_eq_none_iff] at h
    rw [thenHandleCli_store, rmUser_store, h]
  · rfl
  · rfl
  · rfl

/-- A handler run changes the store by the operation on its line and in no
other way. -/
theorem ReadHandler.run_store (renames : Bool) (h : ReadHandler) (pkg : Str) (s : Store) :
    (h.run renames pkg s).store =
      match h.adminOp pkg with
      | some op => (op.run renames s).store
      | none => s := by
  cases h with
  | client =>
      simp only [run, adminOp, handleClient]
      split <;> rfl
  | uid name accessLevel =>
      simp only [run, adminOp, handleUID]
      split <;> rfl
  | cli =>
      cases hop : cli.adminOp pkg with
      | some op => rw [run, handleCli_of_adminOp hop, thenHandleCli_store]
      | none => exact handleCli_store_of_none hop renames s

/-! ## What a handler run does when its line has an operation -/

/-- A handler run whose line has an operation leaves the store, the replies and
the exception of the operation. -/
theorem ReadHandler.run_of_adminOp {handler : ReadHandler} {pkg : Str} {op : AdminOp}
    (h : handler.adminOp pkg = some op) (renames : Bool) (s : Store) :
    (handler.run renames pkg s).replies = (op.run renames s).replies ∧
      (handler.run renames pkg s).outcome.thrown = (op.run renames s).thrown ∧
      (handler.run renames pkg s).outcome ≠ .shutdown := by
  cases handler with
  | client => exact absurd h (by simp [adminOp])
  | cli =>
      rw [run, handleCli_of_adminOp h, Ended.thenHandleCli]
      split <;> simp_all [Outcome.thrown]
  | uid name accessLevel =>
      obtain rfl := Option.some.inj h
      simp only [run, handleUID]
      split <;> simp_all [Outcome.thrown]

end AsyncNFCServer
