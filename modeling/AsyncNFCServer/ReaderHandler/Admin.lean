import AsyncNFCServer.ReaderHandler.Store
import AsyncNFCServer.ReaderHandler.Syntax

/-!
# The administrative operations

`newDoor`, the UID handler of `newUser`, `rmDoor` and `rmUser` read config.json,
update the maps, edit the document and write it back through
`config_tmp.json`.  The additions and the removals differ only in the list, the
entry and the maps concerned, so each kind is one definition (`addEntry`,
`removeEntry`) that the four operations instantiate.

An operation that throws keeps what it had already done to the maps: the
exception and the store it leaves are both part of `Ended`.  File writes
succeed, except that the rename fails when `renames` is false.
-/

namespace AsyncNFCServer

/-- What a call leaves behind: the store, the lines given to
`connection->write`, and the exception it ended by, if any. -/
structure Ended where
  store : Store
  replies : List Str
  thrown : Option Exn

/-- The `try` block that reads config.json; only `parse_error` is caught. -/
def readConfig : Content → Except Exn Json
  | .missing | .empty | .malformed => .ok emptyConfig
  | .outOfRange => .error .jsonOutOfRange
  | .doc configJson => .ok configJson

/-- The write-back and the answer, common to the four operations.  The text is
dumped before anything reaches `config_tmp.json`. -/
def writeBack (renames : Bool) (configJson : Json) (answer : Str) (s : Store) : Ended :=
  if configJson.dumps then
    if renames then ⟨{ s with config := .doc configJson }, [answer], none⟩
    else ⟨s, [], some .filesystemError⟩
  else ⟨s, [], some .typeError⟩

/-- An addition: create the list if it is missing, `enter` the maps, append
`entry` to the list and write back. -/
def addEntry (renames : Bool) (list : Str) (entry : Json) (answer : Str)
    (enter : Store → Store) (s : Store) : Ended :=
  match readConfig s.config >>= Json.ensureArray list with
  | .error e => ⟨s, [], some e⟩
  | .ok configJson =>
      match configJson.pushBackAt list entry with
      | .error e => ⟨enter s, [], some e⟩
      | .ok configJson => writeBack renames configJson answer (enter s)

/-- A removal: `forget` the name in the maps, or return without an answer when
they do not have it; erase its first entry from the list and write back. -/
def removeEntry (renames : Bool) (list name answer : Str) (forget : Store → Option Store)
    (s : Store) : Ended :=
  match forget s with
  | none => ⟨s, [], none⟩
  | some s =>
      -- from here on the maps have forgotten the name, whatever happens
      match readConfig s.config >>= Json.eraseNamedAt list name with
      | .error e => ⟨s, [], some e⟩
      | .ok configJson => writeBack renames configJson answer s

/-! ## The four operations on the maps -/

/-- `doors[name] = accessLevel` -/
def enterDoor (name : Str) (accessLevel : UInt8) (s : Store) : Store :=
  { s with doors := s.doors.insert name accessLevel.toNat }

/-- `usersByName[name] = {uid, accessLevel}; usersByUID[uid] = {name, accessLevel}` -/
def enterUser (name : Str) (accessLevel : UInt8) (uid : Str) (s : Store) : Store :=
  { s with
    usersByName := s.usersByName.insert name (uid, accessLevel.toNat)
    usersByUID := s.usersByUID.insert uid (name, accessLevel.toNat) }

/-- `if (doors.erase(name) == 0) return` -/
def forgetDoor (name : Str) (s : Store) : Option Store :=
  match s.doors name with
  | none => none
  | some _ => some { s with doors := s.doors.erase name }

/-- `auto it = usersByName.find(name)`, then both indexes are erased, the second
by the UID found in the first. -/
def forgetUser (name : Str) (s : Store) : Option Store :=
  match s.usersByName name with
  | none => none
  | some (uid, _) =>
      some { s with
        usersByUID := s.usersByUID.erase uid
        usersByName := s.usersByName.erase name }

/-- `{{"name", name}, {"accessLevel", accessLevel}}` -/
def doorEntry (name : Str) (accessLevel : UInt8) : Json :=
  .object [(ascii "accessLevel", .numberUnsigned accessLevel.toNat), (ascii "name", .string name)]

/-- `{{"name", name}, {"uid", uid}, {"accessLevel", accessLevel}}` -/
def userEntry (name : Str) (accessLevel : UInt8) (uid : Str) : Json :=
  .object [(ascii "accessLevel", .numberUnsigned accessLevel.toNat), (ascii "name", .string name),
    (ascii "uid", .string uid)]

/-- An operation once its line is parsed, as it runs under `rw_mtx`. -/
inductive AdminOp where
  | newDoor (name : Str) (accessLevel : UInt8)
  | newUser (name : Str) (accessLevel : UInt8) (uid : Str)
  | rmDoor (name : Str)
  | rmUser (name : Str)
  deriving DecidableEq, Repr

/-- The part of the operation that holds the lock. -/
def AdminOp.run (renames : Bool) : AdminOp → Store → Ended
  | newDoor name accessLevel =>
      addEntry renames (ascii "doors") (doorEntry name accessLevel)
        (ascii "Door Added Successfully") (enterDoor name accessLevel)
  | newUser name accessLevel uid =>
      addEntry renames (ascii "users") (userEntry name accessLevel uid)
        (ascii "User Added Successfully") (enterUser name accessLevel uid)
  | rmDoor name =>
      removeEntry renames (ascii "doors") name (ascii "Door Removed Successfully")
        (forgetDoor name)
  | rmUser name =>
      removeEntry renames (ascii "users") name (ascii "User Removed Successfully")
        (forgetUser name)

/-! ## The operations on command lines -/

/-- `ReaderHandler::newDoor`. -/
def newDoor (renames : Bool) (doorData : Str) (s : Store) : Ended :=
  match newDoorSyntax doorData with
  | none => ⟨s, [ascii "Failed to add new door - Incorrect CLI syntax"], none⟩
  | some (name, numeral) =>
      match stoul numeral with
      | none => ⟨s, [], some .stoulOutOfRange⟩
      | some n => (AdminOp.newDoor (toSnakeCase name) (toUInt8 n)).run renames s

/-- `ReaderHandler::rmDoor`. -/
def rmDoor (renames : Bool) (doorData : Str) (s : Store) : Ended :=
  match rmDoorSyntax doorData with
  | none => ⟨s, [ascii "Failed to remove door - Incorrect CLI syntax"], none⟩
  | some name => (AdminOp.rmDoor (toSnakeCase name)).run renames s

/-- `ReaderHandler::rmUser`. -/
def rmUser (renames : Bool) (userdata : Str) (s : Store) : Ended :=
  match rmUserSyntax userdata with
  | none => ⟨s, [ascii "Failed to remove user - Incorrect CLI syntax"], none⟩
  | some name => (AdminOp.rmUser (toSnakeCase name)).run renames s

/-! ## What an operation can do -/

/-- The write-back fails and leaves the store, or replaces the file and answers. -/
theorem writeBack_cases (renames : Bool) (configJson : Json) (answer : Str) (s : Store) :
    (∃ e, writeBack renames configJson answer s = ⟨s, [], some e⟩) ∨
      (renames = true ∧ configJson.dumps = true ∧
        writeBack renames configJson answer s =
          ⟨{ s with config := .doc configJson }, [answer], none⟩) := by
  unfold writeBack
  split_ifs with hdumps hrenames
  · exact Or.inr ⟨hrenames, hdumps, rfl⟩
  · exact Or.inl ⟨_, rfl⟩
  · exact Or.inl ⟨_, rfl⟩

/-- An addition fails before the maps are entered, fails after that, or
completes. -/
theorem addEntry_cases (renames : Bool) (list : Str) (entry : Json) (answer : Str)
    (enter : Store → Store) (s : Store) :
    (∃ e, (readConfig s.config >>= Json.ensureArray list) = .error e ∧
        addEntry renames list entry answer enter s = ⟨s, [], some e⟩) ∨
      (∃ configJson, (readConfig s.config >>= Json.ensureArray list) = .ok configJson ∧
        ((∃ e, addEntry renames list entry answer enter s = ⟨enter s, [], some e⟩) ∨
          ∃ edited, renames = true ∧ configJson.pushBackAt list entry = .ok edited ∧
            edited.dumps = true ∧
            addEntry renames list entry answer enter s =
              ⟨{ enter s with config := .doc edited }, [answer], none⟩)) := by
  cases hread : (readConfig s.config >>= Json.ensureArray list) with
  | error e => exact Or.inl ⟨e, rfl, by simp only [addEntry, hread]⟩
  | ok configJson =>
      refine Or.inr ⟨configJson, rfl, ?_⟩
      cases hpush : configJson.pushBackAt list entry with
      | error e => exact Or.inl ⟨e, by simp only [addEntry, hread, hpush]⟩
      | ok edited =>
          simp only [addEntry, hread, hpush]
          rcases writeBack_cases renames edited answer (enter s) with ⟨e, he⟩ | ⟨hr, hd, heq⟩
          · exact Or.inl ⟨e, he⟩
          · exact Or.inr ⟨edited, hr, rfl, hd, heq⟩

/-- A removal does nothing to an unknown name, fails after the maps have
forgotten it, or completes. -/
theorem removeEntry_cases (renames : Bool) (list name answer : Str)
    (forget : Store → Option Store) (s : Store) :
    (forget s = none ∧ removeEntry renames list name answer forget s = ⟨s, [], none⟩) ∨
      (∃ s', forget s = some s' ∧
        ((∃ e, removeEntry renames list name answer forget s = ⟨s', [], some e⟩) ∨
          ∃ edited, renames = true ∧
            (readConfig s'.config >>= Json.eraseNamedAt list name) = .ok edited ∧
            edited.dumps = true ∧
            removeEntry renames list name answer forget s =
              ⟨{ s' with config := .doc edited }, [answer], none⟩)) := by
  cases hforget : forget s with
  | none => exact Or.inl ⟨rfl, by simp only [removeEntry, hforget]⟩
  | some s' =>
      refine Or.inr ⟨s', rfl, ?_⟩
      cases hread : (readConfig s'.config >>= Json.eraseNamedAt list name) with
      | error e => exact Or.inl ⟨e, by simp only [removeEntry, hforget, hread]⟩
      | ok edited =>
          simp only [removeEntry, hforget, hread]
          rcases writeBack_cases renames edited answer s' with ⟨e, he⟩ | ⟨hr, hd, heq⟩
          · exact Or.inl ⟨e, he⟩
          · exact Or.inr ⟨edited, hr, rfl, hd, heq⟩

/-! ## What an operation does to the maps -/

/-- config.json can be read and has, or can be given, the list `list`: an
addition to the list gets as far as the maps. -/
def Store.listReadable (list : Str) (s : Store) : Bool :=
  (readConfig s.config >>= Json.ensureArray list).isOk

/-- The store with the maps as the operation leaves them, whether it completes
or not. -/
def AdminOp.mapped (s : Store) : AdminOp → Store
  | newDoor name accessLevel =>
      if s.listReadable (ascii "doors") then enterDoor name accessLevel s else s
  | newUser name accessLevel uid =>
      if s.listReadable (ascii "users") then enterUser name accessLevel uid s else s
  | rmDoor name => (forgetDoor name s).getD s
  | rmUser name => (forgetUser name s).getD s

theorem addEntry_mapped (renames : Bool) (list : Str) (entry : Json) (answer : Str)
    (enter : Store → Store) (s : Store) :
    ∃ config, (addEntry renames list entry answer enter s).store =
      { (if s.listReadable list then enter s else s) with config := config } := by
  unfold Store.listReadable
  rcases addEntry_cases renames list entry answer enter s with
    ⟨e, hread, heq⟩ | ⟨configJson, hread, ⟨e, heq⟩ | ⟨edited, -, -, -, heq⟩⟩
  · exact ⟨s.config, by rw [heq, hread]; rfl⟩
  · exact ⟨(enter s).config, by rw [heq, hread]; rfl⟩
  · exact ⟨.doc edited, by rw [heq, hread]; rfl⟩

theorem removeEntry_mapped (renames : Bool) (list name answer : Str)
    (forget : Store → Option Store) (s : Store) :
    ∃ config, (removeEntry renames list name answer forget s).store =
      { (forget s).getD s with config := config } := by
  rcases removeEntry_cases renames list name answer forget s with
    ⟨hforget, heq⟩ | ⟨s', hforget, ⟨e, heq⟩ | ⟨edited, -, -, -, heq⟩⟩
  · exact ⟨s.config, by rw [heq, hforget]; rfl⟩
  · exact ⟨s'.config, by rw [heq, hforget]; rfl⟩
  · exact ⟨.doc edited, by rw [heq, hforget]; rfl⟩

/-- Whether an operation completes or not, only the file depends on it. -/
theorem AdminOp.run_mapped (renames : Bool) (op : AdminOp) (s : Store) :
    ∃ config, (op.run renames s).store = { op.mapped s with config := config } := by
  cases op with
  | newDoor name accessLevel => exact addEntry_mapped ..
  | newUser name accessLevel uid => exact addEntry_mapped ..
  | rmDoor name => exact removeEntry_mapped ..
  | rmUser name => exact removeEntry_mapped ..

/-- A door is left alone but by the operations that enter or remove it. -/
theorem AdminOp.doors_run_cases (renames : Bool) (op : AdminOp) (s : Store) (key : Str) :
    (op.run renames s).store.doors key = s.doors key ∨
      (∃ accessLevel, op = .newDoor key accessLevel ∧
        (op.run renames s).store.doors key ≠ none) ∨
      op = .rmDoor key ∧ (op.run renames s).store.doors key = none := by
  obtain ⟨config, heq⟩ := op.run_mapped renames s
  rw [heq]
  cases op with
  | newDoor name accessLevel =>
      simp only [mapped]
      split_ifs
      · by_cases hkey : key = name
        · subst hkey
          exact Or.inr (Or.inl ⟨accessLevel, rfl, by simp [enterDoor]⟩)
        · exact Or.inl (Table.insert_of_ne _ _ hkey)
      · exact Or.inl rfl
  | newUser name accessLevel uid =>
      simp only [mapped]
      split_ifs
      · exact Or.inl rfl
      · exact Or.inl rfl
  | rmDoor name =>
      simp only [mapped, forgetDoor]
      cases hdoor : s.doors name with
      | none => exact Or.inl rfl
      | some level =>
          by_cases hkey : key = name
          · subst hkey
            exact Or.inr (Or.inr ⟨rfl, Table.erase_self _ _⟩)
          · exact Or.inl (by simp [Table.erase_apply, hkey])
  | rmUser name =>
      simp only [mapped, forgetUser]
      cases s.usersByName name with
      | none => exact Or.inl rfl
      | some user => exact Or.inl rfl

end AsyncNFCServer
