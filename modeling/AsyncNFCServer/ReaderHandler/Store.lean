import AsyncNFCServer.Json
import AsyncNFCServer.Lib.Tables
import Mathlib.Algebra.Ring.Nat

/-!
# The store: three maps and config.json

`ReaderHandler` keeps the doors and two indexes of the users in memory and the
same data in `config.json`.  `startup` is the constructor up to the start of
the servers: it reads the file, replaces one that cannot be used, and fills the
maps.
-/

namespace AsyncNFCServer

/-- A file, up to what reading it with `in >> configJson` gives. -/
inductive Content where
  /-- the file cannot be opened -/
  | missing
  /-- no byte in it -/
  | empty
  /-- `parse_error` -/
  | malformed
  /-- `out_of_range`: a number that overflows a double -/
  | outOfRange
  | doc (j : Json)

/-- The maps of `ReaderHandler` and the file they are saved in. -/
structure Store where
  doors : Table Str Int
  usersByName : Table Str (Str × Int)
  usersByUID : Table Str (Str × Int)
  config : Content

/-- `{{"users", json::array()}, {"doors", json::array()}}`. -/
def emptyConfig : Json :=
  .object [(ascii "doors", .array []), (ascii "users", .array [])]

/-- Conversion of a JSON integer to `int`, modulo `2 ^ 32`. -/
def toInt (i : Int) : Int := i.bmod (2 ^ 32)

/-! ## Loading -/

/-- The fields of a door entry, if it passes the checks of the load. -/
def doorFields (door : Json) : Option (Str × Int) := do
  let name ← (← door.member? (ascii "name")).string?
  let accessLevel ← (← door.member? (ascii "accessLevel")).integer?
  return (name, toInt accessLevel)

/-- The fields of a user entry, if it passes the checks of the load. -/
def userFields (user : Json) : Option (Str × Str × Int) := do
  let name ← (← user.member? (ascii "name")).string?
  let uid ← (← user.member? (ascii "uid")).string?
  let accessLevel ← (← user.member? (ascii "accessLevel")).integer?
  return (name, uid, toInt accessLevel)

/-- The entries of the list `key`, in the order the load visits them. -/
def Json.entries (key : Str) (configJson : Json) : List Json :=
  ((configJson.member? key).map Json.items).getD []

/-- `for (const auto& door : configJson["doors"])` -/
def loadDoors (configJson : Json) : Table Str Int :=
  (configJson.entries (ascii "doors")).foldl
    (fun doors door =>
      match doorFields door with
      | some (name, accessLevel) => doors.insert name accessLevel
      | none => doors)
    Table.empty

/-- `for (const auto& user : configJson["users"])` -/
def loadUsers (configJson : Json) : Table Str (Str × Int) × Table Str (Str × Int) :=
  (configJson.entries (ascii "users")).foldl
    (fun users user =>
      match userFields user with
      | some (name, uid, accessLevel) =>
          (users.1.insert name (uid, accessLevel), users.2.insert uid (name, accessLevel))
      | none => users)
    (Table.empty, Table.empty)

/-- The maps loaded from `configJson`, over the file `config`. -/
def load (configJson : Json) (config : Content) : Store where
  doors := loadDoors configJson
  usersByName := (loadUsers configJson).1
  usersByUID := (loadUsers configJson).2
  config := config

/-- The constructor of `ReaderHandler`, before the servers start.  A missing or
empty file leaves `configJson` null; only `parse_error` is caught. -/
def startup : Content → Except Exn Store
  -- the file is created, but `configJson` stays null
  | .missing | .empty => .ok (load .null (.doc emptyConfig))
  | .malformed => .ok (load emptyConfig (.doc emptyConfig))
  | .outOfRange => .error .jsonOutOfRange
  | .doc configJson => .ok (load configJson (.doc configJson))

/-! ## The loaded maps as tables over the entries -/

/-- The well-formed door entries, in order. -/
def doorEntries (configJson : Json) : List (Str × Int) :=
  (configJson.entries (ascii "doors")).filterMap doorFields

/-- The well-formed user entries, in order. -/
def userEntries (configJson : Json) : List (Str × Str × Int) :=
  (configJson.entries (ascii "users")).filterMap userFields

theorem loadDoors_eq_tabulate (configJson : Json) :
    loadDoors configJson =
      Table.tabulate Prod.fst Prod.snd (doorEntries configJson) := by
  unfold loadDoors doorEntries Table.tabulate
  rw [List.foldl_filterMap]
  congr 1
  funext doors door
  cases doorFields door with
  | none => rfl
  | some fields => rfl

theorem loadUsers_eq_tabulate (configJson : Json) :
    loadUsers configJson =
      (Table.byFst (userEntries configJson), Table.bySnd (userEntries configJson)) := by
  unfold loadUsers userEntries
  generalize configJson.entries (ascii "users") = users
  induction users using List.reverseRecOn with
  | nil => rfl
  | append_singleton users user ih =>
      rw [List.foldl_append, ih, List.filterMap_append]
      cases huser : userFields user with
      | none => simp [huser]
      | some fields => simp [huser]

end AsyncNFCServer
