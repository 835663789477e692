import AsyncNFCServer.ReaderHandler.Commands
import AsyncNFCServer.ReaderHandler.Saving
import AsyncNFCServer.ReaderHandler.Revocation

/-!
# Access levels

An access level is written as a numeral of any length.  `stoul` makes an
`unsigned long` of it, which the assignment to a `uint8_t` reduces modulo 256;
a level of config.json goes to an `int`, modulo `2 ^ 32`.  The comparison in
`handleClient` is between what is left.

So a door and a card agree with the numbers the administrator wrote exactly when
the reductions keep the order of the two numbers (`levels_iff`), or when a
command is refused.
-/

namespace AsyncNFCServer

/-! ## The levels of commands -/

/-- The handler ended by an exception and left the store. -/
def HandlerRun.Refused (run : HandlerRun) (s : Store) : Prop :=
  run.outcome.thrown ≠ none ∧ run.store = s

/-- The run of the UID handler that a run of `newUser` has started. -/
def HandlerRun.uidRun (run : HandlerRun) (renames : Bool) (uid : Str) : Option HandlerRun :=
  match run.reads with
  | .uid name accessLevel :: _ => some (handleUID renames name accessLevel uid run.store)
  | _ => none

/-- After a `newDoor` line with the number `a` and a `newUser` line with the
number `b` followed by a UID line, the package `pkg` is approved if and only if
`b ≥ a`, unless one of the three lines was refused. -/
def LevelsMeant (renames renames' : Bool) (doorLine userLine uid pkg : Str) (a b : Nat)
    (s : Store) : Prop :=
  let door := handleCli renames doorLine s
  let user := handleCli renames userLine door.store
  door.Refused s ∨ user.Refused door.store ∨
    ∀ last, user.uidRun renames' uid = some last →
      last.Refused user.store ∨
        ((handleClient pkg last.store).replies = [ascii "Approved"] ↔ b ≥ a)

/-- The addition does not get into config.json. -/
def Store.Unsaved (renames : Bool) (list : Str) (entry : Json) (s : Store) : Prop :=
  ¬ (renames = true ∧ s.takes list entry = true)

/-- When the levels mean the numbers: a numeral is out of the range of `stoul`,
config.json has no list for the entries, an addition that is not saved had
nothing to change, or the reductions modulo 256 keep the order. -/
def LevelsFit (renames renames' : Bool) (door name uid : Str) (a b : Nat) (s : Store) : Prop :=
  ulongMax < a ∨ ulongMax < b ∨ s.listReadable (ascii "doors") = false ∨
    (s.Unsaved renames (ascii "doors") (doorEntry door (toUInt8 a)) ∧
      s.doors door = some ((a % 256 : Nat) : Int)) ∨
    (s.Unsaved renames' (ascii "users") (userEntry name (toUInt8 b) uid) ∧
      s.usersByName name = some (uid, ((b % 256 : Nat) : Int)) ∧
      s.usersByUID uid = some (name, ((b % 256 : Nat) : Int))) ∨
    (b % 256 ≥ a % 256 ↔ b ≥ a)

instance (renames renames' : Bool) (door name uid : Str) (a b : Nat) (s : Store) :
    Decidable (LevelsFit renames renames' door name uid a b s) := by
  unfold LevelsFit Store.Unsaved
  infer_instance

theorem toNat_toUInt8 (n : Nat) : (toUInt8 n).toNat = n % 256 := by
  simp [toUInt8]

theorem stoul_eq_some {numeral : Str} (h : ¬ ulongMax < decimal numeral) :
    stoul numeral = some (decimal numeral) := by
  simp [stoul, Nat.not_lt.mp h]

/-! ### The three runs -/

theorem thenHandleCli_refused_iff (e : Ended) (started : List ReadHandler) (s : Store) :
    (e.thenHandleCli started).Refused s ↔ e.thrown ≠ none ∧ e.store = s := by
  unfold Ended.thenHandleCli HandlerRun.Refused
  cases he : e.thrown with
  | none => simp [Outcome.thrown]
  | some exn => simp [Outcome.thrown]

/-- An addition is refused if the list is not readable, or if it is not saved and
had nothing to change. -/
theorem Addition.refused_iff {renames : Bool} {list : Str} {entry : Json} {answer : Str}
    {enter : Store → Store} {s : Store} {e : Ended}
    (h : Addition renames list entry answer enter s e) :
    (e.thrown ≠ none ∧ e.store = s) ↔ s.listReadable list = false ∨
      (s.listReadable list = true ∧ s.Unsaved renames list entry ∧ enter s = s) := by
  cases h with
  | unread e readable => simp [readable]
  | unsaved e readable fails => simp [readable, Store.Unsaved, fails]
  | saved edited readable renamed takes edits text =>
      simp [readable, Store.Unsaved, renamed, takes]

theorem handleCli_newDoor {doorLine name numeral : Str}
    (h : newDoorSyntax doorLine = some (name, numeral)) (renames : Bool) (s : Store) :
    handleCli renames doorLine s = (newDoor renames doorLine s).thenHandleCli [] := by
  rw [handleCli_eq_dispatch, dispatch_newDoor.mpr (isPrefixOf_of_addSyntax h)]

theorem handleCli_newUser {userLine name numeral : Str}
    (h : newUserSyntax userLine = some (name, numeral)) (renames : Bool) (s : Store) :
    handleCli renames userLine s =
      (newUser userLine s).1.thenHandleCli (newUser userLine s).2 := by
  rw [handleCli_eq_dispatch, dispatch_newUser.mpr (isPrefixOf_of_addSyntax h)]

/-! ### What an addition leaves behind -/

/-- Whether a list is readable does not depend on the list. -/
theorem Store.listReadable_congr (list other : Str) (s : Store) :
    s.listReadable list = s.listReadable other := by
  cases hread : readConfig s.config with
  | error e =>
      rw [Store.listReadable, Store.listReadable, hread]
      rfl
  | ok configJson => rw [s.listReadable_eq hread, s.listReadable_eq hread]

theorem Store.listReadable_of_config {s t : Store} (h : t.config = s.config) (list : Str) :
    t.listReadable list = s.listReadable list := by
  rw [Store.listReadable, Store.listReadable, h]

theorem Store.takes_of_config {s t : Store} (h : t.config = s.config) (list : Str) (entry : Json) :
    t.takes list entry = s.takes list entry := by
  rw [Store.takes, Store.takes, h]

/-- An edit of one list that is saved leaves it to the other list what it can
take. -/
theorem Store.takes_of_edits {s t : Store} {list : Str} {change : List Json → List Json}
    {edited entry : Json} (hedits : s.Edits list change edited) (htext : edited.dumps = true)
    (htakes : s.takes list entry = true) (ht : t.config = .doc edited) {other : Str}
    (hother : other ≠ list) (entry' : Json) :
    t.takes other entry' = s.takes other entry' := by
  obtain ⟨configJson, hread, hedited⟩ := hedits
  have hread' : readConfig t.config = .ok edited := by rw [ht]; rfl
  have hlisted : edited.takes other = configJson.takes other := by
    rw [Json.takes, Json.takes, hedited.other other hother]
  rw [s.takes_eq hread] at htakes ⊢
  simp only [Bool.and_eq_true] at htakes
  rw [t.takes_eq hread', hlisted, htext, hedited.rooted htakes.1.1.1, htakes.1.1.1, htakes.1.2]

/-- After a `newDoor` that was not refused, the door has the level and the users
are as before. -/
theorem newDoor_not_refused {renames : Bool} {door : Str} {accessLevel : UInt8} {s : Store}
    {e : Ended} (h : Addition renames (ascii "doors") (doorEntry door accessLevel)
      (ascii "Door Added Successfully") (enterDoor door accessLevel) s e)
    (hnot : ¬ (e.thrown ≠ none ∧ e.store = s)) :
    e.store.doors door = some (accessLevel.toNat : Int) ∧
      e.store.usersByName = s.usersByName ∧ e.store.usersByUID = s.usersByUID ∧
      e.store.listReadable (ascii "users") = true ∧
      ∀ entry, e.store.takes (ascii "users") entry = s.takes (ascii "users") entry := by
  cases h with
  | unread e readable => exact absurd ⟨by simp, rfl⟩ hnot
  | unsaved e readable fails =>
      refine ⟨Table.insert_self _ _ _, rfl, rfl, ?_, fun entry => Store.takes_of_config rfl ..⟩
      rw [s.listReadable_congr _ (ascii "users")] at readable
      rw [← readable]
      exact Store.listReadable_of_config rfl _
  | saved edited readable renamed takes edits text =>
      refine ⟨Table.insert_self _ _ _, rfl, rfl, ?_, ?_⟩
      · obtain ⟨configJson, hread, hedited⟩ := edits
        rw [s.listReadable_eq hread] at readable
        refine (Store.listReadable_eq ?_).trans (hedited.rooted readable)
        rfl
      · intro entry
        exact s.takes_of_edits edits text takes rfl (by decide) entry

/-- After a UID line that was not refused, the card has the level and the doors
are as before. -/
theorem newUser_not_refused {renames : Bool} {name uid : Str} {accessLevel : UInt8} {s : Store}
    {e : Ended} (h : Addition renames (ascii "users") (userEntry name accessLevel uid)
      (ascii "User Added Successfully") (enterUser name accessLevel uid) s e)
    (hnot : ¬ (e.thrown ≠ none ∧ e.store = s)) :
    e.store.doors = s.doors ∧
      e.store.usersByUID uid = some (name, (accessLevel.toNat : Int)) := by
  cases h with
  | unread e readable => exact absurd ⟨by simp, rfl⟩ hnot
  | unsaved e readable fails => exact ⟨rfl, Table.insert_self _ _ _⟩
  | saved edited readable renamed takes edits text => exact ⟨rfl, Table.insert_self _ _ _⟩

theorem approved_iff_le {pkg door uid : Str} (hpkg : parsePackage pkg = some (door, uid))
    {s : Store} {level : Int} {user : Str × Int} (hdoor : s.doors door = some level)
    (huser : s.usersByUID uid = some user) :
    (handleClient pkg s).replies = [ascii "Approved"] ↔ level ≤ user.2 := by
  rw [handleClient_approved_iff hpkg]
  simp [hdoor, huser]

theorem handleUID_refused_iff (renames : Bool) (name : Str) (accessLevel : UInt8) (uid : Str)
    (s t : Store) : (handleUID renames name accessLevel uid s).Refused t ↔
      ((AdminOp.newUser name accessLevel uid).run renames s).thrown ≠ none ∧
        ((AdminOp.newUser name accessLevel uid).run renames s).store = t := by
  simp only [handleUID, HandlerRun.Refused]
  cases ((AdminOp.newUser name accessLevel uid).run renames s).thrown with
  | none => simp [Outcome.thrown]
  | some exn => simp [Outcome.thrown]

theorem handleUID_store (renames : Bool) (name : Str) (accessLevel : UInt8) (uid : Str)
    (s : Store) : (handleUID renames name accessLevel uid s).store =
      ((AdminOp.newUser name accessLevel uid).run renames s).store :=
  ReadHandler.run_store renames (.uid name accessLevel) uid s

section InRange

variable {renames renames' : Bool} {doorLine userLine uid pkg door name numeral numeral' : Str}

/-- The three runs of lines that are read as commands and whose numerals are in
range are one addition after the other. -/
theorem levelsMeant_iff_additions (hdoorLine : newDoorSyntax doorLine = some (door, numeral))
    (huserLine : newUserSyntax userLine = some (name, numeral'))
    (ha : ¬ ulongMax < decimal numeral) (hb : ¬ ulongMax < decimal numeral') (a b : Nat)
    {s : Store} {e e' : Ended}
    (he : e = (AdminOp.newDoor (toSnakeCase door) (toUInt8 (decimal numeral))).run renames s)
    (he' : e' = (AdminOp.newUser (toSnakeCase name) (toUInt8 (decimal numeral')) uid).run renames'
      e.store) :
    LevelsMeant renames renames' doorLine userLine uid pkg a b s ↔
      (e.thrown ≠ none ∧ e.store = s) ∨ (e'.thrown ≠ none ∧ e'.store = e.store) ∨
        ((handleClient pkg e'.store).replies = [ascii "Approved"] ↔ b ≥ a) := by
  have hdoor : handleCli renames doorLine s = e.thenHandleCli [] := by
    rw [handleCli_newDoor hdoorLine, he]
    simp only [newDoor, hdoorLine, stoul_eq_some ha]
  have huser : handleCli renames userLine e.store = ⟨e.store, [],
      [.uid (toSnakeCase name) (toUInt8 (decimal numeral')), .cli], .returned⟩ := by
    rw [handleCli_newUser huserLine]
    simp only [newUser, huserLine, stoul_eq_some hb]
    rfl
  simp only [LevelsMeant, hdoor, thenHandleCli_store, thenHandleCli_refused_iff, huser,
    HandlerRun.uidRun, Option.some.injEq, forall_eq', handleUID_refused_iff, handleUID_store, ← he']
  simp [HandlerRun.Refused, Outcome.thrown]

/-- When a `newDoor` line in range is refused. -/
theorem newDoor_refused_iff {a : Nat} {s : Store} {e : Ended}
    (h : Addition renames (ascii "doors") (doorEntry door (toUInt8 a))
      (ascii "Door Added Successfully") (enterDoor door (toUInt8 a)) s e) :
    (e.thrown ≠ none ∧ e.store = s) ↔ s.listReadable (ascii "doors") = false ∨
      (s.Unsaved renames (ascii "doors") (doorEntry door (toUInt8 a)) ∧
        s.doors door = some ((a % 256 : Nat) : Int)) := by
  rw [h.refused_iff, enterDoor_eq_self_iff, toNat_toUInt8]
  cases s.listReadable (ascii "doors") <;> simp

/-- When a UID line is refused over a file that can be read. -/
theorem newUser_refused_iff {b : Nat} {s : Store} {e : Ended}
    (h : Addition renames (ascii "users") (userEntry name (toUInt8 b) uid)
      (ascii "User Added Successfully") (enterUser name (toUInt8 b) uid) s e)
    (hreadable : s.listReadable (ascii "users") = true) :
    (e.thrown ≠ none ∧ e.store = s) ↔
      s.Unsaved renames (ascii "users") (userEntry name (toUInt8 b) uid) ∧
        s.usersByName name = some (uid, ((b % 256 : Nat) : Int)) ∧
        s.usersByUID uid = some (name, ((b % 256 : Nat) : Int)) := by
  rw [h.refused_iff, enterUser_eq_self_iff, toNat_toUInt8, hreadable]
  simp

theorem levelsMeant_iff_of_range (hdoorLine : newDoorSyntax doorLine = some (door, numeral))
    (huserLine : newUserSyntax userLine = some (name, numeral'))
    (hpkg : parsePackage pkg = some (toSnakeCase door, uid))
    (ha : ¬ ulongMax < decimal numeral) (hb : ¬ ulongMax < decimal numeral') (s : Store) :
    LevelsMeant renames renames' doorLine userLine uid pkg (decimal numeral) (decimal numeral') s ↔
      LevelsFit renames renames' (toSnakeCase door) (toSnakeCase name) uid (decimal numeral)
        (decimal numeral') s := by
  generalize he : (AdminOp.newDoor (toSnakeCase door) (toUInt8 (decimal numeral))).run renames s = e
  generalize he' : (AdminOp.newUser (toSnakeCase name) (toUInt8 (decimal numeral')) uid).run
    renames' e.store = e'
  have hadd := addition_newDoor renames (toSnakeCase door) (toUInt8 (decimal numeral)) s
  rw [he] at hadd
  have hadd' := addition_newUser renames' (toSnakeCase name) (toUInt8 (decimal numeral')) uid
    e.store
  rw [he'] at hadd'
  have hdoor := newDoor_refused_iff hadd
  rw [levelsMeant_iff_additions hdoorLine huserLine ha hb _ _ he.symm he'.symm, hdoor, or_assoc]
  simp only [LevelsFit, ha, hb, false_or]
  -- each refusal is compared where the earlier ones have not happened
  refine or_congr_right' fun hreadable => or_congr_right' fun hunchanged => ?_
  obtain ⟨hlevel, hnames, huids, hreadable', htakes⟩ :=
    newDoor_not_refused hadd (mt hdoor.mp (not_or.mpr ⟨hreadable, hunchanged⟩))
  have huser := newUser_refused_iff hadd' hreadable'
  rw [huser, Store.Unsaved, htakes, ← Store.Unsaved, hnames, huids]
  refine or_congr_right' fun hunchanged' => ?_
  have hnot : ¬ (e'.thrown ≠ none ∧ e'.store = e.store) := by
    rwa [huser, Store.Unsaved, htakes, ← Store.Unsaved, hnames, huids]
  obtain ⟨hdoors, hcard⟩ := newUser_not_refused hadd' hnot
  rw [← hdoors] at hlevel
  simp only [approved_iff_le hpkg hlevel hcard, toNat_toUInt8, Int.ofNat_le, ge_iff_le]

/-- **When the levels of two commands mean their numbers.** -/
theorem levelsMeant_iff_levelsFit (hdoorLine : newDoorSyntax doorLine = some (door, numeral))
    (huserLine : newUserSyntax userLine = some (name, numeral'))
    (hpkg : parsePackage pkg = some (toSnakeCase door, uid)) (s : Store) :
    LevelsMeant renames renames' doorLine userLine uid pkg (decimal numeral) (decimal numeral') s ↔
      LevelsFit renames renames' (toSnakeCase door) (toSnakeCase name) uid (decimal numeral)
        (decimal numeral') s := by
  by_cases ha : ulongMax < decimal numeral
  · refine iff_of_true (Or.inl ?_) (Or.inl ha)
    rw [handleCli_newDoor hdoorLine, thenHandleCli_refused_iff]
    simp [newDoor, hdoorLine, stoul_eq_none_iff.mpr ha]
  · by_cases hb : ulongMax < decimal numeral'
    · refine iff_of_true (Or.inr (Or.inl ?_)) (Or.inr (Or.inl hb))
      rw [handleCli_newUser huserLine, thenHandleCli_refused_iff]
      simp [newUser, huserLine, stoul_eq_none_iff.mpr hb]
    · exact levelsMeant_iff_of_range hdoorLine huserLine hpkg ha hb s

end InRange

/-! ## The levels of config.json -/

/-- The name and the number of a door entry that passes the checks of the load. -/
def doorNumber (door : Json) : Option (Str × Int) := do
  let name ← (← door.member? (ascii "name")).string?
  let accessLevel ← (← door.member? (ascii "accessLevel")).integer?
  return (name, accessLevel)

/-- The name, the card and the number of a user entry that passes the checks of
the load. -/
def userNumber (user : Json) : Option (Str × Str × Int) := do
  let name ← (← user.member? (ascii "name")).string?
  let uid ← (← user.member? (ascii "uid")).string?
  let accessLevel ← (← user.member? (ascii "accessLevel")).integer?
  return (name, uid, accessLevel)

/-- The levels of the doors as they are written in config.json: the last entry
of a name counts. -/
def writtenDoors (configJson : Json) : Table Str Int :=
  Table.tabulate Prod.fst Prod.snd ((configJson.entries (ascii "doors")).filterMap doorNumber)

/-- The levels of the cards as they are written in config.json. -/
def writtenCards (configJson : Json) : Table Str Int :=
  Table.tabulate (fun user => user.2.1) (fun user => user.2.2)
    ((configJson.entries (ascii "users")).filterMap userNumber)

theorem doorFields_eq_map (door : Json) :
    doorFields door = (doorNumber door).map fun fields => (fields.1, toInt fields.2) := by
  simp only [doorFields, doorNumber, Option.bind_eq_bind, Option.pure_def, Option.map_bind,
    Function.comp_def, Option.map_some]

theorem userFields_eq_map (user : Json) :
    userFields user =
      (userNumber user).map fun fields => (fields.1, fields.2.1, toInt fields.2.2) := by
  simp only [userFields, userNumber, Option.bind_eq_bind, Option.pure_def, Option.map_bind,
    Function.comp_def, Option.map_some]

/-- The loaded door levels are the written ones, reduced to an `int`. -/
theorem loadDoors_apply (configJson : Json) (door : Str) :
    loadDoors configJson door = (writtenDoors configJson door).map toInt := by
  rw [loadDoors_eq_tabulate, doorEntries, funext doorFields_eq_map, ← List.map_filterMap,
    Table.tabulate_map, writtenDoors, Table.map_tabulate]

/-- The loaded card levels are the written ones, reduced to an `int`. -/
theorem loadUsers_apply (configJson : Json) (uid : Str) :
    ((loadUsers configJson).2 uid).map Prod.snd = (writtenCards configJson uid).map toInt := by
  rw [loadUsers_eq_tabulate, userEntries, funext userFields_eq_map, ← List.map_filterMap,
    Table.bySnd, Table.tabulate_map, Table.map_tabulate, writtenCards, Table.map_tabulate]

/-- Over a loaded configuration a package is approved as the written levels say
exactly if the reduction to `int` keeps their order. -/
theorem approved_load_iff {pkg door uid : Str} (hpkg : parsePackage pkg = some (door, uid))
    {configJson : Json} {a b : Int} (ha : writtenDoors configJson door = some a)
    (hb : writtenCards configJson uid = some b) {s : Store}
    (hstart : startup (.doc configJson) = .ok s) :
    ((handleClient pkg s).replies = [ascii "Approved"] ↔ b ≥ a) ↔
      (toInt b ≥ toInt a ↔ b ≥ a) := by
  obtain rfl := Except.ok.inj hstart
  have hdoor : loadDoors configJson door = some (toInt a) := by
    rw [loadDoors_apply, ha, Option.map_some]
  obtain ⟨user, huser, hlevel⟩ : ∃ user, (loadUsers configJson).2 uid = some user ∧
      user.2 = toInt b := by
    have hcard := loadUsers_apply configJson uid
    rw [hb, Option.map_some] at hcard
    exact Option.map_eq_some_iff.mp hcard
  rw [approved_iff_le hpkg (s := load configJson (.doc configJson)) hdoor huser, hlevel]

/-- **When access levels mean the numbers that were written.**  For the numerals
of two commands the order must survive a reduction modulo 256, for the numbers of
config.json one modulo `2 ^ 32`. -/
theorem levels_iff {pkg door uid : Str} (hpkg : parsePackage pkg = some (door, uid)) :
    (∀ (renames renames' : Bool) (doorLine userLine d numeral n numeral' : Str) (s : Store),
      newDoorSyntax doorLine = some (d, numeral) → toSnakeCase d = door →
      newUserSyntax userLine = some (n, numeral') →
      (LevelsMeant renames renames' doorLine userLine uid pkg (decimal numeral)
          (decimal numeral') s ↔
        LevelsFit renames renames' door (toSnakeCase n) uid (decimal numeral)
          (decimal numeral') s)) ∧
      ∀ (configJson : Json) (a b : Int) (s : Store),
        writtenDoors configJson door = some a → writtenCards configJson uid = some b →
        startup (.doc configJson) = .ok s →
        (((handleClient pkg s).replies = [ascii "Approved"] ↔ b ≥ a) ↔
          (toInt b ≥ toInt a ↔ b ≥ a)) := by
  refine ⟨?_, fun configJson a b s ha hb hstart => approved_load_iff hpkg ha hb hstart⟩
  intro renames renames' doorLine userLine d numeral n numeral' s hdoorLine hdoor huserLine
  rw [← hdoor] at hpkg ⊢
  exact levelsMeant_iff_levelsFit hdoorLine huserLine hpkg s

/-- A configuration with one door and one user. -/
def labConfig : Json :=
  .object [(ascii "doors", .array [doorEntry (ascii "lab") 2]),
    (ascii "users", .array [userEntry (ascii "bob") 3 (ascii "04a1")])]

theorem levels_iff_lab :
    LevelsMeant true true (ascii "newDoor Lab 002") (ascii "newUser bob 3") (ascii "04a1")
        (ascii "lab:04a1") 2 3 (load emptyConfig (.doc emptyConfig)) ∧
      ((handleClient (ascii "lab:04a1") (load labConfig (.doc labConfig))).replies =
          [ascii "Approved"] ↔ (3 : Int) ≥ 2) := by
  have hpkg : parsePackage (ascii "lab:04a1") = some (ascii "lab", ascii "04a1") := by decide
  obtain ⟨hcommands, hloaded⟩ := levels_iff hpkg
  constructor
  · exact (hcommands true true (ascii "newDoor Lab 002") (ascii "newUser bob 3") (ascii "Lab")
      (ascii "002") (ascii "bob") (ascii "3") _ (by decide) (by decide) (by decide)).mpr
      (by decide +kernel)
  · exact (hloaded labConfig 2 3 _ (by decide +kernel) (by decide +kernel) rfl).mpr (by decide)

/-- A door of level 256 opens to a user of level 1. -/
theorem not_levelsMeant :
    ¬ ∀ (renames renames' : Bool) (doorLine userLine d numeral n numeral' uid pkg : Str)
        (s : Store),
      newDoorSyntax doorLine = some (d, numeral) → newUserSyntax userLine = some (n, numeral') →
      parsePackage pkg = some (toSnakeCase d, uid) →
      LevelsMeant renames renames' doorLine userLine uid pkg (decimal numeral) (decimal numeral')
        s := by
  intro h
  have hdoorLine : newDoorSyntax (ascii "newDoor lab 256") = some (ascii "lab", ascii "256") := by
    decide
  have huserLine : newUserSyntax (ascii "newUser bob 1") = some (ascii "bob", ascii "1") := by
    decide
  have hpkg : parsePackage (ascii "lab:04a1") = some (toSnakeCase (ascii "lab"), ascii "04a1") := by
    decide
  have hmeant := h true true _ _ _ _ _ _ _ _ (load emptyConfig (.doc emptyConfig)) hdoorLine
    huserLine hpkg
  exact absurd ((levelsMeant_iff_levelsFit hdoorLine huserLine hpkg _).mp hmeant)
    (by decide +kernel)

end AsyncNFCServer
