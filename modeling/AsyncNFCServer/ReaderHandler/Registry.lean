import AsyncNFCServer.ReaderHandler.Admin

/-!
# The registry: the store as a restart and a door see it

A store whose config.json is an object with the lists `doors` and `users`, all
of whose entries are well formed, is known by five things: the three maps, and
the fields of the entries of the two lists.  That is a `Registry`.  On it an
operation is a map update together with an append to, or the removal of the
first match from, a list; a restart tabulates the lists.

`Store.Shows.run` and `Store.Shows.startup` connect the registry to the code:
whatever an operation or the constructor does to a store, it does to the
registry the store shows.  An operation that throws has updated the maps only.
-/

namespace AsyncNFCServer

/-- The maps and the lists of a store. -/
structure Registry where
  doors : Table Str Int
  usersByName : Table Str (Str × Int)
  usersByUID : Table Str (Str × Int)
  doorList : List (Str × Int)
  userList : List (Str × Str × Int)

namespace Registry

/-- The registry after a restart. -/
def reload (r : Registry) : Registry :=
  { r with
    doors := Table.tabulate Prod.fst Prod.snd r.doorList
    usersByName := Table.byFst r.userList
    usersByUID := Table.bySnd r.userList }

/-- The maps agree with what a restart would load. -/
theorem reload_eq_iff (r : Registry) :
    r.reload = r ↔ Table.tabulate Prod.fst Prod.snd r.doorList = r.doors ∧
      Table.byFst r.userList = r.usersByName ∧ Table.bySnd r.userList = r.usersByUID := by
  constructor
  · intro h
    exact ⟨congrArg Registry.doors h, congrArg Registry.usersByName h,
      congrArg Registry.usersByUID h⟩
  · rintro ⟨hdoors, hnames, huids⟩
    cases r
    simp_all [reload]

end Registry

/-- An operation on the registry; `saved` tells whether it reached the lists. -/
def AdminOp.apply (saved : Bool) (r : Registry) : AdminOp → Registry
  | newDoor name accessLevel =>
      { r with
        doors := r.doors.insert name accessLevel.toNat
        doorList :=
          if saved then r.doorList ++ [(name, (accessLevel.toNat : Int))] else r.doorList }
  | newUser name accessLevel uid =>
      { r with
        usersByName := r.usersByName.insert name (uid, accessLevel.toNat)
        usersByUID := r.usersByUID.insert uid (name, accessLevel.toNat)
        userList :=
          if saved then r.userList ++ [(name, uid, (accessLevel.toNat : Int))] else r.userList }
  | rmDoor name =>
      match r.doors name with
      | none => r
      | some _ =>
          { r with
            doors := r.doors.erase name
            doorList := if saved then r.doorList.eraseP fun d => d.1 = name else r.doorList }
  | rmUser name =>
      match r.usersByName name with
      | none => r
      | some (uid, _) =>
          { r with
            usersByName := r.usersByName.erase name
            usersByUID := r.usersByUID.erase uid
            userList := if saved then r.userList.eraseP fun u => u.1 = name else r.userList }

/-! ## Lists of well-formed entries -/

/-- The entries have the fields `xs`. -/
abbrev EntriesShow {φ : Type} (fields : Json → Option φ) (es : List Json) (xs : List φ) : Prop :=
  List.Forall₂ (fun e x => fields e = some x) es xs

section EntriesShow

variable {φ : Type} {fields : Json → Option φ} {es : List Json} {xs : List φ}

theorem EntriesShow.filterMap (h : EntriesShow fields es xs) : es.filterMap fields = xs := by
  induction h with
  | nil => rfl
  | cons hx _ ih => rw [List.filterMap_cons_some hx, ih]

theorem EntriesShow.concat (h : EntriesShow fields es xs) {e : Json} {x : φ}
    (hx : fields e = some x) : EntriesShow fields (es ++ [e]) (xs ++ [x]) := by
  induction h with
  | nil => exact .cons hx .nil
  | cons hy _ ih => exact .cons hy ih

/-- Erasing the first entry that passes a test erases the first fields that do. -/
theorem EntriesShow.eraseP (h : EntriesShow fields es xs) {p : Json → Bool} {q : φ → Bool}
    (hpq : ∀ e x, fields e = some x → p e = q x) :
    EntriesShow fields (es.eraseP p) (xs.eraseP q) := by
  induction h with
  | nil => exact .nil
  | @cons e x es xs hx hrest ih =>
      rw [List.eraseP_cons, List.eraseP_cons, hpq e x hx]
      cases q x with
      | true => exact hrest
      | false => exact .cons hx ih

end EntriesShow

/-- The first field of a well-formed entry is its name. -/
theorem isNamed_of_doorFields {name : Str} {door : Json} {fields : Str × Int}
    (h : doorFields door = some fields) :
    door.isNamed name = decide (fields.1 = name) := by
  simp only [doorFields, Option.bind_eq_bind, Option.bind_eq_some_iff] at h
  obtain ⟨value, hvalue, n, hn, _, _, _, _, hfields⟩ := h
  obtain rfl := Option.some.inj hfields
  simp [Json.isNamed, hvalue, hn, beq_eq_decide]

theorem isNamed_of_userFields {name : Str} {user : Json} {fields : Str × Str × Int}
    (h : userFields user = some fields) :
    user.isNamed name = decide (fields.1 = name) := by
  simp only [userFields, Option.bind_eq_bind, Option.bind_eq_some_iff] at h
  obtain ⟨value, hvalue, n, hn, _, _, _, _, _, _, _, _, hfields⟩ := h
  obtain rfl := Option.some.inj hfields
  simp [Json.isNamed, hvalue, hn, beq_eq_decide]

/-- An access level survives the conversion of the load. -/
theorem toInt_accessLevel (accessLevel : UInt8) :
    toInt (accessLevel.toNat : Int) = accessLevel.toNat := by
  have hlt := accessLevel.toNat_lt
  unfold toInt
  rw [Int.bmod_eq_of_le] <;> omega

theorem doorFields_doorEntry (name : Str) (accessLevel : UInt8) :
    doorFields (doorEntry name accessLevel) = some (name, (accessLevel.toNat : Int)) := by
  rw [← toInt_accessLevel]
  rfl

theorem userFields_userEntry (name : Str) (accessLevel : UInt8) (uid : Str) :
    userFields (userEntry name accessLevel uid) = some (name, uid, (accessLevel.toNat : Int)) := by
  rw [← toInt_accessLevel]
  rfl

/-! ## The registry a store shows -/

/-- The document has the lists `doors` and `users`, with entries that have the
fields `doorList` and `userList`. -/
def Json.Lists (doorList : List (Str × Int)) (userList : List (Str × Str × Int))
    (configJson : Json) : Prop :=
  (∃ ds, configJson.member? (ascii "doors") = some (.array ds) ∧
      EntriesShow doorFields ds doorList) ∧
    ∃ us, configJson.member? (ascii "users") = some (.array us) ∧
      EntriesShow userFields us userList

/-- The store shows the registry `r`. -/
structure Store.Shows (s : Store) (r : Registry) : Prop where
  doors : s.doors = r.doors
  usersByName : s.usersByName = r.usersByName
  usersByUID : s.usersByUID = r.usersByUID
  config : ∃ configJson, s.config = .doc configJson ∧ configJson.Lists r.doorList r.userList

/-- The entries of a list of the file. -/
def Content.items (list : Str) : Content → List Json
  | .doc configJson => configJson.entries list
  | _ => []

/-- The fields of the well-formed user entries of a file. -/
def Content.userList : Content → List (Str × Str × Int)
  | .doc configJson => userEntries configJson
  | _ => []

/-- The fields of the well-formed door entries of a file. -/
def Content.doorList : Content → List (Str × Int)
  | .doc configJson => doorEntries configJson
  | _ => []

theorem entries_of_member? {configJson : Json} {key : Str} {es : List Json}
    (h : configJson.member? key = some (.array es)) : configJson.entries key = es := by
  simp [Json.entries, h, Json.items]

theorem Json.Lists.doorEntries {configJson : Json} {doorList : List (Str × Int)}
    {userList : List (Str × Str × Int)} (h : configJson.Lists doorList userList) :
    doorEntries configJson = doorList := by
  obtain ⟨⟨ds, hds, hdoors⟩, -⟩ := h
  rw [AsyncNFCServer.doorEntries, entries_of_member? hds, hdoors.filterMap]

theorem Json.Lists.userEntries {configJson : Json} {doorList : List (Str × Int)}
    {userList : List (Str × Str × Int)} (h : configJson.Lists doorList userList) :
    userEntries configJson = userList := by
  obtain ⟨-, ⟨us, hus, husers⟩⟩ := h
  rw [AsyncNFCServer.userEntries, entries_of_member? hus, husers.filterMap]

namespace Store.Shows

variable {s : Store} {r : Registry}

theorem doorList_eq (h : s.Shows r) : s.config.doorList = r.doorList := by
  obtain ⟨configJson, hconfig, hlists⟩ := h.config
  rw [hconfig]
  exact hlists.doorEntries

theorem userList_eq (h : s.Shows r) : s.config.userList = r.userList := by
  obtain ⟨configJson, hconfig, hlists⟩ := h.config
  rw [hconfig]
  exact hlists.userEntries

/-- **A restart reloads the registry.** -/
theorem startup (h : s.Shows r) :
    ∃ s', AsyncNFCServer.startup s.config = .ok s' ∧ s'.Shows r.reload := by
  obtain ⟨configJson, hconfig, hlists⟩ := h.config
  refine ⟨load configJson (.doc configJson), by rw [hconfig]; rfl, ?_, ?_, ?_, ?_⟩
  · simp only [load, loadDoors_eq_tabulate, hlists.doorEntries, Registry.reload]
  · simp only [load, loadUsers_eq_tabulate, hlists.userEntries, Registry.reload]
  · simp only [load, loadUsers_eq_tabulate, hlists.userEntries, Registry.reload]
  · exact ⟨configJson, rfl, hlists⟩

/-- Two stores that show the same registry over the same file are equal. -/
theorem ext {s s' : Store} {r : Registry} (h : s.Shows r) (h' : s'.Shows r)
    (hconfig : s.config = s'.config) : s = s' := by
  cases s
  cases s'
  obtain ⟨rfl, rfl, rfl, -⟩ := h
  obtain ⟨rfl, rfl, rfl, -⟩ := h'
  cases hconfig
  rfl

/-- What the constructor builds is the store itself when the registry is what a
restart reloads. -/
theorem startup_eq_iff (h : s.Shows r) :
    AsyncNFCServer.startup s.config = .ok s ↔ r.reload = r := by
  obtain ⟨s', hstart, hs'⟩ := h.startup
  have hconfig : s'.config = s.config := by
    obtain ⟨configJson, hdoc, -⟩ := h.config
    rw [hdoc] at hstart ⊢
    obtain rfl := Except.ok.inj hstart
    rfl
  rw [hstart, Except.ok.injEq]
  constructor
  · rintro rfl
    exact (r.reload_eq_iff).mpr
      ⟨hs'.doors.symm.trans h.doors, hs'.usersByName.symm.trans h.usersByName,
        hs'.usersByUID.symm.trans h.usersByUID⟩
  · intro hreload
    rw [hreload] at hs'
    exact hs'.ext h hconfig

end Store.Shows

/-! ## The operations on the registry a store shows -/

/-- An addition to a list that is there comes to its write-back. -/
theorem addEntry_of_member? {list : Str} {s : Store} {configJson : Json} {es : List Json}
    (hconfig : s.config = .doc configJson) (hlist : configJson.member? list = some (.array es))
    (renames : Bool) (entry : Json) (answer : Str) (enter : Store → Store) :
    ∃ edited, edited.member? list = some (.array (es ++ [entry])) ∧
      (∀ other, other ≠ list → edited.member? other = configJson.member? other) ∧
      addEntry renames list entry answer enter s = writeBack renames edited answer (enter s) := by
  obtain ⟨edited, hpush, hedited, hother⟩ := Json.pushBackAt_of_member? hlist entry
  have hread : (readConfig s.config >>= Json.ensureArray list) = .ok configJson := by
    rw [hconfig]
    exact Json.ensureArray_of_member? hlist
  refine ⟨edited, hedited, hother, ?_⟩
  simp only [addEntry, hread, hpush]

/-- A removal from a list that is there comes to its write-back, if the maps
have the name. -/
theorem removeEntry_of_member? {list : Str} {s s' : Store} {forget : Store → Option Store}
    {configJson : Json} {es : List Json} (hforget : forget s = some s')
    (hconfig : s'.config = .doc configJson) (hlist : configJson.member? list = some (.array es))
    (renames : Bool) (name answer : Str) :
    ∃ edited, edited.member? list = some (.array (es.eraseP (Json.isNamed name))) ∧
      (∀ other, other ≠ list → edited.member? other = configJson.member? other) ∧
      removeEntry renames list name answer forget s = writeBack renames edited answer s' := by
  obtain ⟨edited, herase, hedited, hother⟩ := Json.eraseNamedAt_of_member? hlist name
  have hread : (readConfig s'.config >>= Json.eraseNamedAt list name) = .ok edited := by
    rw [hconfig]
    exact herase
  refine ⟨edited, hedited, hother, ?_⟩
  simp only [removeEntry, hforget, hread]

namespace Store.Shows

variable {s : Store} {r : Registry}

/-- A write-back shows the edited lists if it completes, and those of the old
file if it throws. -/
theorem writeBack {edited : Json} {doorList : List (Str × Int)}
    {userList : List (Str × Str × Int)} (h : s.Shows r)
    (hedited : edited.Lists doorList userList) (renames : Bool) (answer : Str) :
    (AsyncNFCServer.writeBack renames edited answer s).store.Shows
      (if (AsyncNFCServer.writeBack renames edited answer s).thrown.isNone then
        { r with doorList := doorList, userList := userList } else r) := by
  rcases writeBack_cases renames edited answer s with ⟨e, heq⟩ | ⟨-, -, heq⟩
  · rw [heq]
    exact h
  · rw [heq]
    exact ⟨h.doors, h.usersByName, h.usersByUID, edited, rfl, hedited⟩

theorem run_newDoor (h : s.Shows r) (renames : Bool) (name : Str) (accessLevel : UInt8) :
    ((AdminOp.newDoor name accessLevel).run renames s).store.Shows
      ((AdminOp.newDoor name accessLevel).apply
        ((AdminOp.newDoor name accessLevel).run renames s).thrown.isNone r) := by
  obtain ⟨configJson, hconfig, ⟨ds, hds, hdoors⟩, us, hus, husers⟩ := h.config
  obtain ⟨edited, hlist, hother, heq⟩ := addEntry_of_member? hconfig hds renames
    (doorEntry name accessLevel) (ascii "Door Added Successfully") (enterDoor name accessLevel)
  have hlists : edited.Lists (r.doorList ++ [(name, (accessLevel.toNat : Int))]) r.userList :=
    ⟨⟨_, hlist, hdoors.concat (doorFields_doorEntry name accessLevel)⟩,
      us, (hother _ (by decide)).trans hus, husers⟩
  have hentered : (enterDoor name accessLevel s).Shows
      { r with doors := r.doors.insert name accessLevel.toNat } :=
    ⟨by rw [enterDoor, h.doors], h.usersByName, h.usersByUID, h.config⟩
  have hshows := hentered.writeBack hlists renames (ascii "Door Added Successfully")
  simp only [AdminOp.run, AdminOp.apply, heq]
  split_ifs at hshows ⊢ with hsaved <;> exact hshows

theorem run_newUser (h : s.Shows r) (renames : Bool) (name : Str) (accessLevel : UInt8)
    (uid : Str) :
    ((AdminOp.newUser name accessLevel uid).run renames s).store.Shows
      ((AdminOp.newUser name accessLevel uid).apply
        ((AdminOp.newUser name accessLevel uid).run renames s).thrown.isNone r) := by
  obtain ⟨configJson, hconfig, ⟨ds, hds, hdoors⟩, us, hus, husers⟩ := h.config
  obtain ⟨edited, hlist, hother, heq⟩ := addEntry_of_member? hconfig hus renames
    (userEntry name accessLevel uid) (ascii "User Added Successfully")
    (enterUser name accessLevel uid)
  have hlists : edited.Lists r.doorList
      (r.userList ++ [(name, uid, (accessLevel.toNat : Int))]) :=
    ⟨⟨ds, (hother _ (by decide)).trans hds, hdoors⟩,
      _, hlist, husers.concat (userFields_userEntry name accessLevel uid)⟩
  have hentered : (enterUser name accessLevel uid s).Shows
      { r with
        usersByName := r.usersByName.insert name (uid, (accessLevel.toNat : Int))
        usersByUID := r.usersByUID.insert uid (name, (accessLevel.toNat : Int)) } :=
    ⟨h.doors, by rw [enterUser, h.usersByName], by rw [enterUser, h.usersByUID], h.config⟩
  have hshows := hentered.writeBack hlists renames (ascii "User Added Successfully")
  simp only [AdminOp.run, AdminOp.apply, heq]
  split_ifs at hshows ⊢ with hsaved <;> exact hshows

theorem run_rmDoor (h : s.Shows r) (renames : Bool) (name : Str) :
    ((AdminOp.rmDoor name).run renames s).store.Shows
      ((AdminOp.rmDoor name).apply ((AdminOp.rmDoor name).run renames s).thrown.isNone r) := by
  obtain ⟨configJson, hconfig, ⟨ds, hds, hdoors⟩, us, hus, husers⟩ := h.config
  cases hname : s.doors name with
  | none =>
      have hforget : forgetDoor name s = none := by simp [forgetDoor, hname]
      have hr : r.doors name = none := by rw [← h.doors, hname]
      simpa [AdminOp.run, AdminOp.apply, removeEntry, hforget, hr] using h
  | some level =>
      have hforget : forgetDoor name s = some { s with doors := s.doors.erase name } := by
        simp [forgetDoor, hname]
      have hr : r.doors name = some level := by rw [← h.doors, hname]
      obtain ⟨edited, hlist, hother, heq⟩ := removeEntry_of_member? hforget hconfig hds renames
        name (ascii "Door Removed Successfully")
      have hlists : edited.Lists (r.doorList.eraseP fun d => d.1 = name) r.userList :=
        ⟨⟨_, hlist, hdoors.eraseP fun e x hx => isNamed_of_doorFields hx⟩,
          us, (hother _ (by decide)).trans hus, husers⟩
      have hforgotten : Store.Shows { s with doors := s.doors.erase name }
          { r with doors := r.doors.erase name } :=
        ⟨by rw [h.doors], h.usersByName, h.usersByUID, h.config⟩
      have hshows := hforgotten.writeBack hlists renames (ascii "Door Removed Successfully")
      simp only [AdminOp.run, AdminOp.apply, heq, hr]
      split_ifs at hshows ⊢ with hsaved <;> exact hshows

theorem run_rmUser (h : s.Shows r) (renames : Bool) (name : Str) :
    ((AdminOp.rmUser name).run renames s).store.Shows
      ((AdminOp.rmUser name).apply ((AdminOp.rmUser name).run renames s).thrown.isNone r) := by
  obtain ⟨configJson, hconfig, ⟨ds, hds, hdoors⟩, us, hus, husers⟩ := h.config
  cases hname : s.usersByName name with
  | none =>
      have hforget : forgetUser name s = none := by simp [forgetUser, hname]
      have hr : r.usersByName name = none := by rw [← h.usersByName, hname]
      simpa [AdminOp.run, AdminOp.apply, removeEntry, hforget, hr] using h
  | some user =>
      -- the second index is erased by the card found in the first
      have hforget : forgetUser name s = some { s with
          usersByUID := s.usersByUID.erase user.1
          usersByName := s.usersByName.erase name } := by
        simp [forgetUser, hname]
      have hr : r.usersByName name = some user := by rw [← h.usersByName, hname]
      obtain ⟨edited, hlist, hother, heq⟩ := removeEntry_of_member? hforget hconfig hus renames
        name (ascii "User Removed Successfully")
      have hlists : edited.Lists r.doorList (r.userList.eraseP fun u => u.1 = name) :=
        ⟨⟨ds, (hother _ (by decide)).trans hds, hdoors⟩,
          _, hlist, husers.eraseP fun e x hx => isNamed_of_userFields hx⟩
      have hforgotten : Store.Shows { s with
            usersByUID := s.usersByUID.erase user.1
            usersByName := s.usersByName.erase name }
          { r with
            usersByName := r.usersByName.erase name
            usersByUID := r.usersByUID.erase user.1 } :=
        ⟨h.doors, by rw [h.usersByName], by rw [h.usersByUID], h.config⟩
      have hshows := hforgotten.writeBack hlists renames (ascii "User Removed Successfully")
      simp only [AdminOp.run, AdminOp.apply, heq, hr]
      split_ifs at hshows ⊢ with hsaved <;> exact hshows

/-- **An operation does to the registry what it does to the store.** -/
theorem run (h : s.Shows r) (renames : Bool) (op : AdminOp) :
    (op.run renames s).store.Shows (op.apply (op.run renames s).thrown.isNone r) := by
  cases op with
  | newDoor name accessLevel => exact h.run_newDoor renames name accessLevel
  | newUser name accessLevel uid => exact h.run_newUser renames name accessLevel uid
  | rmDoor name => exact h.run_rmDoor renames name
  | rmUser name => exact h.run_rmUser renames name

end Store.Shows

end AsyncNFCServer
