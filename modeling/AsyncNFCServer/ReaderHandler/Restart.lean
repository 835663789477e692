import AsyncNFCServer.ReaderHandler.Registry
import AsyncNFCServer.Lib.Runs

/-!
# Restarts

The server keeps its data twice, in the maps and in config.json.  A restart is
transparent when the constructor, run on the file, builds the maps the server
had.  An addition overwrites the map and appends to the list, and the load lets
the last entry of a name win, so an addition keeps the two together.  A removal
erases the name from the maps but only the first of its entries from the list:
it keeps them together exactly when no other entry mentions the name, or the
card that goes with it.
-/

namespace AsyncNFCServer

/-- The constructor, run on the file of the store, builds the store. -/
def Store.Restartable (s : Store) : Prop := startup s.config = .ok s

/-- A completed operation, of a file system on which renames succeed. -/
def AdminOp.commit (s : Store) (op : AdminOp) : Store := (op.run true s).store

/-- The operation does not end by an exception. -/
def AdminOp.Completes (s : Store) (op : AdminOp) : Prop := (op.run true s).thrown = none

instance (s : Store) (op : AdminOp) : Decidable (op.Completes s) :=
  inferInstanceAs (Decidable ((op.run true s).thrown = none))

/-- A removal finds at most one entry to remove: one with the name, or for a
user with the name or the card that the maps have for it. -/
def AdminOp.Sole (s : Store) : AdminOp → Prop
  | rmDoor name => (s.config.doorList.filter fun door => door.1 = name).length ≤ 1
  | rmUser name =>
      ∀ user ∈ s.usersByName name,
        (s.config.userList.filter fun u => u.1 = name ∨ u.2.1 = user.1).length ≤ 1
  | _ => True

instance (s : Store) : ∀ op : AdminOp, Decidable (op.Sole s)
  | .rmDoor name =>
      inferInstanceAs (Decidable
        ((s.config.doorList.filter fun door => door.1 = name).length ≤ 1))
  | .rmUser name =>
      inferInstanceAs (Decidable (∀ user ∈ s.usersByName name,
        (s.config.userList.filter fun u => u.1 = name ∨ u.2.1 = user.1).length ≤ 1))
  | .newDoor _ _ | .newUser _ _ _ => .isTrue trivial

/-! ## One operation on the registry -/

namespace Registry

variable {r : Registry}

/-- An addition that reaches the lists is what a restart reloads. -/
theorem reload_newDoor (h : r.reload = r) (name : Str) (accessLevel : UInt8) :
    ((AdminOp.newDoor name accessLevel).apply true r).reload =
      (AdminOp.newDoor name accessLevel).apply true r := by
  obtain ⟨hdoors, hnames, huids⟩ := r.reload_eq_iff.mp h
  refine (reload_eq_iff _).mpr ⟨?_, hnames, huids⟩
  simp only [AdminOp.apply, if_true, Table.tabulate_concat, hdoors]

theorem reload_newUser (h : r.reload = r) (name : Str) (accessLevel : UInt8) (uid : Str) :
    ((AdminOp.newUser name accessLevel uid).apply true r).reload =
      (AdminOp.newUser name accessLevel uid).apply true r := by
  obtain ⟨hdoors, hnames, huids⟩ := r.reload_eq_iff.mp h
  refine (reload_eq_iff _).mpr ⟨hdoors, ?_, ?_⟩
  · simp only [AdminOp.apply, if_true, Table.byFst, Table.tabulate_concat]
    rw [← hnames]
  · simp only [AdminOp.apply, if_true, Table.bySnd, Table.tabulate_concat]
    rw [← huids]

/-- A door removal is what a restart reloads exactly when the door had one
entry. -/
theorem reload_rmDoor_iff (h : r.reload = r) (name : Str) :
    ((AdminOp.rmDoor name).apply true r).reload = (AdminOp.rmDoor name).apply true r ↔
      (r.doorList.filter fun door => door.1 = name).length ≤ 1 := by
  obtain ⟨hdoors, hnames, huids⟩ := r.reload_eq_iff.mp h
  cases hname : r.doors name with
  | none =>
      -- the maps have no such door, so the list has no entry of it
      have hnone : ∀ door ∈ r.doorList, door.1 ≠ name := by
        rw [← hdoors] at hname
        exact (Table.tabulate_eq_none_iff Prod.fst Prod.snd).mp hname
      have hfilter : (r.doorList.filter fun door => door.1 = name) = [] := by
        simpa [List.filter_eq_nil_iff] using hnone
      simpa [AdminOp.apply, hname, hfilter] using h
  | some level =>
      rw [reload_eq_iff]
      simp only [AdminOp.apply, hname, if_true, hnames, huids, and_true]
      rw [← hdoors]
      exact Table.tabulate_eraseP_iff Prod.fst Prod.snd r.doorList name

/-- A user removal is what a restart reloads exactly when no second entry has
the name or the card. -/
theorem reload_rmUser_iff (h : r.reload = r) (name : Str) :
    ((AdminOp.rmUser name).apply true r).reload = (AdminOp.rmUser name).apply true r ↔
      ∀ user ∈ r.usersByName name,
        (r.userList.filter fun u => u.1 = name ∨ u.2.1 = user.1).length ≤ 1 := by
  obtain ⟨hdoors, hnames, huids⟩ := r.reload_eq_iff.mp h
  cases hname : r.usersByName name with
  | none => simpa [AdminOp.apply, hname] using h
  | some user =>
      obtain ⟨uid, level⟩ := user
      rw [reload_eq_iff]
      simp only [AdminOp.apply, hname, if_true, hdoors, true_and, Option.mem_some_iff, forall_eq']
      rw [← hnames] at hname
      rw [← hnames, ← huids]
      exact Table.byFst_bySnd_eraseP_iff hname

end Registry

/-! ## Runs of operations -/

/-- A completed operation keeps a restartable store restartable exactly when it
leaves no entry behind. -/
theorem AdminOp.restartable_commit_iff {s : Store} {r : Registry} (hshows : s.Shows r)
    (op : AdminOp) (hcompletes : op.Completes s) (h : s.Restartable) :
    (op.commit s).Restartable ↔ op.Sole s := by
  have hreload : r.reload = r := hshows.startup_eq_iff.mp h
  have hcommit : (op.commit s).Shows (op.apply true r) := by
    have hrun := hshows.run true op
    rw [show (op.run true s).thrown = none from hcompletes] at hrun
    exact hrun
  rw [Store.Restartable, hcommit.startup_eq_iff]
  cases op with
  | newDoor name accessLevel =>
      exact iff_of_true (Registry.reload_newDoor hreload name accessLevel) trivial
  | newUser name accessLevel uid =>
      exact iff_of_true (Registry.reload_newUser hreload name accessLevel uid) trivial
  | rmDoor name =>
      rw [Registry.reload_rmDoor_iff hreload, Sole, hshows.doorList_eq]
  | rmUser name =>
      rw [Registry.reload_rmUser_iff hreload, Sole, hshows.userList_eq, hshows.usersByName]

/-- **When a restart is transparent.**  From a startup on a file whose lists
have well-formed entries only, a restart rebuilds the maps after every operation
of a run if and only if every removal of the run finds at most one entry to
remove. -/
theorem restartable_iff_sole {configJson : Json}
    (hlists : ∃ doorList userList, configJson.Lists doorList userList) (ops : List AdminOp)
    (hcompletes : Runs.Each AdminOp.commit (fun s op => op.Completes s)
      (load configJson (.doc configJson)) ops) :
    Runs.Along AdminOp.commit Store.Restartable (load configJson (.doc configJson)) ops ↔
      Runs.Each AdminOp.commit (fun s op => op.Sole s) (load configJson (.doc configJson)) ops := by
  obtain ⟨doorList, userList, hlists⟩ := hlists
  have hshows : ∃ r, (load configJson (.doc configJson)).Shows r :=
    ⟨⟨_, _, _, doorList, userList⟩, rfl, rfl, rfl, configJson, rfl, hlists⟩
  refine Runs.along_iff_each (J := fun s => ∃ r, s.Shows r) ?_ ?_ hshows rfl hcompletes
  · rintro s op ⟨r, hr⟩ -
    exact ⟨_, hr.run true op⟩
  · rintro s op ⟨r, hr⟩ hcompletes h
    exact op.restartable_commit_iff hr hcompletes h

/-- A door and a user are entered into an empty file and removed again. -/
theorem restartable_iff_sole_enter_remove :
    Runs.Along AdminOp.commit Store.Restartable (load emptyConfig (.doc emptyConfig))
      [.newDoor (ascii "lab") 2, .newUser (ascii "alice") 3 (ascii "04a1"),
        .rmUser (ascii "alice"), .rmDoor (ascii "lab")] :=
  (restartable_iff_sole ⟨[], [], ⟨[], rfl, .nil⟩, [], rfl, .nil⟩ _ (by decide +kernel)).mpr
    (by decide +kernel)

/-- A user is entered again with a second card and removed: after a restart he is back. -/
theorem not_forall_restartable :
    ¬ ∀ (configJson : Json), (∃ doorList userList, configJson.Lists doorList userList) →
      ((doorEntries configJson).map Prod.fst).Nodup →
      ((userEntries configJson).map fun user => user.1).Nodup →
      ((userEntries configJson).map fun user => user.2.1).Nodup →
      ∀ ops, Runs.Each AdminOp.commit (fun s op => op.Completes s)
          (load configJson (.doc configJson)) ops →
        (Runs.final AdminOp.commit (load configJson (.doc configJson)) ops).Restartable := by
  intro h
  have hrun := h emptyConfig ⟨[], [], ⟨[], rfl, .nil⟩, [], rfl, .nil⟩ (by decide +kernel)
    (by decide +kernel) (by decide +kernel)
    [.newUser (ascii "alice") 1 (ascii "04a1"), .newUser (ascii "alice") 1 (ascii "04b2"),
      .rmUser (ascii "alice")] (by decide +kernel)
  have husers : (loadUsers (.object [(ascii "doors", .array []),
      (ascii "users", .array [userEntry (ascii "alice") 1 (ascii "04b2")])])).1
      (ascii "alice") = none := by
    exact congrFun (congrArg Store.usersByName (Except.ok.inj hrun)) (ascii "alice")
  exact absurd husers (by decide +kernel)

end AsyncNFCServer
