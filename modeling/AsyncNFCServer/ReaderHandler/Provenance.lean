import AsyncNFCServer.ReaderHandler.Revocation

/-!
# Where an approval comes from

What the maps and config.json hold has been there from the start or has been entered by an
operation, and no failed write, no restart and no removal makes anything else of it.
So an approval has two grounds: the door was entered with some level, and the card
was entered with a level that suffices (`Process.approved_entered`).  Levels are compared as
they are stored: `newDoor` and `newUser` keep the numeral modulo 256.
-/

namespace Runs

variable {σ ι : Type*} {step : σ → ι → σ}

/-- `Each` read input by input. -/
theorem each_iff_forall_split {C : σ → ι → Prop} {s : σ} {is : List ι} :
    Each step C s is ↔ ∀ pre i post, is = pre ++ i :: post → C (final step s pre) i := by
  induction is generalizing s with
  | nil => simp [Each]
  | cons j is ih =>
      rw [Each, ih]
      constructor
      · rintro ⟨hnow, hlater⟩ pre i post hsplit
        cases pre with
        | nil =>
            obtain ⟨rfl, -⟩ := List.cons_eq_cons.mp hsplit
            exact hnow
        | cons j' pre =>
            obtain ⟨rfl, htail⟩ := List.cons_eq_cons.mp hsplit
            exact hlater pre i post htail
      · intro h
        exact ⟨h [] j is rfl, fun pre i post hsplit => h (j :: pre) i post (by rw [hsplit]; rfl)⟩

end Runs

namespace AsyncNFCServer

/-! ## Doors -/

namespace Registry

/-- Every door that is there, in the maps or in the list, meets `P` together with its
level. -/
def AllDoors (P : Str → Int → Prop) (r : Registry) : Prop :=
  (∀ door level, r.doors door = some level → P door level) ∧ ∀ entry ∈ r.doorList, P entry.1 entry.2

variable {r : Registry} {P : Str → Int → Prop}

theorem AllDoors.reload (h : r.AllDoors P) : r.reload.AllDoors P := by
  refine ⟨?_, h.2⟩
  intro door level hdoor
  obtain ⟨entry, hentry, rfl, rfl⟩ := Table.exists_of_tabulate _ _ hdoor
  exact h.2 entry hentry

/-- Only `newDoor` enters a door. -/
theorem AllDoors.apply (h : r.AllDoors P) (saved : Bool) (op : AdminOp)
    (hop : ∀ door accessLevel, op = .newDoor door accessLevel → P door (accessLevel.toNat : Int)) :
    (op.apply saved r).AllDoors P := by
  cases op with
  | newUser name accessLevel uid => exact h
  | rmUser name =>
      simp only [AdminOp.apply]
      cases r.usersByName name with
      | none => exact h
      | some user => exact h
  | rmDoor name =>
      simp only [AdminOp.apply]
      cases r.doors name with
      | none => exact h
      | some removed =>
          refine ⟨?_, ?_⟩
          · intro door level hdoor
            simp only [Table.erase_apply] at hdoor
            split_ifs at hdoor
            exact h.1 door level hdoor
          · cases saved with
            | false => exact h.2
            | true => exact fun entry hentry => h.2 entry (List.mem_of_mem_eraseP hentry)
  | newDoor name accessLevel =>
      have hentered := hop name accessLevel rfl
      refine ⟨?_, ?_⟩
      · intro door level hdoor
        simp only [AdminOp.apply, Table.insert_apply] at hdoor
        split_ifs at hdoor with hname
        · rw [hname, ← Option.some.inj hdoor]
          exact hentered
        · exact h.1 door level hdoor
      · cases saved with
        | false => exact h.2
        | true =>
            intro entry hentry
            rcases List.mem_append.mp hentry with hold | hnew
            · exact h.2 entry hold
            · rw [List.mem_singleton.mp hnew]
              exact hentered

end Registry

/-! ## Grounds -/

namespace Process

/-- The operation is among those of the history. -/
def Ran (p : Process) (history : List Incident) (op : AdminOp) : Prop :=
  ∃ pre i post, history = pre ++ i :: post ∧
    (Runs.final Process.next p pre).incidentOp i = some op

/-- The door was in the file at the start, or has been entered since, with this level. -/
def DoorEntered (doorList : List (Str × Int)) (p : Process) (history : List Incident) (door : Str)
    (level : Int) : Prop :=
  (door, level) ∈ doorList ∨
    ∃ accessLevel : UInt8, p.Ran history (.newDoor door accessLevel) ∧ level = accessLevel.toNat

/-- The card was in the file at the start, or has been entered since, for this user with
this level. -/
def CardEntered (userList : List (Str × Str × Int)) (p : Process) (history : List Incident)
    (uid : Str) (user : Str × Int) : Prop :=
  (user.1, uid, user.2) ∈ userList ∨
    ∃ accessLevel : UInt8, p.Ran history (.newUser user.1 accessLevel uid) ∧
      user.2 = accessLevel.toNat

variable {doorList : List (Str × Int)} {userList : List (Str × Str × Int)}

/-- What a history has entered is all that there is after it. -/
theorem entered_history {p : Process} {r : Registry} (history : List Incident)
    (hshows : p.store.Shows r) (hdoors : r.AllDoors (DoorEntered doorList p history))
    (husers : r.AllUsers (CardEntered userList p history)) :
    ∃ r', (Runs.final Process.next p history).store.Shows r' ∧
      r'.AllDoors (DoorEntered doorList p history) ∧
      r'.AllUsers (CardEntered userList p history) := by
  have hran :
      Runs.Each Process.next (fun q i => ∀ op, q.incidentOp i = some op → p.Ran history op) p
      history :=
    Runs.each_iff_forall_split.mpr fun pre i post hsplit op hop => ⟨pre, i, post, hsplit, hop⟩
  refine Runs.invariant_final (J := fun q : Process => ∃ r' : Registry, q.store.Shows r' ∧
    r'.AllDoors (DoorEntered doorList p history) ∧ r'.AllUsers (CardEntered userList p history))
    ?_ ⟨r, hshows, hdoors, husers⟩ hran
  rintro q i ⟨r', hshows', hdoors', husers'⟩ hop
  obtain ⟨r'', hshows'', rfl | rfl | ⟨op, saved, hincident, rfl⟩⟩ := Process.next_shows hshows' i
  · exact ⟨r'', hshows'', hdoors', husers'⟩
  · exact ⟨_, hshows'', hdoors'.reload, husers'.reload⟩
  · have hgrounds := hop op hincident
    refine ⟨_, hshows'', hdoors'.apply saved op ?_, husers'.apply saved op ?_⟩
    · rintro door accessLevel rfl
      exact Or.inr ⟨accessLevel, hgrounds, rfl⟩
    · rintro name accessLevel uid rfl
      exact Or.inr ⟨accessLevel, hgrounds, rfl⟩

/-- **Nobody gets in by what nobody has entered.**  After any history of lines, failed writes
and restarts, a door client is answered `Approved` only if the door has been entered
with some level, and the card for some user with a level that, as stored, is not lower. -/
theorem approved_entered {configJson : Json} (hlists : configJson.Lists doorList userList)
    (history : List Incident) {request door uid : Str}
    (hrequest : parsePackage request = some (door, uid))
    (happroved : (handleClient request (Runs.final Process.next
      (.start (load configJson (.doc configJson))) history).store).replies = [ascii "Approved"]) :
    ∃ level user, level ≤ user.2 ∧
      DoorEntered doorList (.start (load configJson (.doc configJson))) history door level ∧
      CardEntered userList (.start (load configJson (.doc configJson))) history uid user := by
  have hshows : (load configJson (.doc configJson)).Shows
      (Registry.reload ⟨Table.empty, Table.empty, Table.empty, doorList, userList⟩) := by
    refine ⟨?_, ?_, ?_, configJson, rfl, hlists⟩
    · simp only [load, loadDoors_eq_tabulate, hlists.doorEntries, Registry.reload]
    · simp only [load, loadUsers_eq_tabulate, hlists.userEntries, Registry.reload]
    · simp only [load, loadUsers_eq_tabulate, hlists.userEntries, Registry.reload]
  have hdoors : Registry.AllDoors
      (DoorEntered doorList (.start (load configJson (.doc configJson))) history)
      ⟨Table.empty, Table.empty, Table.empty, doorList, userList⟩ :=
    ⟨fun _ _ h => by simp at h, fun _ hentry => Or.inl hentry⟩
  have husers : Registry.AllUsers
      (CardEntered userList (.start (load configJson (.doc configJson))) history)
      ⟨Table.empty, Table.empty, Table.empty, doorList, userList⟩ :=
    ⟨fun _ _ h => by simp at h, fun _ hentry => Or.inl hentry⟩
  obtain ⟨r, hr, hdoors', husers'⟩ := entered_history history
    (p := .start (load configJson (.doc configJson))) hshows hdoors.reload husers.reload
  obtain ⟨level, user, hdoor, huser, hle⟩ := (handleClient_approved_iff hrequest _).mp happroved
  rw [hr.doors] at hdoor
  rw [hr.usersByUID] at huser
  exact ⟨level, user, hle, hdoors'.1 door level hdoor, husers'.1 uid user huser⟩

/-- A file with a door and a user, and a history in which the server is restarted and an
administrator enters another door. -/
def labFile : Json :=
  .object [(ascii "doors", .array [doorEntry (ascii "lab") 2]),
    (ascii "users", .array [userEntry (ascii "alice") 3 (ascii "04a1")])]

def labHistory : List Incident :=
  [.restart, .event (.connect .cliServer), .event (.line 0 (ascii "newDoor gym 1") true)]

theorem lists_labFile :
    labFile.Lists [(ascii "lab", 2)] [(ascii "alice", ascii "04a1", 3)] :=
  ⟨⟨[doorEntry (ascii "lab") 2], rfl, .cons (doorFields_doorEntry _ 2) .nil⟩,
    [userEntry (ascii "alice") 3 (ascii "04a1")], rfl, .cons (userFields_userEntry _ 3 _) .nil⟩

/-- A door that was entered, and a card of the file. -/
theorem approved_entered_lab : ∃ level user, level ≤ user.2 ∧
    DoorEntered [(ascii "lab", 2)] (.start (load labFile (.doc labFile))) labHistory (ascii "gym")
      level ∧
    CardEntered [(ascii "alice", ascii "04a1", 3)] (.start (load labFile (.doc labFile))) labHistory
      (ascii "04a1") user :=
  approved_entered lists_labFile labHistory
    (show parsePackage (ascii "gym:04a1") = some (ascii "gym", ascii "04a1") by decide +kernel)
    (by decide +kernel)

end Process

end AsyncNFCServer
