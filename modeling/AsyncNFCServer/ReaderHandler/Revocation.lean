import AsyncNFCServer.ReaderHandler.Registry
import AsyncNFCServer.TCP.Process

/-!
# Revocation

`rmUser` is meant to take a user's card out of service for good.  The history of
an installation is a sequence of `Incident`s: events of the running process, and
restarts.  A card is out of service as long as neither `usersByUID` nor the users
of config.json have it (`Registry.Unbound`), which only an enrolment of the card
ends.

`rmUser` unbinds one card and removes one entry.  `revoked_iff` says when that
is enough: the card is not bound by `usersByUID` while the name has another one,
and no entry of the file has it apart from the first of the name.
-/

namespace AsyncNFCServer

/-! ## Installations -/

/-- What happens to an installation. -/
inductive Incident where
  | event (e : Event)
  | restart

/-- File writes succeed. -/
def Incident.Saves : Incident → Prop
  | event e => e.renames = true
  | restart => True

instance : ∀ i : Incident, Decidable i.Saves
  | .event e => inferInstanceAs (Decidable (e.renames = true))
  | .restart => .isTrue trivial

/-- The name and the card that an operation enrols, if any. -/
def AdminOp.enrols : AdminOp → Option (Str × Str)
  | newUser name _ uid => some (name, uid)
  | _ => none

namespace Process

/-- The process over a store that was loaded without a config.json. -/
def startEmpty : Process := .start (load .null (.doc emptyConfig))

/-- One incident.  A restart keeps nothing but the file; no server runs after
one whose constructor throws. -/
def next (p : Process) : Incident → Process
  | .event e => p.step e
  | .restart =>
      match startup p.store.config with
      | .ok s => .start s
      | .error _ => { p with running := false }

/-- The operation on the store that an incident performs, if any. -/
def incidentOp (p : Process) : Incident → Option AdminOp
  | .event e => p.op e
  | .restart => none

/-- The name and the card that an incident enrols, if any. -/
def enrols (p : Process) (i : Incident) : Option (Str × Str) :=
  (p.incidentOp i).bind AdminOp.enrols

/-- The card is enrolled under the name only, and file writes succeed. -/
def EnrolsUnder (name uid : Str) (p : Process) (i : Incident) : Prop :=
  i.Saves ∧ ∀ user ∈ p.enrols i, user.2 = uid → user.1 = name

/-- The incident enrols neither the name nor the card, and file writes succeed. -/
def Spares (name uid : Str) (p : Process) (i : Incident) : Prop :=
  i.Saves ∧ ∀ user ∈ p.enrols i, user.1 ≠ name ∧ user.2 ≠ uid

instance (name uid : Str) (p : Process) (i : Incident) : Decidable (p.EnrolsUnder name uid i) :=
  inferInstanceAs (Decidable (i.Saves ∧ ∀ user ∈ p.enrols i, user.2 = uid → user.1 = name))

end Process

/-! ## What a door client is answered -/

theorem authorized_iff (s : Store) (uid : Str) (doorLevel : Int) :
    authorized s uid doorLevel = true ↔
      ∃ user, s.usersByUID uid = some user ∧ doorLevel ≤ user.2 := by
  unfold authorized
  cases huser : s.usersByUID uid with
  | none => simp
  | some user => simp

/-- The answer is `Approved` when the door and the card are known and the level
of the card suffices. -/
theorem handleClient_approved_iff {request door uid : Str}
    (hrequest : parsePackage request = some (door, uid)) (s : Store) :
    (handleClient request s).replies = [ascii "Approved"] ↔
      ∃ level user, s.doors door = some level ∧ s.usersByUID uid = some user ∧ level ≤ user.2 := by
  simp only [handleClient, hrequest, lookup, List.cons.injEq, and_true]
  cases hdoor : s.doors door with
  | none => simpa using by decide
  | some level =>
      by_cases hauthorized : authorized s uid level = true
      · simpa [hauthorized] using (authorized_iff s uid level).mp hauthorized
      · have hnone := mt (authorized_iff s uid level).mpr hauthorized
        simp only [hauthorized, Bool.false_eq_true, if_false, Option.some.injEq,
          exists_and_left, exists_eq_left']
        exact iff_of_false (by decide) hnone

/-! ## Cards that are out of service -/

namespace Registry

/-- The card is bound neither by the maps nor by the list of users. -/
def Unbound (uid : Str) (r : Registry) : Prop :=
  r.usersByUID uid = none ∧ ∀ user ∈ r.userList, user.2.1 ≠ uid

/-- No user has a negative access level. -/
def NonNegative (r : Registry) : Prop :=
  (∀ uid user, r.usersByUID uid = some user → 0 ≤ user.2) ∧ ∀ user ∈ r.userList, 0 ≤ user.2.2

variable {r : Registry}

/-- Every card that is bound, by the maps or by the list, meets `P` together with
its name and level. -/
def AllUsers (P : Str → Str × Int → Prop) (r : Registry) : Prop :=
  (∀ uid user, r.usersByUID uid = some user → P uid user) ∧
    ∀ entry ∈ r.userList, P entry.2.1 (entry.1, entry.2.2)

variable {P : Str → Str × Int → Prop}

theorem AllUsers.reload (h : r.AllUsers P) : r.reload.AllUsers P := by
  refine ⟨?_, h.2⟩
  intro uid user huser
  obtain ⟨entry, hentry, rfl, rfl⟩ := Table.exists_of_tabulate _ _ huser
  exact h.2 entry hentry

/-- Only an enrolment binds a card that was not bound before. -/
theorem AllUsers.apply (h : r.AllUsers P) (saved : Bool) (op : AdminOp)
    (hop : ∀ name accessLevel uid, op = .newUser name accessLevel uid →
      P uid (name, (accessLevel.toNat : Int))) : (op.apply saved r).AllUsers P := by
  cases op with
  | newDoor name accessLevel => exact h
  | rmDoor name =>
      simp only [AdminOp.apply]
      cases r.doors name with
      | none => exact h
      | some level => exact h
  | rmUser name =>
      simp only [AdminOp.apply]
      cases r.usersByName name with
      | none => exact h
      | some user =>
          refine ⟨?_, ?_⟩
          · intro uid other hother
            simp only [Table.erase_apply] at hother
            split_ifs at hother
            exact h.1 uid other hother
          · cases saved with
            | false => exact h.2
            | true => exact fun entry hentry => h.2 entry (List.mem_of_mem_eraseP hentry)
  | newUser name accessLevel uid' =>
      have henrolled := hop name accessLevel uid' rfl
      refine ⟨?_, ?_⟩
      · intro uid other hother
        simp only [AdminOp.apply, Table.insert_apply] at hother
        split_ifs at hother with huid
        · rw [huid, ← Option.some.inj hother]
          exact henrolled
        · exact h.1 uid other hother
      · cases saved with
        | false => exact h.2
        | true =>
            intro entry hentry
            rcases List.mem_append.mp hentry with hold | hnew
            · exact h.2 entry hold
            · rw [List.mem_singleton.mp hnew]
              exact henrolled

theorem unbound_iff_allUsers {uid : Str} :
    r.Unbound uid ↔ r.AllUsers fun uid' _ => uid' ≠ uid := by
  refine and_congr_left fun _ => ⟨?_, ?_⟩
  · rintro hnone uid' user huser rfl
    rw [hnone] at huser
    exact absurd huser (by simp)
  · intro hnot
    by_contra hbound
    obtain ⟨user, huser⟩ := Option.ne_none_iff_exists'.mp hbound
    exact hnot uid user huser rfl

theorem Unbound.reload {uid : Str} (h : r.Unbound uid) : r.reload.Unbound uid :=
  unbound_iff_allUsers.mpr (unbound_iff_allUsers.mp h).reload

theorem Unbound.apply {uid : Str} (h : r.Unbound uid) (saved : Bool) (op : AdminOp)
    (hop : ∀ user ∈ op.enrols, user.2 ≠ uid) : (op.apply saved r).Unbound uid := by
  refine unbound_iff_allUsers.mpr ((unbound_iff_allUsers.mp h).apply saved op ?_)
  rintro name accessLevel uid' rfl
  exact hop _ rfl

theorem NonNegative.reload (h : r.NonNegative) : r.reload.NonNegative :=
  AllUsers.reload (P := fun _ user => 0 ≤ user.2) h

/-- Access levels are unsigned. -/
theorem NonNegative.apply (h : r.NonNegative) (saved : Bool) (op : AdminOp) :
    (op.apply saved r).NonNegative :=
  AllUsers.apply (P := fun _ user => 0 ≤ user.2) h saved op fun _ _ _ _ => Int.natCast_nonneg _

end Registry

/-! ## Incidents on the registry -/

/-- What an incident does to the registry the store shows: nothing, an
operation, or a reload. -/
theorem Process.next_shows {p : Process} {r : Registry} (h : p.store.Shows r) (i : Incident) :
    ∃ r', (p.next i).store.Shows r' ∧
      (r' = r ∨ r' = r.reload ∨
        ∃ op saved, p.incidentOp i = some op ∧ r' = op.apply saved r) := by
  cases i with
  | event e =>
      cases hop : p.op e with
      | none =>
          refine ⟨r, ?_, Or.inl rfl⟩
          rw [Process.next, p.step_store e, hop]
          exact h
      | some op =>
          refine ⟨op.apply (op.run e.renames p.store).thrown.isNone r, ?_,
            Or.inr (Or.inr ⟨op, _, hop, rfl⟩)⟩
          rw [Process.next, p.step_store e, hop]
          exact h.run e.renames op
  | restart =>
      obtain ⟨s, hstart, hs⟩ := h.startup
      refine ⟨r.reload, ?_, Or.inr (Or.inl rfl)⟩
      rw [Process.next, hstart]
      exact hs

/-- The stores an installation goes through show a registry without negative
levels. -/
theorem Process.shows_history (history : List Incident) :
    ∃ r, (Runs.final Process.next .startEmpty history).store.Shows r ∧ r.NonNegative := by
  refine Runs.invariant_final_of_forall
    (J := fun p : Process => ∃ r : Registry, p.store.Shows r ∧ r.NonNegative) ?_ ?_ history
  · rintro p i ⟨r, hshows, hlevels⟩
    obtain ⟨r', hshows', rfl | rfl | ⟨op, saved, -, rfl⟩⟩ := Process.next_shows hshows i
    · exact ⟨r', hshows', hlevels⟩
    · exact ⟨_, hshows', hlevels.reload⟩
    · exact ⟨_, hshows', hlevels.apply saved op⟩
  · refine ⟨⟨Table.empty, Table.empty, Table.empty, [], []⟩, ⟨rfl, rfl, rfl, ?_⟩, ?_⟩
    · exact ⟨emptyConfig, rfl, ⟨[], rfl, .nil⟩, [], rfl, .nil⟩
    · exact ⟨fun uid user h => by simp at h, fun user h => by simp at h⟩

/-- A card out of service stays so while nobody enrols it. -/
theorem Process.unbound_later {name uid : Str} {p : Process} {later : List Incident}
    (h : ∃ r, p.store.Shows r ∧ r.Unbound uid)
    (hlater : Runs.Each Process.next (Process.Spares name uid) p later) :
    ∃ r, (Runs.final Process.next p later).store.Shows r ∧ r.Unbound uid := by
  refine Runs.invariant_final
    (J := fun p : Process => ∃ r : Registry, p.store.Shows r ∧ r.Unbound uid) ?_ h hlater
  rintro p i ⟨r, hshows, hunbound⟩ ⟨-, hspares⟩
  obtain ⟨r', hshows', rfl | rfl | ⟨op, saved, hop, rfl⟩⟩ := Process.next_shows hshows i
  · exact ⟨r', hshows', hunbound⟩
  · exact ⟨_, hshows', hunbound.reload⟩
  · refine ⟨_, hshows', hunbound.apply saved op ?_⟩
    intro user huser
    exact (hspares user (by rw [Process.enrols, hop]; exact huser)).2

/-- A card that the maps bind opens the next door that is entered with level 0. -/
theorem Process.approved_after_newDoor (name : Str) {uid : Str} {p : Process} {r : Registry}
    (hrunning : p.running = true) (hshows : p.store.Shows r) (hlevels : r.NonNegative)
    (hbound : r.usersByUID uid ≠ none) :
    ∃ later, Runs.Each Process.next (Process.Spares name uid) p later ∧
      ∀ request, parsePackage request = some (ascii "d", uid) →
        (handleClient request (Runs.final Process.next p later).store).replies =
          [ascii "Approved"] := by
  obtain ⟨user, huser⟩ := Option.ne_none_iff_exists'.mp hbound
  have hconnect : p.next (.event (.connect .cliServer)) =
      { p with connections := p.connections ++ [Server.cliServer.accept] } := by
    simp [Process.next, Process.step, hrunning]
  have hop : (p.next (.event (.connect .cliServer))).op
      (.line p.connections.length (ascii "newDoor d 0") true) = some (.newDoor (ascii "d") 0) := by
    rw [hconnect]
    simp only [Process.op, Process.handler?, hrunning, if_true, List.getElem?_concat_length]
    decide +kernel
  -- the administrator connects once more and enters a door
  refine ⟨[.event (.connect .cliServer),
    .event (.line p.connections.length (ascii "newDoor d 0") true)],
    ⟨⟨rfl, ?_⟩, ⟨rfl, ?_⟩, trivial⟩, ?_⟩
  · intro user huser
    exact absurd huser (by simp [Process.enrols, Process.incidentOp, Process.op])
  · intro user huser
    rw [Process.enrols, Process.incidentOp, hop] at huser
    exact absurd huser (by simp [AdminOp.enrols])
  · intro request hrequest
    have hstore : (Runs.final Process.next p [.event (.connect .cliServer),
        .event (.line p.connections.length (ascii "newDoor d 0") true)]).store =
          ((AdminOp.newDoor (ascii "d") 0).run true p.store).store := by
      rw [Runs.final_cons, Runs.final_cons, Runs.final_nil, Process.next, Process.step_store, hop,
        hconnect]
      rfl
    have hafter := hshows.run true (.newDoor (ascii "d") 0)
    rw [handleClient_approved_iff hrequest, hstore, hafter.doors, hafter.usersByUID]
    exact ⟨0, user, by simp [AdminOp.apply], huser, hlevels.1 uid user huser⟩

/-- A card that is not out of service will open a door. -/
theorem Process.approved_of_not_unbound (name : Str) {uid : Str} {p : Process} {r : Registry}
    (hrunning : p.running = true) (hshows : p.store.Shows r) (hlevels : r.NonNegative)
    (hbound : ¬ r.Unbound uid) :
    ∃ later, Runs.Each Process.next (Process.Spares name uid) p later ∧
      ∀ request, parsePackage request = some (ascii "d", uid) →
        (handleClient request (Runs.final Process.next p later).store).replies =
          [ascii "Approved"] := by
  by_cases hmaps : r.usersByUID uid = none
  · -- the file has the card, so it is bound again after a restart
    have hlist : r.reload.usersByUID uid ≠ none := by
      intro hnone
      exact hbound ⟨hmaps, (Table.tabulate_eq_none_iff _ _).mp hnone⟩
    obtain ⟨s, hstart, hs⟩ := hshows.startup
    have hrestart : p.next .restart = .start s := by rw [Process.next, hstart]
    obtain ⟨later, hspares, happroved⟩ := Process.approved_after_newDoor name
      (p := .start s) rfl hs hlevels.reload hlist
    refine ⟨.restart :: later, ⟨⟨trivial, fun _ h => by cases h⟩, ?_⟩, ?_⟩
    · rw [hrestart]
      exact hspares
    · rw [Runs.final_cons, hrestart]
      exact happroved
  · exact Process.approved_after_newDoor name hrunning hshows hlevels hmaps

/-! ## Removals -/

/-- `usersByUID` does not have the card unless it is the card of the name in
`usersByName`, and no entry of the file has it apart from the first of the name. -/
def Store.SoleCard (s : Store) (name uid : Str) : Prop :=
  (∀ user ∈ s.usersByName name, s.usersByUID uid ≠ none → user.1 = uid) ∧
    ∀ user ∈ s.config.userList.eraseP fun user => user.1 = name, user.2.1 ≠ uid

instance (s : Store) (name uid : Str) : Decidable (s.SoleCard name uid) :=
  inferInstanceAs (Decidable
    ((∀ user ∈ s.usersByName name, s.usersByUID uid ≠ none → user.1 = uid) ∧
      ∀ user ∈ s.config.userList.eraseP fun user => user.1 = name, user.2.1 ≠ uid))

/-- An answered removal has found the name and has completed. -/
theorem AdminOp.rmUser_answered {name answer : Str} {renames : Bool} {s : Store}
    (h : ((AdminOp.rmUser name).run renames s).replies = [answer]) :
    (∃ user, s.usersByName name = some user) ∧
      ((AdminOp.rmUser name).run renames s).thrown = none := by
  simp only [AdminOp.run] at h ⊢
  rcases removeEntry_cases renames (ascii "users") name (ascii "User Removed Successfully")
      (forgetUser name) s with
    ⟨hforget, heq⟩ | ⟨s', hforget, ⟨e, heq⟩ | ⟨edited, -, -, -, heq⟩⟩
  · rw [heq] at h
    exact absurd h (by simp)
  · rw [heq] at h
    exact absurd h (by simp)
  · refine ⟨Option.ne_none_iff_exists'.mp ?_, by rw [heq]⟩
    intro hnone
    simp [forgetUser, hnone] at hforget

/-- What a removal leaves of a card. -/
theorem Store.Shows.unbound_rmUser_iff {s : Store} {r : Registry} (h : s.Shows r)
    {name uid : Str} (hknown : ∃ user, s.usersByName name = some user) :
    ((AdminOp.rmUser name).apply true r).Unbound uid ↔ s.SoleCard name uid := by
  obtain ⟨user, huser⟩ := hknown
  have hr : r.usersByName name = some user := by rw [← h.usersByName, huser]
  simp only [AdminOp.apply, hr, if_true, Registry.Unbound, Store.SoleCard, huser, h.userList_eq,
    h.usersByUID, Option.mem_some_iff, forall_eq', Table.erase_apply]
  refine and_congr_left fun _ => ?_
  by_cases hcard : uid = user.1
  · simp [hcard]
  · simp [hcard, Ne.symm hcard]

/-- **When a removal revokes a card.**  After an answered `rmUser`, no door
request with the card is approved in any continuation without a new enrolment of
the name or the card if and only if the removal found the card nowhere but where
it removes it, or the card is the empty string, which no request can carry. -/
theorem revoked_iff (history : List Incident) (connection : Nat) (pkg name uid : Str)
    (hop : (Runs.final Process.next .startEmpty history).op (.line connection pkg true) =
      some (.rmUser name))
    (hanswer : (Runs.final Process.next .startEmpty history).replies (.line connection pkg true) =
      [ascii "User Removed Successfully"]) :
    (∀ later, Runs.Each Process.next (Process.Spares name uid)
          ((Runs.final Process.next .startEmpty history).step (.line connection pkg true)) later →
        ∀ request door, parsePackage request = some (door, uid) →
          (handleClient request (Runs.final Process.next
            ((Runs.final Process.next .startEmpty history).step (.line connection pkg true))
            later).store).replies ≠ [ascii "Approved"]) ↔
      uid = [] ∨ (Runs.final Process.next .startEmpty history).store.SoleCard name uid := by
  obtain ⟨r, hshows, hlevels⟩ := Process.shows_history history
  generalize Runs.final Process.next .startEmpty history = p at hop hanswer hshows ⊢
  obtain ⟨hreplies, -, hrunning⟩ := Process.replies_of_op hop
  rw [hreplies] at hanswer
  obtain ⟨hknown, hthrown⟩ := AdminOp.rmUser_answered hanswer
  -- the store after the removal
  have hremoved : (p.step (.line connection pkg true)).store.Shows
      ((AdminOp.rmUser name).apply true r) := by
    have hrun := hshows.run true (.rmUser name)
    rw [show ((AdminOp.rmUser name).run true p.store).thrown = none from hthrown] at hrun
    rw [p.step_store, hop]
    exact hrun
  rw [← hshows.unbound_rmUser_iff hknown]
  generalize p.step (.line connection pkg true) = p' at hremoved hrunning ⊢
  constructor
  · intro hrevoked
    by_cases huid : uid = []
    · exact Or.inl huid
    · refine Or.inr ?_
      by_contra hbound
      obtain ⟨later, hspares, happroved⟩ := Process.approved_of_not_unbound name hrunning
        hremoved (hlevels.apply true (.rmUser name)) hbound
      have hrequest : parsePackage (ascii "d" ++ colon :: uid) = some (ascii "d", uid) :=
        parsePackage_append (by decide) (by decide) huid
      exact hrevoked later hspares _ _ hrequest (happroved _ hrequest)
  · rintro hunbound later hspares request door hrequest happroved
    have huid : uid ≠ [] := (eq_of_parsePackage hrequest).2.2.2
    obtain ⟨r', hshows', hunbound'⟩ :=
      Process.unbound_later ⟨_, hremoved, hunbound.resolve_left huid⟩ hspares
    obtain ⟨level, user, -, huser, -⟩ := (handleClient_approved_iff hrequest _).mp happroved
    rw [hshows'.usersByUID, hunbound'.1] at huser
    exact absurd huser (by simp)

/-- alice is enrolled once and removed. -/
theorem revoked_iff_enrolled_once :
    let p := Runs.final Process.next .startEmpty
      [.event (.connect .cliServer), .event (.line 0 (ascii "newUser alice 1") true),
        .event (.line 0 (ascii "04a1") true)]
    ∀ later, Runs.Each Process.next (Process.Spares (ascii "alice") (ascii "04a1"))
        (p.step (.line 0 (ascii "rmUser alice") true)) later →
      ∀ request door, parsePackage request = some (door, ascii "04a1") →
        (handleClient request (Runs.final Process.next
          (p.step (.line 0 (ascii "rmUser alice") true)) later).store).replies ≠
            [ascii "Approved"] :=
  (revoked_iff _ 0 (ascii "rmUser alice") _ _ (by decide +kernel) (by decide +kernel)).mpr
    (Or.inr (by decide +kernel))

/-- alice is enrolled with a card, then with another one, and removed: the first
card is still approved. -/
theorem not_forall_revoked :
    ¬ ∀ (history : List Incident) (connection : Nat) (pkg name uid : Str),
      Runs.Each Process.next (Process.EnrolsUnder name uid) .startEmpty history →
      (Runs.final Process.next .startEmpty history).op (.line connection pkg true) =
        some (.rmUser name) →
      (Runs.final Process.next .startEmpty history).replies (.line connection pkg true) =
        [ascii "User Removed Successfully"] →
      ∀ later, Runs.Each Process.next (Process.Spares name uid)
          ((Runs.final Process.next .startEmpty history).step (.line connection pkg true)) later →
        ∀ request door, parsePackage request = some (door, uid) →
          (handleClient request (Runs.final Process.next
            ((Runs.final Process.next .startEmpty history).step (.line connection pkg true))
            later).store).replies ≠ [ascii "Approved"] := by
  intro h
  exact h [.event (.connect .cliServer), .event (.line 0 (ascii "newDoor lab 1") true),
      .event (.connect .cliServer), .event (.line 1 (ascii "newUser alice 1") true),
      .event (.line 1 (ascii "04a1") true), .event (.connect .cliServer),
      .event (.line 2 (ascii "newUser alice 1") true), .event (.line 2 (ascii "04b2") true)]
    0 (ascii "rmUser alice") (ascii "alice") (ascii "04a1") (by decide +kernel) (by decide +kernel)
    (by decide +kernel) [] trivial (ascii "lab:04a1") (ascii "lab") (by decide +kernel)
    (by decide +kernel)

end AsyncNFCServer
