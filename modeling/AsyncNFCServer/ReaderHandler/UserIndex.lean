import AsyncNFCServer.TCP.Process

/-!
# The two user indexes

Users are kept in two maps, `usersByName` for the CLI and `usersByUID` for the
doors.  They mirror each other when loaded from a file without two entries of
one name or one card.  A removal keeps them so; an enrolment overwrites both
maps, and leaves a stale entry behind in one of them whenever the name had
another card or the card another name.
-/

namespace AsyncNFCServer

/-- `usersByName[n] = {u, l}` if and only if `usersByUID[u] = {n, l}`. -/
def Store.Indexed (s : Store) : Prop := Table.Mirror s.usersByName s.usersByUID

/-- An enrolment that reaches the maps finds the name without another card and
the card without another name. -/
def AdminOp.BindsOnce (s : Store) : AdminOp → Prop
  | newUser name _ uid =>
      s.listReadable (ascii "users") = true →
        (∀ user ∈ s.usersByName name, user.1 = uid) ∧ ∀ user ∈ s.usersByUID uid, user.1 = name
  | _ => True

instance (s : Store) : ∀ op : AdminOp, Decidable (op.BindsOnce s)
  | .newUser name _ uid =>
      inferInstanceAs (Decidable (s.listReadable (ascii "users") = true →
        (∀ user ∈ s.usersByName name, user.1 = uid) ∧ ∀ user ∈ s.usersByUID uid, user.1 = name))
  | .newDoor _ _ | .rmDoor _ | .rmUser _ => .isTrue trivial

/-- The event enrols nobody, or binds a name and a card to each other only. -/
def Process.BindsOnce (p : Process) (e : Event) : Prop :=
  ∀ op ∈ p.op e, op.BindsOnce p.store

instance (p : Process) (e : Event) : Decidable (p.BindsOnce e) :=
  inferInstanceAs (Decidable (∀ op ∈ p.op e, op.BindsOnce p.store))

/-- A configuration without two valid user entries of the same name or card. -/
def DistinctUsers (configJson : Json) : Prop :=
  ((userEntries configJson).map fun user => user.1).Nodup ∧
    ((userEntries configJson).map fun user => user.2.1).Nodup

/-- A load from such a configuration mirrors. -/
theorem indexed_load {configJson : Json} (h : DistinctUsers configJson) (config : Content) :
    (load configJson config).Indexed := by
  unfold Store.Indexed load
  rw [loadUsers_eq_tabulate]
  exact Table.mirror_tabulate (userEntries configJson) h.1 h.2

theorem indexed_startup {config : Content} {s : Store} (hstart : startup config = .ok s)
    (hdistinct : ∀ configJson, config = .doc configJson → DistinctUsers configJson) :
    s.Indexed := by
  have hempty : ∀ configJson, userEntries configJson = [] → DistinctUsers configJson := by
    intro configJson hnone
    simp [DistinctUsers, hnone]
  cases config with
  | missing | empty | malformed =>
      obtain rfl := Except.ok.inj hstart
      exact indexed_load (hempty _ rfl) _
  | outOfRange => exact absurd hstart (by simp [startup])
  | doc configJson =>
      obtain rfl := Except.ok.inj hstart
      exact indexed_load (hdistinct configJson rfl) _

/-- An operation on mirrored indexes leaves them mirrored exactly when it binds
no name and no card twice. -/
theorem AdminOp.indexed_run_iff (renames : Bool) (op : AdminOp) {s : Store} (h : s.Indexed) :
    (op.run renames s).store.Indexed ↔ op.BindsOnce s := by
  obtain ⟨config, heq⟩ := op.run_mapped renames s
  have hmapped : (op.run renames s).store.Indexed ↔ (op.mapped s).Indexed := by
    rw [heq]
    exact Iff.rfl
  rw [hmapped]
  cases op with
  | newDoor name accessLevel =>
      simp only [mapped, BindsOnce, iff_true]
      split_ifs
      · exact h
      · exact h
  | rmDoor name =>
      simp only [mapped, BindsOnce, iff_true, forgetDoor]
      cases s.doors name with
      | none => exact h
      | some level => exact h
  | rmUser name =>
      simp only [mapped, BindsOnce, iff_true, forgetUser]
      cases hname : s.usersByName name with
      | none => exact h
      | some user =>
          -- the card that is erased is the partner of the name
          exact Table.Mirror.erase h hname
  | newUser name accessLevel uid =>
      simp only [mapped, BindsOnce]
      by_cases hread : s.listReadable (ascii "users") = true
      · rw [if_pos hread, forall_prop_of_true hread]
        refine (Table.Mirror.insert_iff h name uid (accessLevel.toNat : Int)).trans ?_
        simp only [Option.mem_def, Prod.forall]
      · rw [if_neg hread]
        simpa [hread] using h

theorem Process.indexed_step_iff {p : Process} (h : p.store.Indexed) (e : Event) :
    (p.step e).store.Indexed ↔ p.BindsOnce e := by
  rw [p.step_store e, Process.BindsOnce]
  cases p.op e with
  | none => simpa using h
  | some op => simpa using op.indexed_run_iff e.renames h

/-- **When the two user indexes mirror each other.**  From a startup on a
configuration whose users have distinct names and cards, they do so in every
state of a run if and only if no enrolment of the run gives a name a second card
or a card a second name. -/
theorem indexed_iff_bindsOnce {config : Content} {s : Store} (hstart : startup config = .ok s)
    (hdistinct : ∀ configJson, config = .doc configJson → DistinctUsers configJson)
    (events : List Event) :
    Runs.Along Process.step (fun p => p.store.Indexed) (.start s) events ↔
      Runs.Each Process.step Process.BindsOnce (.start s) events :=
  Runs.along_iff_each_of_forall (J := fun _ : Process => True) (fun _ _ _ => trivial)
    (fun p e _ hp => p.indexed_step_iff hp e) trivial
    (show (Process.start s).store.Indexed from indexed_startup hstart hdistinct) events

/-- A second user is enrolled in a store loaded with one. -/
theorem indexed_iff_bindsOnce_two_users :
    let configJson : Json := .object [(ascii "doors", .array []),
      (ascii "users", .array [userEntry (ascii "bob") 3 (ascii "04b2")])]
    let events : List Event := [.connect .cliServer, .line 0 (ascii "newUser alice 1") true,
      .line 0 (ascii "04a1") true]
    Runs.Along Process.step (fun p => p.store.Indexed)
      (.start (load configJson (.doc configJson))) events := by
  intro configJson events
  have hdistinct : ∀ j, Content.doc configJson = .doc j → DistinctUsers j := by
    rintro j hj
    obtain rfl := Content.doc.inj hj
    exact ⟨by decide +kernel, by decide +kernel⟩
  exact (indexed_iff_bindsOnce rfl hdistinct events).mpr (by decide +kernel)

/-- alice is enrolled with one card and then with another: the first card still
opens doors in her name. -/
theorem not_forall_indexed :
    ¬ ∀ (config : Content) (s : Store), startup config = .ok s →
      (∀ configJson, config = .doc configJson → DistinctUsers configJson) →
      ∀ events, Runs.Along Process.step (fun p => p.store.Indexed) (.start s) events := by
  intro h
  have hrun := h .missing _ rfl (fun _ hdoc => by cases hdoc)
    [.connect .cliServer, .connect .cliServer,
      .line 0 (ascii "newUser alice 1") true, .line 0 (ascii "04a1") true,
      .line 1 (ascii "newUser alice 1") true, .line 1 (ascii "04b2") true]
  have hname := (hrun.final (ascii "alice") (ascii "04a1") 1).mpr (by decide +kernel)
  exact absurd hname (by decide +kernel)

end AsyncNFCServer
