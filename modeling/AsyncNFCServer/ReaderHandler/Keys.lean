import AsyncNFCServer.ReaderHandler.Commands
import AsyncNFCServer.ReaderHandler.Registry
import AsyncNFCServer.ReaderHandler.Saving
import AsyncNFCServer.TCP.Framing
import AsyncNFCServer.TCP.Process

/-!
# The keys of the maps

Keys come into the maps in three ways.  The load takes the strings of config.json
as they are; `newDoor` and `newUser` normalise the name of their line; the UID of
a user is the whole line that answers `newUser`.  So after a run the names are
canonical exactly if those of the file were (`canonicalKeys_iff`), and a door and
a card can be named in a door client's package unless the file or an empty UID
line has spoilt them (`addressable_iff`).
-/

namespace AsyncNFCServer

/-! ## Names of commands -/

/-- The canonical form of a name that the additions accept. -/
def CommandName (name : Str) : Prop :=
  ∃ written, RunOf isWordByte written ∧ toSnakeCase written = name

theorem CommandName.canonical {name : Str} (h : CommandName name) : toSnakeCase name = name := by
  obtain ⟨written, -, rfl⟩ := h
  exact toSnakeCase_toSnakeCase written

theorem isWordByte_toLower {c : Byte} (h : isWordByte c = true) :
    isWordByte (toLower c) = true := by
  by_cases hupper : isUpper c = true
  · have hrange := isUpper_iff.mp hupper
    have hlower : isLower (toLower c) = true := by
      rw [isLower_iff, toNat_toLower hupper]
      omega
    simp [isWordByte, isLetterOrUnderscore, hlower]
  · rw [toLower, if_neg hupper]
    exact h

theorem CommandName.runOf {name : Str} (h : CommandName name) : RunOf isWordByte name := by
  obtain ⟨written, ⟨hne, hword⟩, rfl⟩ := h
  refine ⟨?_, forall_mem_snakeFrom (P := fun b => isWordByte b = true) rfl
    (fun b hb => isWordByte_toLower (hword b hb)) none⟩
  intro hnil
  have hsublist := sublist_snakeFrom none written
  rw [show snakeFrom none written = [] from hnil, List.sublist_nil, List.map_eq_nil_iff] at hsublist
  exact hne hsublist

theorem commandName_of_addSyntax {command line name numeral : Str}
    (h : addSyntax command line = some (name, numeral)) : CommandName (toSnakeCase name) := by
  obtain ⟨gap, gap', -, -, hname, -⟩ := addSyntax_eq_some_iff.mp h
  exact ⟨name, hname, rfl⟩

/-- The name of an addition comes from a command. -/
def AdminOp.Commanded : AdminOp → Prop
  | newDoor name _ | newUser name _ _ => CommandName name
  | rmDoor _ | rmUser _ => True

/-- The name that a UID handler has captured comes from a command. -/
def ReadHandler.Commanded : ReadHandler → Prop
  | uid name _ => CommandName name
  | client | cli => True

namespace Process

/-- The outstanding reads have captured names of commands only. -/
def Commanded (p : Process) : Prop :=
  ∀ connection ∈ p.connections, ∀ handler ∈ connection.pending, handler.Commanded

theorem commanded_start (s : Store) : (start s).Commanded := by
  intro connection hconnection
  exact absurd hconnection List.not_mem_nil

theorem Commanded.step {p : Process} (h : p.Commanded) (e : Event) : (p.step e).Commanded := by
  intro connection hconnection handler hhandler
  rcases mem_pending_step hconnection hhandler with
    ⟨before, hbefore, hold⟩ | rfl | rfl | ⟨line, name, numeral, user, rfl⟩
  · exact h before hbefore handler hold
  · trivial
  · trivial
  · exact commandName_of_addSyntax user

/-- The operations of a process add names of commands only. -/
theorem Commanded.op {p : Process} (h : p.Commanded) {e : Event} {op : AdminOp}
    (hop : p.op e = some op) : op.Commanded := by
  cases e with
  | connect server => exact absurd hop (by simp [Process.op])
  | line connection pkg renames =>
      obtain ⟨handler, hhandler, hadmin⟩ := Option.bind_eq_some_iff.mp hop
      obtain ⟨-, rest, hconnection⟩ := exists_of_handler? hhandler
      have hcommanded : handler.Commanded :=
        h _ (List.mem_of_getElem? hconnection) handler List.mem_cons_self
      cases handler with
      | client => exact absurd hadmin (by simp [ReadHandler.adminOp])
      | uid name accessLevel =>
          obtain rfl := Option.some.inj hadmin
          exact hcommanded
      | cli =>
          simp only [ReadHandler.adminOp] at hadmin
          cases hdoor : newDoorSyntax pkg with
          | some fields =>
              obtain ⟨name, numeral⟩ := fields
              simp only [hdoor, Option.map_eq_some_iff] at hadmin
              obtain ⟨n, -, rfl⟩ := hadmin
              exact commandName_of_addSyntax hdoor
          | none =>
              simp only [hdoor, Option.map_eq_some_iff] at hadmin
              obtain ⟨name, -, rfl⟩ := hadmin
              trivial

end Process

/-! ## The keys that the load finds -/

/-- The maps of the constructor are tabulated from the well-formed entries of the
file. -/
theorem startup_maps {config : Content} {s : Store} (h : startup config = .ok s) :
    s.doors = Table.tabulate Prod.fst Prod.snd config.doorList ∧
      s.usersByName = Table.byFst config.userList ∧ s.usersByUID = Table.bySnd config.userList := by
  cases config with
  | missing | empty | malformed =>
      obtain rfl := Except.ok.inj h
      exact ⟨rfl, rfl, rfl⟩
  | outOfRange => exact absurd h (by simp [startup])
  | doc j =>
      obtain rfl := Except.ok.inj h
      simp only [load, loadDoors_eq_tabulate, loadUsers_eq_tabulate, Content.doorList,
        Content.userList, and_self]

/-! ## The keys that an operation leaves -/

section Operations

variable {renames : Bool} {op : AdminOp} {s : Store} {key : Str}

/-- A door is new only to the `newDoor` that enters it. -/
theorem AdminOp.doors_run (h : (op.run renames s).store.doors key ≠ none) :
    s.doors key ≠ none ∨ ∃ accessLevel, op = .newDoor key accessLevel := by
  rcases op.doors_run_cases renames s key with hsame | ⟨accessLevel, hop, -⟩ | ⟨-, hremoved⟩
  · rw [hsame] at h
    exact Or.inl h
  · exact Or.inr ⟨accessLevel, hop⟩
  · exact absurd hremoved h

/-- A user is new only to the UID line that enters it, and so is a card. -/
theorem AdminOp.users_run :
    ((op.run renames s).store.usersByName key ≠ none →
      s.usersByName key ≠ none ∨ ∃ accessLevel uid, op = .newUser key accessLevel uid) ∧
    ((op.run renames s).store.usersByUID key ≠ none →
      s.usersByUID key ≠ none ∨ ∃ name accessLevel, op = .newUser name accessLevel key) := by
  obtain ⟨config, heq⟩ := op.run_mapped renames s
  rw [heq]
  cases op with
  | newDoor name accessLevel =>
      simp only [mapped]
      split_ifs
      · exact ⟨Or.inl, Or.inl⟩
      · exact ⟨Or.inl, Or.inl⟩
  | newUser name accessLevel uid =>
      simp only [mapped]
      split_ifs
      · exact ⟨fun h => (Table.ne_none_of_insert h).imp_right fun hname =>
            ⟨accessLevel, uid, by rw [hname]⟩,
          fun h => (Table.ne_none_of_insert h).imp_right fun huid =>
            ⟨name, accessLevel, by rw [huid]⟩⟩
      · exact ⟨Or.inl, Or.inl⟩
  | rmDoor name =>
      simp only [mapped, forgetDoor]
      cases s.doors name with
      | none => exact ⟨Or.inl, Or.inl⟩
      | some level => exact ⟨Or.inl, Or.inl⟩
  | rmUser name =>
      simp only [mapped, forgetUser]
      cases s.usersByName name with
      | none => exact ⟨Or.inl, Or.inl⟩
      | some user =>
          exact ⟨fun h => Or.inl (Table.ne_none_of_erase h),
            fun h => Or.inl (Table.ne_none_of_erase h)⟩

end Operations

/-! ## Canonical keys -/

/-- The keys of `doors` and `usersByName` are fixed points of `to_snake_case`. -/
def Store.CanonicalKeys (s : Store) : Prop :=
  (∀ key, s.doors key ≠ none → toSnakeCase key = key) ∧
    ∀ key, s.usersByName key ≠ none → toSnakeCase key = key

/-- The removal has taken the user `key` with the card out of both maps; unless it
threw, it has taken the first entry of the name out of config.json and answered. -/
def Ended.RemovesUser (e : Ended) (key card : Str) (s : Store) : Prop :=
  e.store.usersByName key = none ∧ e.store.usersByUID card = none ∧
    (e.thrown = none → e.replies = [ascii "User Removed Successfully"] ∧
      ∃ edited, s.Edits (ascii "users") (·.eraseP (Json.isNamed key)) edited ∧
        e.store.config = .doc edited)

/-- Every stored user is removed by `rmUser` with any spelling of its name. -/
def Store.RemovesAnySpelling (s : Store) : Prop :=
  ∀ key user, s.usersByName key = some user → ∀ spelling, RunOf isLetterOrUnderscore spelling →
    toSnakeCase spelling = toSnakeCase key → ∀ renames,
      (rmUser renames (ascii "rmUser" ++ ascii " " ++ spelling) s).RemovesUser key user.1 s

/-- The names of the well-formed entries of the file are canonical. -/
def Content.CanonicalNames (config : Content) : Prop :=
  (∀ door ∈ config.doorList, toSnakeCase door.1 = door.1) ∧
    ∀ user ∈ config.userList, toSnakeCase user.1 = user.1

instance (config : Content) : Decidable config.CanonicalNames :=
  inferInstanceAs (Decidable ((∀ door ∈ config.doorList, toSnakeCase door.1 = door.1) ∧
    ∀ user ∈ config.userList, toSnakeCase user.1 = user.1))

/-- A removal finds the user stored under its name. -/
theorem removesUser_rmUser {s : Store} {name : Str} {user : Str × Int}
    (huser : s.usersByName name = some user) (renames : Bool) :
    ((AdminOp.rmUser name).run renames s).RemovesUser name user.1 s := by
  have hforgotten : ∀ s', forgetUser name s = some s' →
      s'.usersByName name = none ∧ s'.usersByUID user.1 = none := by
    intro s' hs'
    obtain ⟨user', huser', rfl⟩ := forgetUser_eq_some_iff.mp hs'
    obtain rfl : user = user' := Option.some.inj (huser.symm.trans huser')
    exact ⟨Table.erase_self _ _, Table.erase_self _ _⟩
  have hremove := removal_rmUser renames name s
  generalize (AdminOp.rmUser name).run renames s = e at hremove
  cases hremove with
  | unknown forgotten => exact absurd forgotten (by simp [forgetUser, huser])
  | unsaved s' e forgotten fails =>
      obtain ⟨hname, hcard⟩ := hforgotten s' forgotten
      exact ⟨hname, hcard, fun hthrown => absurd hthrown (by simp)⟩
  | saved s' edited forgotten renamed dumps edits text =>
      obtain ⟨hname, hcard⟩ := hforgotten s' forgotten
      exact ⟨hname, hcard, fun _ => ⟨rfl, edited, edits, rfl⟩⟩

/-- Over canonical keys the spelling of a command does not matter. -/
theorem Store.CanonicalKeys.removesAnySpelling {s : Store} (h : s.CanonicalKeys) :
    s.RemovesAnySpelling := by
  intro key user huser spelling hspelling hkey renames
  have hcanonical : toSnakeCase spelling = key := by rw [hkey, h.2 key (by simp [huser])]
  have hline : rmUserSyntax (ascii "rmUser" ++ ascii " " ++ spelling) = some spelling :=
    removeSyntax_of_letters hspelling
  rw [rmUser, hline]
  simp only [hcanonical]
  exact removesUser_rmUser huser renames

/-- The operations of a process keep the keys canonical. -/
theorem Store.CanonicalKeys.run {s : Store} (h : s.CanonicalKeys) {op : AdminOp}
    (hop : op.Commanded) (renames : Bool) : (op.run renames s).store.CanonicalKeys := by
  constructor
  · intro key hkey
    rcases AdminOp.doors_run hkey with hold | ⟨accessLevel, rfl⟩
    · exact h.1 key hold
    · exact CommandName.canonical hop
  · intro key hkey
    rcases AdminOp.users_run.1 hkey with hold | ⟨accessLevel, uid, rfl⟩
    · exact h.2 key hold
    · exact CommandName.canonical hop

theorem canonicalKeys_startup_iff {config : Content} {s : Store} (h : startup config = .ok s) :
    s.CanonicalKeys ↔ config.CanonicalNames := by
  obtain ⟨hdoors, hnames, -⟩ := startup_maps h
  simp only [Store.CanonicalKeys, Content.CanonicalNames, hdoors, hnames, Table.byFst,
    Table.tabulate_ne_none_iff]
  simp

theorem Process.canonicalKeys_step {p : Process} (hcommanded : p.Commanded)
    (h : p.store.CanonicalKeys) (e : Event) : (p.step e).store.CanonicalKeys := by
  rw [p.step_store e]
  cases hop : p.op e with
  | none => exact h
  | some op => exact h.run (hcommanded.op hop) e.renames

/-- **When names are stored in canonical form.**  In every state of a run the keys
of both maps are canonical, and `rmUser` finds a user by any spelling of its name,
if and only if the names in the file that the run started from were canonical. -/
theorem canonicalKeys_iff {config : Content} {s : Store} (hstart : startup config = .ok s)
    (events : List Event) :
    Runs.Along Process.step (fun p => p.store.CanonicalKeys ∧ p.store.RemovesAnySpelling)
        (.start s) events ↔ config.CanonicalNames := by
  rw [← canonicalKeys_startup_iff hstart, Runs.along_iff_forall_prefix]
  constructor
  · intro h
    exact (h [] List.nil_prefix).1
  · intro h pre _
    have hrun : (Runs.final Process.step (.start s) pre).Commanded ∧
        (Runs.final Process.step (.start s) pre).store.CanonicalKeys :=
      Runs.invariant_final_of_forall
        (J := fun p : Process => p.Commanded ∧ p.store.CanonicalKeys)
        (fun p e hp => ⟨hp.1.step e, Process.canonicalKeys_step hp.1 hp.2 e⟩)
        ⟨Process.commanded_start s, h⟩ pre
    exact ⟨hrun.2, hrun.2.removesAnySpelling⟩

/-- John Doe is enrolled in camel case. -/
theorem canonicalKeys_iff_johnDoe :
    Runs.Along Process.step (fun p => p.store.CanonicalKeys ∧ p.store.RemovesAnySpelling)
      (.start (load .null (.doc emptyConfig)))
      [.connect .cliServer, .line 0 (ascii "newUser johnDoe 1") true,
        .line 0 (ascii "04a1") true] :=
  (canonicalKeys_iff (show startup .missing = .ok _ from rfl) _).mpr (by decide +kernel)

/-- A configuration that somebody wrote by hand, with a name in camel case. -/
def camelCaseConfig : Json :=
  .object [(ascii "users", .array [userEntry (ascii "JohnDoe") 1 (ascii "04a1")])]

/-- The key `JohnDoe` of a hand-written file is not canonical, and `rmUser JohnDoe`
does not find it. -/
theorem not_forall_canonicalKeys :
    ¬ (∀ (config : Content) (s : Store) (events : List Event), startup config = .ok s →
        Runs.Along Process.step (fun p => p.store.CanonicalKeys) (.start s) events) ∧
      ¬ ∀ (config : Content) (s : Store) (events : List Event), startup config = .ok s →
        Runs.Along Process.step (fun p => p.store.RemovesAnySpelling) (.start s) events := by
  have hjohn : (load camelCaseConfig (.doc camelCaseConfig)).usersByName (ascii "JohnDoe") =
      some (ascii "04a1", 1) := by decide +kernel
  constructor
  · intro h
    have hkeys : (load camelCaseConfig (.doc camelCaseConfig)).CanonicalKeys :=
      h (.doc camelCaseConfig) _ [] rfl
    exact absurd (hkeys.2 (ascii "JohnDoe") (by simp [hjohn])) (by decide)
  · intro h
    have hremoves : (load camelCaseConfig (.doc camelCaseConfig)).RemovesAnySpelling :=
      h (.doc camelCaseConfig) _ [] rfl
    have hremoved := hremoves (ascii "JohnDoe") _ hjohn (ascii "JohnDoe")
      ⟨by decide, by decide +kernel⟩ rfl true
    exact absurd hremoved.1 (by decide +kernel)

/-! ## Addressable pairs -/

/-- The string can stand before the colon of a line. -/
def DoorHalf (door : Str) : Prop := door ≠ [] ∧ colon ∉ door ∧ newline ∉ door

/-- The string can stand after the colon of a line. -/
def UidHalf (uid : Str) : Prop := uid ≠ [] ∧ newline ∉ uid

instance (door : Str) : Decidable (DoorHalf door) :=
  inferInstanceAs (Decidable (door ≠ [] ∧ colon ∉ door ∧ newline ∉ door))

instance (uid : Str) : Decidable (UidHalf uid) :=
  inferInstanceAs (Decidable (uid ≠ [] ∧ newline ∉ uid))

/-- The line of any stored door and card is read as the two, and answered by their
levels. -/
def Store.Addressable (s : Store) : Prop :=
  ∀ door level uid user, s.doors door = some level → s.usersByUID uid = some user →
    parsePackage (getline (wireLine (door ++ colon :: uid))) = some (door, uid) ∧
      (handleClient (getline (wireLine (door ++ colon :: uid))) s).replies =
        [if level ≤ user.2 then ascii "Approved" else ascii "Denied"]

/-- The stored doors and cards are halves of a line, if there are both. -/
def Store.Halves (s : Store) : Prop :=
  ∀ door uid, s.doors door ≠ none → s.usersByUID uid ≠ none → DoorHalf door ∧ UidHalf uid

/-- An addition that reaches the maps makes no pair of stored keys that a line
cannot hold. -/
def AdminOp.KeepsHalves (s : Store) : AdminOp → Prop
  | newDoor _ _ =>
      s.listReadable (ascii "doors") = true → ∀ uid, s.usersByUID uid ≠ none → UidHalf uid
  | newUser _ _ uid =>
      s.listReadable (ascii "users") = true →
        ∀ door, s.doors door ≠ none → DoorHalf door ∧ UidHalf uid
  | rmDoor _ | rmUser _ => True

/-- The event performs no operation, or one that keeps the pairs addressable. -/
def Process.KeepsHalves (p : Process) (e : Event) : Prop :=
  ∀ op ∈ p.op e, op.KeepsHalves p.store

/-- A door and a card are read back from their line exactly if they are halves of
one. -/
theorem parsePackage_getline_iff {door uid : Str} :
    parsePackage (getline (wireLine (door ++ colon :: uid))) = some (door, uid) ↔
      DoorHalf door ∧ UidHalf uid := by
  constructor
  · intro h
    obtain ⟨hline, hdoor, hcolon, huid⟩ := eq_of_parsePackage h
    have hnewline : newline ∉ door ++ colon :: uid := by
      rw [← hline, getline]
      intro hmem
      simpa using List.mem_takeWhile_imp hmem
    simp only [List.mem_append, List.mem_cons, not_or] at hnewline
    exact ⟨⟨hdoor, hcolon, hnewline.1⟩, huid, hnewline.2.2⟩
  · rintro ⟨⟨hdoor, hcolon, hdoorLine⟩, huid, huidLine⟩
    have hnewline : newline ∉ door ++ colon :: uid := by
      simp only [List.mem_append, List.mem_cons, not_or]
      exact ⟨hdoorLine, by decide, huidLine⟩
    rw [wireLine, getline_append hnewline]
    exact parsePackage_append hdoor hcolon huid

theorem addressable_iff_halves {s : Store} : s.Addressable ↔ s.Halves := by
  constructor
  · intro h door uid hdoor huid
    obtain ⟨level, hlevel⟩ := Option.ne_none_iff_exists'.mp hdoor
    obtain ⟨user, huser⟩ := Option.ne_none_iff_exists'.mp huid
    exact parsePackage_getline_iff.mp (h door level uid user hlevel huser).1
  · intro h door level uid user hlevel huser
    have hparse := parsePackage_getline_iff.mpr (h door uid (by simp [hlevel]) (by simp [huser]))
    refine ⟨hparse, ?_⟩
    simp [handleClient, hparse, lookup, hlevel, authorized, huser]

theorem CommandName.doorHalf {name : Str} (h : CommandName name) : DoorHalf name := by
  obtain ⟨hne, hword⟩ := h.runOf
  refine ⟨hne, ?_, ?_⟩
  · intro hmem
    exact absurd (hword colon hmem) (by decide)
  · intro hmem
    exact absurd (hword newline hmem) (by decide)

/-- An operation of a process keeps the pairs halves exactly if it makes no bad
pair. -/
theorem Store.Halves.run_iff {s : Store} (h : s.Halves) {op : AdminOp} (hop : op.Commanded)
    (renames : Bool) : (op.run renames s).store.Halves ↔ op.KeepsHalves s := by
  cases op with
  | newDoor name accessLevel =>
      obtain ⟨config, heq⟩ := AdminOp.run_mapped renames (.newDoor name accessLevel) s
      rw [heq]
      simp only [AdminOp.mapped, AdminOp.KeepsHalves]
      split_ifs with hreadable
      · constructor
        · intro hafter _ uid huid
          exact (hafter name uid (by simp [enterDoor]) huid).2
        · intro hcards door uid hdoor huid
          rcases Table.ne_none_of_insert hdoor with hold | rfl
          · exact h door uid hold huid
          · exact ⟨CommandName.doorHalf hop, hcards hreadable uid huid⟩
      · exact iff_of_true h fun hreadable' => absurd hreadable' hreadable
  | newUser name accessLevel uid =>
      obtain ⟨config, heq⟩ := AdminOp.run_mapped renames (.newUser name accessLevel uid) s
      rw [heq]
      simp only [AdminOp.mapped, AdminOp.KeepsHalves]
      split_ifs with hreadable
      · constructor
        · intro hafter _ door hdoor
          exact hafter door uid hdoor (by simp [enterUser])
        · intro hdoors door card hdoor hcard
          rcases Table.ne_none_of_insert hcard with hold | rfl
          · exact h door card hdoor hold
          · exact hdoors hreadable door hdoor
      · exact iff_of_true h fun hreadable' => absurd hreadable' hreadable
  | rmDoor name | rmUser name =>
      refine iff_of_true ?_ trivial
      intro door uid hdoor huid
      exact h door uid ((AdminOp.doors_run hdoor).resolve_right (by simp))
        ((AdminOp.users_run.2 huid).resolve_right (by simp))

theorem Process.halves_step_iff {p : Process} (hcommanded : p.Commanded) (h : p.store.Halves)
    (e : Event) : (p.step e).store.Halves ↔ p.KeepsHalves e := by
  rw [p.step_store e, Process.KeepsHalves]
  cases hop : p.op e with
  | none => simpa using h
  | some op => simpa using h.run_iff (hcommanded.op hop) e.renames

theorem halves_startup_iff {config : Content} {s : Store} (h : startup config = .ok s) :
    s.Halves ↔
      ∀ door ∈ config.doorList, ∀ user ∈ config.userList, DoorHalf door.1 ∧ UidHalf user.2.1 := by
  obtain ⟨hdoors, -, hcards⟩ := startup_maps h
  simp only [Store.Halves, hdoors, hcards, Table.bySnd, Table.tabulate_ne_none_iff]
  constructor
  · intro hhalves door hdoor user huser
    exact hhalves door.1 user.2.1 ⟨door, hdoor, rfl⟩ ⟨user, huser, rfl⟩
  · rintro hentries _ _ ⟨door, hdoor, rfl⟩ ⟨user, huser, rfl⟩
    exact hentries door hdoor user huser

/-- **When every stored pair can be asked for.**  In every state of a run the line
of any stored door and card is read as the two if and only if the file that the
run started from has no door and card that a line cannot hold, and no addition of
the run brings a card together with a door so: by an empty UID, or beside a bad
key of the file. -/
theorem addressable_iff {config : Content} {s : Store} (hstart : startup config = .ok s)
    (events : List Event) :
    Runs.Along Process.step (fun p => p.store.Addressable) (.start s) events ↔
      (∀ door ∈ config.doorList, ∀ user ∈ config.userList,
        DoorHalf door.1 ∧ UidHalf user.2.1) ∧
      Runs.Each Process.step Process.KeepsHalves (.start s) events := by
  simp only [addressable_iff_halves]
  rw [← halves_startup_iff hstart]
  have hrun : s.Halves → (Runs.Along Process.step (fun p => p.store.Halves) (.start s) events ↔
      Runs.Each Process.step Process.KeepsHalves (.start s) events) := fun hs =>
    Runs.along_iff_each_of_forall (J := Process.Commanded) (fun _ e hp => hp.step e)
      (fun _ e hp h => Process.halves_step_iff hp h e) (Process.commanded_start s) hs events
  constructor
  · intro halong
    have hs : s.Halves := Runs.along_iff_forall_prefix.mp halong [] List.nil_prefix
    exact ⟨hs, (hrun hs).mp halong⟩
  · rintro ⟨hs, heach⟩
    exact (hrun hs).mpr heach

/-- A configuration with a door and a user. -/
def hallConfig : Json :=
  .object [(ascii "doors", .array [doorEntry (ascii "hall") 2]),
    (ascii "users", .array [userEntry (ascii "bob") 3 (ascii "04a1")])]

/-- A second door is entered. -/
theorem addressable_iff_hall :
    Runs.Along Process.step (fun p => p.store.Addressable)
      (.start (load hallConfig (.doc hallConfig)))
      [.connect .cliServer, .line 0 (ascii "newDoor backGate 1") true] := by
  have hstart : startup (.doc hallConfig) = .ok (load hallConfig (.doc hallConfig)) := rfl
  refine (addressable_iff hstart _).mpr ⟨by decide +kernel, ?_, ?_, trivial⟩
  · intro op hop
    exact absurd hop (by simp [Process.op])
  · intro op hop
    have hgate : ((Process.start (load hallConfig (.doc hallConfig))).step
        (.connect .cliServer)).op (.line 0 (ascii "newDoor backGate 1") true) =
          some (.newDoor (ascii "back_gate") 1) := by decide +kernel
    obtain rfl := Option.some.inj (hop.symm.trans hgate)
    intro _ uid huid
    change (load hallConfig (.doc hallConfig)).usersByUID uid ≠ none at huid
    rw [(startup_maps hstart).2.2] at huid
    obtain ⟨user, huser, rfl⟩ := (Table.tabulate_ne_none_iff _ _).mp huid
    have hcards : ∀ user ∈ (Content.doc hallConfig).userList, UidHalf user.2.1 := by
      decide +kernel
    exact hcards user huser

/-- bob's UID line is empty: no line names his card. -/
theorem not_forall_addressable :
    ¬ ∀ (config : Content) (s : Store) (events : List Event), startup config = .ok s →
      Runs.Along Process.step (fun p => p.store.Addressable) (.start s) events := by
  intro h
  have hrun := h .missing _ [.connect .cliServer, .line 0 (ascii "newDoor lab 1") true,
    .connect .cliServer, .line 1 (ascii "newUser bob 1") true, .line 1 [] true] rfl
  have hpair := hrun.final (ascii "lab") 1 [] (ascii "bob", 1) (by decide +kernel)
    (by decide +kernel)
  exact absurd hpair.1 (by decide +kernel)

end AsyncNFCServer
