import AsyncNFCServer.ReaderHandler.Levels
import AsyncNFCServer.ReaderHandler.Restart

/-!
# Removing what was added

`rmUser` and `rmDoor` are meant to be the inverses of `newUser` and `newDoor`.
On the maps they are, for a name that was not there: the insertion is erased.
On a list of config.json the addition appends and the removal erases the first
entry with the name, so the two cancel when no other entry has it
(`items_restored_iff`).  A name with a digit in it never gets that far: the
removals refuse it.
-/

namespace AsyncNFCServer

/-- The maps and the lists of the file are those of `s`. -/
structure Store.SameAs (t s : Store) : Prop where
  doors : t.doors = s.doors
  usersByName : t.usersByName = s.usersByName
  usersByUID : t.usersByUID = s.usersByUID
  items : ∀ list, t.config.items list = s.config.items list

/-- No entry of the list has the name, be it well formed or not. -/
def Store.Lacks (list name : Str) (s : Store) : Prop :=
  ∀ item ∈ s.config.items list, Json.isNamed name item = false

/-- The list is as it was after an addition of `entry` and a removal of `name`:
both are saved or neither changes the file, and the removal finds no other entry
of the name. -/
def Store.Cancels (renames renames' : Bool) (list : Str) (entry : Json) (name : Str)
    (s : Store) : Prop :=
  if renames = true ∧ s.takes list entry = true then renames' = true ∧ s.Lacks list name
  else s.Lacks list name ∨ ¬ (renames' = true ∧ s.dumpsWithout list name = true)

instance (list name : Str) (s : Store) : Decidable (s.Lacks list name) :=
  inferInstanceAs (Decidable (∀ item ∈ s.config.items list, Json.isNamed name item = false))

instance (renames renames' : Bool) (list : Str) (entry : Json) (name : Str) (s : Store) :
    Decidable (s.Cancels renames renames' list entry name) := by
  unfold Store.Cancels
  infer_instance

/-- The removal syntax has no digits in its names. -/
def Digitless (name : Str) : Prop := ∀ b ∈ name, isDigit b = false

instance (name : Str) : Decidable (Digitless name) := List.decidableBAll _ name

/-- A command with the written `name` is undone: config.json cannot be read and
it did nothing, or the name has no digit and the list is as it was. -/
def Undoable (renames renames' : Bool) (list : Str) (entry : Json) (name : Str) (s : Store) :
    Prop :=
  s.listReadable list = false ∨
    (Digitless name ∧ s.Cancels renames renames' list entry (toSnakeCase name))

instance (renames renames' : Bool) (list : Str) (entry : Json) (name : Str) (s : Store) :
    Decidable (Undoable renames renames' list entry name s) := by
  unfold Undoable
  infer_instance

/-- `newUser`, its UID line and `rmUser` leave the store as it was. -/
def UserUndone (renames renames' : Bool) (userLine uid name : Str) (s : Store) : Prop :=
  ∀ last, (handleCli renames userLine s).uidRun renames uid = some last →
    (handleCli renames' (ascii "rmUser" ++ ascii " " ++ name) last.store).store.SameAs s

/-- `newDoor` and the operation `rmDoor` leave the store as it was. -/
def DoorUndone (renames renames' : Bool) (doorLine name : Str) (s : Store) : Prop :=
  (rmDoor renames' (ascii "rmDoor" ++ ascii " " ++ name)
    (handleCli renames doorLine s).store).store.SameAs s

/-! ## The lists of the file -/

/-- Appending an entry and erasing the first with its name gives the list back
when no other entry has the name. -/
theorem eraseP_concat_eq_self_iff {α : Type*} {p : α → Bool} {l : List α} {e : α}
    (he : p e = true) (hnew : e ∉ l) : (l ++ [e]).eraseP p = l ↔ ∀ x ∈ l, p x = false := by
  constructor
  · intro h x hx
    by_contra hpx
    rw [List.eraseP_append_left (by simpa using hpx) [e] hx] at h
    exact hnew (h ▸ by simp)
  · intro h
    rw [List.eraseP_append_right _ (by simpa using h)]
    simp [he]

section Items

variable {renames renames' : Bool} {list name answer answer' : Str} {entry configJson : Json}
  {enter : Store → Store} {forget : Store → Option Store} {s : Store} {e e' : Ended}

theorem items_of_edits {t : Store} {change : List Json → List Json} {edited : Json}
    (hconfig : s.config = .doc configJson) (hedits : s.Edits list change edited)
    (ht : t.config = .doc edited) :
    t.config.items list = change (s.config.items list) ∧
      ∀ other, other ≠ list → t.config.items other = s.config.items other := by
  obtain ⟨configJson', hread, hedited⟩ := hedits
  obtain rfl : configJson = configJson' := by
    rw [hconfig] at hread
    exact Except.ok.inj hread
  rw [ht, hconfig]
  refine ⟨hedited.entries, ?_⟩
  intro other hne
  simp only [Content.items, Json.entries, hedited.other other hne]

/-- What a removal of a known name leaves of the lists. -/
theorem items_of_removal (hconfig : s.config = .doc configJson)
    (hremove : Removal renames list name answer forget s e)
    (hforget : ∀ s', forget s = some s' → s'.config = s.config) (hknown : forget s ≠ none) :
    e.store.config.items list =
        (if renames = true ∧ s.dumpsWithout list name = true then
          (s.config.items list).eraseP (Json.isNamed name) else s.config.items list) ∧
      ∀ other, other ≠ list → e.store.config.items other = s.config.items other := by
  cases hremove with
  | unknown forgotten => exact absurd forgotten hknown
  | unsaved s' e forgotten fails =>
      rw [if_neg fails]
      exact ⟨congrArg (Content.items list) (hforget s' forgotten),
        fun other _ => congrArg (Content.items other) (hforget s' forgotten)⟩
  | saved s' edited forgotten renamed dumps edits text =>
      rw [if_pos ⟨renamed, dumps⟩]
      exact items_of_edits hconfig edits rfl

/-- When the other lists are kept, all are kept if this one is. -/
theorem items_eq_iff {t : Store}
    (hother : ∀ other, other ≠ list → t.config.items other = s.config.items other) :
    (∀ other, t.config.items other = s.config.items other) ↔
      t.config.items list = s.config.items list := by
  refine ⟨fun h => h list, ?_⟩
  intro hlist other
  by_cases hlisted : other = list
  · rw [hlisted, hlist]
  · exact hother other hlisted

/-- An addition that is not saved leaves the removal the old list. -/
theorem items_restored_unsaved_iff (hconfig : s.config = .doc configJson)
    (henter : (enter s).config = s.config)
    (hremove : Removal renames' list name answer' forget (enter s) e')
    (hforget : ∀ s', forget (enter s) = some s' → s'.config = (enter s).config)
    (hknown : forget (enter s) ≠ none) :
    (∀ other, e'.store.config.items other = s.config.items other) ↔
      s.Lacks list name ∨ ¬ (renames' = true ∧ s.dumpsWithout list name = true) := by
  obtain ⟨hlist, hother⟩ := items_of_removal (henter.trans hconfig) hremove hforget hknown
  have hdumps : (enter s).dumpsWithout list name = s.dumpsWithout list name := by
    rw [Store.dumpsWithout, Store.dumpsWithout, henter]
  rw [henter, hdumps] at hlist
  rw [henter] at hother
  rw [items_eq_iff hother, hlist]
  by_cases hsaved : renames' = true ∧ s.dumpsWithout list name = true
  · rw [if_pos hsaved, or_iff_left (not_not_intro hsaved)]
    simp [Store.Lacks]
  · rw [if_neg hsaved]
    exact iff_of_true rfl (Or.inr hsaved)

/-- An addition that is saved leaves the removal its entry as the last one. -/
theorem items_restored_saved_iff (hconfig : s.config = .doc configJson) {edited : Json}
    (hedits : s.Edits list (· ++ [entry]) edited) (htext : edited.dumps = true)
    (hremove : Removal renames' list name answer' forget
      { enter s with config := .doc edited } e')
    (hforget : ∀ s', forget { enter s with config := .doc edited } = some s' →
      s'.config = .doc edited)
    (hknown : forget { enter s with config := .doc edited } ≠ none)
    (hentry : Json.isNamed name entry = true) (hnew : entry ∉ s.config.items list) :
    (∀ other, e'.store.config.items other = s.config.items other) ↔
      renames' = true ∧ s.Lacks list name := by
  obtain ⟨hlist, hother⟩ := items_of_removal (show _ = Content.doc edited from rfl) hremove
    hforget hknown
  obtain ⟨hitems, hitems'⟩ := items_of_edits
    (t := { enter s with config := .doc edited }) hconfig hedits rfl
  have hdumps : ({ enter s with config := .doc edited } : Store).dumpsWithout list name = true :=
    Store.dumpsWithout_of_dumps rfl htext list name
  simp only [hdumps, and_true, hitems] at hlist
  rw [items_eq_iff fun other hne => (hother other hne).trans (hitems' other hne), hlist]
  by_cases hrenames : renames' = true
  · rw [if_pos hrenames, eraseP_concat_eq_self_iff hentry hnew]
    exact (and_iff_right hrenames).symm
  · rw [if_neg hrenames]
    refine iff_of_false ?_ fun hboth => hrenames hboth.1
    intro hsame
    exact absurd (congrArg List.length hsame) (by simp)

/-- **What an addition and a removal leave of the lists.** -/
theorem items_restored_iff (hconfig : s.config = .doc configJson)
    (hadd : Addition renames list entry answer enter s e) (henter : (enter s).config = s.config)
    (hreadable : s.listReadable list = true)
    (hremove : Removal renames' list name answer' forget e.store e')
    (hforget : ∀ s', forget e.store = some s' → s'.config = e.store.config)
    (hknown : forget e.store ≠ none) (hentry : Json.isNamed name entry = true)
    (hnew : entry ∉ s.config.items list) :
    (∀ other, e'.store.config.items other = s.config.items other) ↔
      s.Cancels renames renames' list entry name := by
  cases hadd with
  | unread e readable => exact absurd (readable.symm.trans hreadable) (by simp)
  | unsaved e readable fails =>
      rw [Store.Cancels, if_neg fails]
      exact items_restored_unsaved_iff hconfig henter hremove hforget hknown
  | saved edited readable renamed takes edits text =>
      rw [Store.Cancels, if_pos ⟨renamed, takes⟩]
      exact items_restored_saved_iff hconfig edits text hremove hforget hknown hentry hnew

end Items

/-! ## The operations -/

theorem Store.sameAs_iff_items {t s : Store} (hdoors : t.doors = s.doors)
    (hnames : t.usersByName = s.usersByName) (huids : t.usersByUID = s.usersByUID) :
    t.SameAs s ↔ ∀ list, t.config.items list = s.config.items list :=
  ⟨fun h => h.items, fun hitems => ⟨hdoors, hnames, huids, hitems⟩⟩

section Operations

variable {renames renames' : Bool} {s : Store} {configJson : Json} {name uid : Str}
  {accessLevel : UInt8}

/-- A door that the maps do not have is not in the list either, as long as the
two agree. -/
theorem doorEntry_notMem_items (h : s.Restartable) (hconfig : s.config = .doc configJson)
    (hname : s.doors name = none) :
    doorEntry name accessLevel ∉ s.config.items (ascii "doors") := by
  intro hmem
  have hload : s.doors = loadDoors configJson := by
    rw [Store.Restartable, hconfig] at h
    exact congrArg Store.doors (Except.ok.inj h).symm
  rw [hload, loadDoors_eq_tabulate, Table.tabulate_eq_none_iff] at hname
  rw [hconfig] at hmem
  have hentry : (name, (accessLevel.toNat : Int)) ∈ doorEntries configJson :=
    List.mem_filterMap.mpr ⟨_, hmem, doorFields_doorEntry name accessLevel⟩
  exact hname _ hentry rfl

theorem newUser_rmUser_sameAs_iff (hconfig : s.config = .doc configJson)
    (hname : s.usersByName name = none) (hlacks : s.Lacks (ascii "users") name)
    (huid : s.usersByUID uid = none) (hreadable : s.listReadable (ascii "users") = true) :
    ((AdminOp.rmUser name).run renames'
        ((AdminOp.newUser name accessLevel uid).run renames s).store).store.SameAs s ↔
      s.Cancels renames renames' (ascii "users") (userEntry name accessLevel uid) name := by
  obtain ⟨config, hentered⟩ := AdminOp.run_mapped renames (.newUser name accessLevel uid) s
  have hadd := addition_newUser renames name accessLevel uid s
  generalize (AdminOp.newUser name accessLevel uid).run renames s = e at hadd hentered ⊢
  have hremove := removal_rmUser renames' name e.store
  obtain ⟨config', hforgotten⟩ := AdminOp.run_mapped renames' (.rmUser name) e.store
  generalize (AdminOp.rmUser name).run renames' e.store = e' at hremove hforgotten ⊢
  simp only [AdminOp.mapped, hreadable, if_true, enterUser] at hentered
  have hknown : e.store.usersByName name = some (uid, (accessLevel.toNat : Int)) := by
    rw [hentered]
    exact Table.insert_self ..
  simp only [AdminOp.mapped, forgetUser, hknown, Option.getD_some] at hforgotten
  have hmaps : e'.store.doors = s.doors ∧ e'.store.usersByName = s.usersByName ∧
      e'.store.usersByUID = s.usersByUID := by
    rw [hforgotten, hentered]
    exact ⟨rfl, Table.erase_insert _ hname _, Table.erase_insert _ huid _⟩
  have hnamed : Json.isNamed name (userEntry name accessLevel uid) = true := by
    simp [isNamed_of_userFields (userFields_userEntry name accessLevel uid)]
  rw [Store.sameAs_iff_items hmaps.1 hmaps.2.1 hmaps.2.2]
  refine items_restored_iff hconfig hadd rfl hreadable hremove ?_ ?_ hnamed ?_
  · intro s' hs'
    obtain ⟨user, -, rfl⟩ := forgetUser_eq_some_iff.mp hs'
    rfl
  · simp [forgetUser, hknown]
  · intro hmem
    rw [hlacks _ hmem] at hnamed
    exact absurd hnamed (by simp)

theorem newDoor_rmDoor_sameAs_iff (h : s.Restartable) (hconfig : s.config = .doc configJson)
    (hname : s.doors name = none) (hreadable : s.listReadable (ascii "doors") = true) :
    ((AdminOp.rmDoor name).run renames'
        ((AdminOp.newDoor name accessLevel).run renames s).store).store.SameAs s ↔
      s.Cancels renames renames' (ascii "doors") (doorEntry name accessLevel) name := by
  obtain ⟨config, hentered⟩ := AdminOp.run_mapped renames (.newDoor name accessLevel) s
  have hadd := addition_newDoor renames name accessLevel s
  generalize (AdminOp.newDoor name accessLevel).run renames s = e at hadd hentered ⊢
  have hremove := removal_rmDoor renames' name e.store
  obtain ⟨config', hforgotten⟩ := AdminOp.run_mapped renames' (.rmDoor name) e.store
  generalize (AdminOp.rmDoor name).run renames' e.store = e' at hremove hforgotten ⊢
  simp only [AdminOp.mapped, hreadable, if_true, enterDoor] at hentered
  have hknown : e.store.doors name = some (accessLevel.toNat : Int) := by
    rw [hentered]
    exact Table.insert_self ..
  simp only [AdminOp.mapped, forgetDoor, hknown, Option.getD_some] at hforgotten
  have hmaps : e'.store.doors = s.doors ∧ e'.store.usersByName = s.usersByName ∧
      e'.store.usersByUID = s.usersByUID := by
    rw [hforgotten, hentered]
    exact ⟨Table.erase_insert _ hname _, rfl, rfl⟩
  have hnamed : Json.isNamed name (doorEntry name accessLevel) = true := by
    simp [isNamed_of_doorFields (doorFields_doorEntry name accessLevel)]
  rw [Store.sameAs_iff_items hmaps.1 hmaps.2.1 hmaps.2.2]
  refine items_restored_iff hconfig hadd rfl hreadable hremove ?_ ?_ hnamed
    (doorEntry_notMem_items h hconfig hname)
  · intro s' hs'
    rw [(forgetDoor_eq_some_iff.mp hs').2]
  · simp [forgetDoor, hknown]

end Operations

/-! ## The command lines -/

/-- A removal line of a name with a digit is refused, any other one removes the
canonical name. -/
theorem removeSyntax_written {name : Str} (hname : RunOf isWordByte name) (command : Str) :
    removeSyntax command (command ++ ascii " " ++ name) =
      if Digitless name then some name else none := by
  by_cases hdigits : Digitless name
  · rw [if_pos hdigits]
    refine removeSyntax_of_letters (runOf_isLetterOrUnderscore hname ?_)
    intro hdigit
    obtain ⟨b, hb, hb'⟩ := hdigit
    exact absurd hb' (by simp [hdigits b hb])
  · rw [if_neg hdigits]
    refine removeSyntax_eq_none_of_digit hname ?_
    simpa [Digitless] using hdigits

theorem handleCli_rmUser_store {name : Str} (hname : RunOf isWordByte name) (renames : Bool)
    (s : Store) :
    (handleCli renames (ascii "rmUser" ++ ascii " " ++ name) s).store =
      if Digitless name then
        ((AdminOp.rmUser (toSnakeCase name)).run renames s).store else s := by
  have hword : (ascii "rmUser").isPrefixOf (ascii "rmUser" ++ ascii " " ++ name) = true := by
    simp [List.append_assoc]
  rw [handleCli_eq_dispatch, dispatch_rmUser.mpr hword]
  simp only [thenHandleCli_store, rmUser_store, rmUserSyntax, removeSyntax_written hname]
  split_ifs <;> rfl

theorem rmDoor_store {name : Str} (hname : RunOf isWordByte name) (renames : Bool) (s : Store) :
    (rmDoor renames (ascii "rmDoor" ++ ascii " " ++ name) s).store =
      if Digitless name then
        ((AdminOp.rmDoor (toSnakeCase name)).run renames s).store else s := by
  unfold rmDoor
  rw [rmDoorSyntax, removeSyntax_written hname]
  split_ifs <;> rfl

theorem runOf_of_addSyntax {command line name numeral : Str}
    (h : addSyntax command line = some (name, numeral)) : RunOf isWordByte name := by
  obtain ⟨gap, gap', -, -, hname, -⟩ := addSyntax_eq_some_iff.mp h
  exact hname

theorem Store.sameAs_refl (s : Store) : s.SameAs s := ⟨rfl, rfl, rfl, fun _ => rfl⟩

section Lines

variable {renames renames' : Bool} {s : Store} {name numeral uid : Str} {n : Nat}

theorem exists_doc_of_restartable (h : s.Restartable) :
    ∃ configJson, s.config = .doc configJson := by
  unfold Store.Restartable at h
  cases hconfig : s.config with
  | doc configJson => exact ⟨configJson, rfl⟩
  | missing | empty | malformed =>
      rw [hconfig] at h
      have hfile := congrArg Store.config (Except.ok.inj h)
      exact absurd (hfile.trans hconfig) (by simp [load])
  | outOfRange =>
      rw [hconfig] at h
      exact absurd h (by simp [startup])

/-- An addition over a file that cannot be read changes nothing. -/
theorem Addition.store_of_unread {list : Str} {entry : Json} {answer : Str}
    {enter : Store → Store} {e : Ended} (h : Addition renames list entry answer enter s e)
    (hunread : s.listReadable list = false) : e.store = s := by
  cases h with
  | unread e readable => rfl
  | unsaved e readable fails => exact absurd (hunread.symm.trans readable) (by simp)
  | saved edited readable renamed takes edits text =>
      exact absurd (hunread.symm.trans readable) (by simp)

/-- A removal is run or refused as the digits of the name decide; what is left to
show of a command is what these two come to. -/
theorem sameAs_iff_undoable {list : Str} {entry : Json} {entered removed : Store}
    (hunread : s.listReadable list = false → entered = s ∧ removed = s)
    (hcancels : s.listReadable list = true →
      (removed.SameAs s ↔ s.Cancels renames renames' list entry (toSnakeCase name)))
    (hstays : s.listReadable list = true → ¬ entered.SameAs s) :
    (if Digitless name then removed else entered).SameAs s ↔
      Undoable renames renames' list entry name s := by
  rw [Undoable]
  cases hreadable : s.listReadable list with
  | false =>
      obtain ⟨hentered, hremoved⟩ := hunread hreadable
      rw [hentered, hremoved, ite_self]
      exact iff_of_true s.sameAs_refl (Or.inl rfl)
  | true =>
      simp only [Bool.true_eq_false, false_or]
      by_cases hdigits : Digitless name
      · rw [if_pos hdigits, hcancels hreadable]
        exact (and_iff_right hdigits).symm
      · rw [if_neg hdigits]
        exact iff_of_false (hstays hreadable) fun hboth => hdigits hboth.1

theorem newUser_not_sameAs {accessLevel : UInt8} (hname : s.usersByName name = none)
    (hreadable : s.listReadable (ascii "users") = true) :
    ¬ ((AdminOp.newUser name accessLevel uid).run renames s).store.SameAs s := by
  intro hsame
  obtain ⟨config, hentered⟩ := AdminOp.run_mapped renames (.newUser name accessLevel uid) s
  have hnames := hsame.usersByName
  rw [hentered] at hnames
  simp only [AdminOp.mapped, hreadable, if_true, enterUser] at hnames
  rw [← hnames, Table.insert_self] at hname
  exact absurd hname (by simp)

theorem newDoor_not_sameAs {accessLevel : UInt8} (hname : s.doors name = none)
    (hreadable : s.listReadable (ascii "doors") = true) :
    ¬ ((AdminOp.newDoor name accessLevel).run renames s).store.SameAs s := by
  intro hsame
  obtain ⟨config, hentered⟩ := AdminOp.run_mapped renames (.newDoor name accessLevel) s
  have hdoors := hsame.doors
  rw [hentered] at hdoors
  simp only [AdminOp.mapped, hreadable, if_true, enterDoor] at hdoors
  rw [← hdoors, Table.insert_self] at hname
  exact absurd hname (by simp)

theorem userUndone_iff (h : s.Restartable) {userLine : Str}
    (huserLine : newUserSyntax userLine = some (name, numeral)) (hn : stoul numeral = some n)
    (hname : s.usersByName (toSnakeCase name) = none)
    (hlacks : s.Lacks (ascii "users") (toSnakeCase name)) (huid : s.usersByUID uid = none) :
    UserUndone renames renames' userLine uid name s ↔
      Undoable renames renames' (ascii "users") (userEntry (toSnakeCase name) (toUInt8 n) uid)
        name s := by
  obtain ⟨configJson, hconfig⟩ := exists_doc_of_restartable h
  have huser : handleCli renames userLine s =
      ⟨s, [], [.uid (toSnakeCase name) (toUInt8 n), .cli], .returned⟩ := by
    rw [handleCli_newUser huserLine]
    simp only [newUser, huserLine, hn]
    rfl
  simp only [UserUndone, huser, HandlerRun.uidRun, Option.some.injEq, forall_eq',
    handleUID_store, handleCli_rmUser_store (runOf_of_addSyntax huserLine)]
  refine sameAs_iff_undoable ?_ ?_ ?_
  · intro hunread
    have hentered := (addition_newUser renames (toSnakeCase name) (toUInt8 n) uid s).store_of_unread
      hunread
    refine ⟨hentered, ?_⟩
    rw [hentered]
    simp [AdminOp.run, removeEntry, forgetUser, hname]
  · exact newUser_rmUser_sameAs_iff hconfig hname hlacks huid
  · exact newUser_not_sameAs hname

theorem doorUndone_iff (h : s.Restartable) {doorLine : Str}
    (hdoorLine : newDoorSyntax doorLine = some (name, numeral)) (hn : stoul numeral = some n)
    (hname : s.doors (toSnakeCase name) = none) :
    DoorUndone renames renames' doorLine name s ↔
      Undoable renames renames' (ascii "doors") (doorEntry (toSnakeCase name) (toUInt8 n))
        name s := by
  obtain ⟨configJson, hconfig⟩ := exists_doc_of_restartable h
  have hdoor : (handleCli renames doorLine s).store =
      ((AdminOp.newDoor (toSnakeCase name) (toUInt8 n)).run renames s).store := by
    rw [handleCli_newDoor hdoorLine, thenHandleCli_store]
    simp only [newDoor, hdoorLine, hn]
  simp only [DoorUndone, hdoor, rmDoor_store (runOf_of_addSyntax hdoorLine)]
  refine sameAs_iff_undoable ?_ ?_ ?_
  · intro hunread
    have hentered := (addition_newDoor renames (toSnakeCase name) (toUInt8 n) s).store_of_unread
      hunread
    refine ⟨hentered, ?_⟩
    rw [hentered]
    simp [AdminOp.run, removeEntry, forgetDoor, hname]
  · exact newDoor_rmDoor_sameAs_iff h hconfig hname
  · exact newDoor_not_sameAs hname

end Lines

/-- **When a removal undoes an addition.**  For a user and a door that were not
there, exactly when the file could not be read, or the name has no digit and the
two edits of the list cancel. -/
theorem undone_iff {s : Store} (h : s.Restartable) {name numeral : Str} {n : Nat}
    (hn : stoul numeral = some n) (renames renames' : Bool) :
    (∀ userLine uid : Str, newUserSyntax userLine = some (name, numeral) →
      s.usersByName (toSnakeCase name) = none → s.Lacks (ascii "users") (toSnakeCase name) →
      s.usersByUID uid = none →
      (UserUndone renames renames' userLine uid name s ↔
        Undoable renames renames' (ascii "users") (userEntry (toSnakeCase name) (toUInt8 n) uid)
          name s)) ∧
      ∀ doorLine : Str, newDoorSyntax doorLine = some (name, numeral) →
        s.doors (toSnakeCase name) = none →
        (DoorUndone renames renames' doorLine name s ↔
          Undoable renames renames' (ascii "doors") (doorEntry (toSnakeCase name) (toUInt8 n))
            name s) :=
  ⟨fun _ _ huserLine hname hlacks huid => userUndone_iff h huserLine hn hname hlacks huid,
    fun _ hdoorLine hname => doorUndone_iff h hdoorLine hn hname⟩

theorem undone_iff_bob :
    UserUndone true true (ascii "newUser Bob 3") (ascii "04a1") (ascii "Bob")
        (load emptyConfig (.doc emptyConfig)) ∧
      DoorUndone true true (ascii "newDoor Bob 3") (ascii "Bob")
        (load emptyConfig (.doc emptyConfig)) := by
  have h : (load emptyConfig (.doc emptyConfig)).Restartable := rfl
  have hundone := @undone_iff _ h (ascii "Bob") (ascii "3") 3 (by decide) true true
  exact ⟨(hundone.1 (ascii "newUser Bob 3") (ascii "04a1") (by decide) (by decide)
      (by decide +kernel) (by decide)).mpr (by decide +kernel),
    (hundone.2 (ascii "newDoor Bob 3") (by decide) (by decide)).mpr (by decide +kernel)⟩

/-- The user `0gga` of the README cannot be removed. -/
theorem not_undone :
    ¬ ∀ (s : Store) (name numeral userLine uid : Str) (renames renames' : Bool), s.Restartable →
      newUserSyntax userLine = some (name, numeral) → stoul numeral ≠ none →
      s.usersByName (toSnakeCase name) = none → s.Lacks (ascii "users") (toSnakeCase name) →
      s.usersByUID uid = none → UserUndone renames renames' userLine uid name s := by
  intro h
  have huserLine : newUserSyntax (ascii "newUser 0gga 3") = some (ascii "0gga", ascii "3") := by
    decide
  have hlacks : (load emptyConfig (.doc emptyConfig)).Lacks (ascii "users")
      (toSnakeCase (ascii "0gga")) := by
    decide +kernel
  have hstart : (load emptyConfig (.doc emptyConfig)).Restartable := rfl
  have hundone := h (load emptyConfig (.doc emptyConfig)) _ _ _ (ascii "04a1") true true hstart
    huserLine (by decide) (by decide) hlacks (by decide)
  exact absurd ((userUndone_iff hstart huserLine (n := 3) (by decide) (by decide) hlacks
    (by decide)).mp hundone) (by decide +kernel)

end AsyncNFCServer
