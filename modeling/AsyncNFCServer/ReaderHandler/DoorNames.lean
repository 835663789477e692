import AsyncNFCServer.ReaderHandler.DiskFrame
import AsyncNFCServer.ReaderHandler.Revocation

/-!
# The names of a door

The administrator's commands normalise the name of a door, a door client's line
is looked up as it is.  A door that is entered under another spelling than its
canonical one is therefore `Unknown Door` to the client that uses that spelling,
unless config.json has a door of the very same spelling.

`door_answers_iff` follows a door from its `newDoor` to its removal, through
any operations and restarts, and says when a spelling works: when the doors map
has it too, with a level that no known card tells from the level of the canonical
name.
-/

namespace AsyncNFCServer

/-- What can change the store of an installation. -/
inductive Change where
  | op (renames : Bool) (op : AdminOp)
  | restart

/-- One change.  After a restart whose constructor throws there is no server, and
no answer to speak about: the store stays. -/
def Store.after (s : Store) : Change → Store
  | .op renames op => (op.run renames s).store
  | .restart =>
      match startup s.config with
      | .ok s' => s'
      | .error _ => s

/-- The doors map has the key, and so has a well-formed entry of config.json. -/
def Store.Registered (key : Str) (s : Store) : Prop :=
  s.doors key ≠ none ∧ ∃ level, (key, level) ∈ s.config.doorList

/-- Every package of the name and a UID is answered according to the level of the
door that a command of this name means. -/
def Store.Answers (s : Store) (name : Str) : Prop :=
  ∃ level, s.doors (toSnakeCase name) = some level ∧ ∀ uid, uid ≠ [] →
    (handleClient (name ++ colon :: uid) s).replies =
      [if authorized s uid level then ascii "Approved" else ascii "Denied"]

/-- Packages of the two names are answered alike. -/
def Store.AnswersAlike (s : Store) (a b : Str) : Prop :=
  ∀ uid, uid ≠ [] → (handleClient (a ++ colon :: uid) s).replies =
    (handleClient (b ++ colon :: uid) s).replies

/-- Neither name is a door, or both are, at levels that no known card tells
apart. -/
def Store.SameDoor (s : Store) (a b : Str) : Prop :=
  match s.doors a, s.doors b with
  | none, none => True
  | some level, some level' =>
      ∀ uid user, uid ≠ [] → s.usersByUID uid = some user → (level ≤ user.2 ↔ level' ≤ user.2)
  | _, _ => False

theorem Store.SameDoor.refl (s : Store) (a : Str) : s.SameDoor a a := by
  unfold SameDoor
  cases s.doors a with
  | none => trivial
  | some level => exact fun _ _ _ _ => Iff.rfl

/-! ## One lookup -/

/-- A name over the alphabet of the commands is read back from its package. -/
theorem replies_of_wordBytes {name uid : Str} (hne : name ≠ [])
    (hname : ∀ b ∈ name, isWordByte b = true) (huid : uid ≠ []) (s : Store) :
    (handleClient (name ++ colon :: uid) s).replies = [lookup s name uid] := by
  have hcolon : colon ∉ name := by
    intro hmem
    exact absurd (hname colon hmem) (by decide)
  rw [handleClient, parsePackage_append hne hcolon huid]

theorem lookup_of_some {s : Store} {name : Str} {level : Int} (h : s.doors name = some level)
    (uid : Str) :
    lookup s name uid = if authorized s uid level then ascii "Approved" else ascii "Denied" := by
  simp only [lookup, h]

theorem lookup_ne_unknown {s : Store} {name : Str} {level : Int} (h : s.doors name = some level)
    (uid : Str) : lookup s name uid ≠ ascii "Unknown Door" := by
  rw [lookup_of_some h]
  split_ifs <;> decide

/-- Two levels are told apart by the answers exactly if they are by a card. -/
theorem answer_eq_iff {s : Store} {uid : Str} {level level' : Int} :
    ((if authorized s uid level then ascii "Approved" else ascii "Denied") =
        if authorized s uid level' then ascii "Approved" else ascii "Denied") ↔
      ∀ user, s.usersByUID uid = some user → (level ≤ user.2 ↔ level' ≤ user.2) := by
  have hanswers : ascii "Approved" ≠ ascii "Denied" := by decide
  have hsplit : ((if authorized s uid level then ascii "Approved" else ascii "Denied") =
      if authorized s uid level' then ascii "Approved" else ascii "Denied") ↔
        (authorized s uid level = true ↔ authorized s uid level' = true) := by
    by_cases h : authorized s uid level = true <;> by_cases h' : authorized s uid level' = true <;>
      simp [h, h', hanswers, hanswers.symm]
  rw [hsplit, authorized_iff, authorized_iff]
  cases s.usersByUID uid with
  | none => simp
  | some user => simp

/-- **When two names are one door to the door clients.** -/
theorem lookup_eq_iff {s : Store} {a b : Str} :
    (∀ uid, uid ≠ [] → lookup s a uid = lookup s b uid) ↔ s.SameDoor a b := by
  have hother : ([0] : Str) ≠ [] := by decide
  unfold Store.SameDoor
  cases ha : s.doors a with
  | none =>
      cases hb : s.doors b with
      | none => simp [lookup, ha, hb]
      | some level =>
          refine iff_of_false ?_ id
          intro h
          refine lookup_ne_unknown hb [0] ?_
          rw [← h [0] hother, lookup, ha]
  | some level =>
      cases hb : s.doors b with
      | none =>
          refine iff_of_false ?_ id
          intro h
          refine lookup_ne_unknown ha [0] ?_
          rw [h [0] hother, lookup, hb]
      | some level' =>
          simp only [lookup_of_some ha, lookup_of_some hb, answer_eq_iff]
          exact ⟨fun h uid user hne => h uid hne user, fun h uid hne user => h uid user hne⟩

/-! ## The door after its command -/

theorem mem_doorList_iff {config : Content} {fields : Str × Int} :
    fields ∈ config.doorList ↔
      ∃ j, config = .doc j ∧ ∃ door ∈ j.entries (ascii "doors"), doorFields door = some fields := by
  cases config with
  | doc j => simp [Content.doorList, doorEntries]
  | missing | empty | malformed | outOfRange => simp [Content.doorList]

/-- An answered `newDoor` has entered the door in the map and in the file. -/
theorem registered_of_answered {renames : Bool} {doorLine name numeral : Str}
    (hline : newDoorSyntax doorLine = some (name, numeral)) {s : Store}
    (hanswer : (newDoor renames doorLine s).replies = [ascii "Door Added Successfully"]) :
    (newDoor renames doorLine s).store.Registered (toSnakeCase name) := by
  simp only [newDoor, hline] at hanswer ⊢
  cases hn : stoul numeral with
  | none =>
      rw [hn] at hanswer
      exact absurd hanswer (by simp)
  | some n =>
      simp only [hn] at hanswer ⊢
      have hadd := addition_newDoor renames (toSnakeCase name) (toUInt8 n) s
      generalize (AdminOp.newDoor (toSnakeCase name) (toUInt8 n)).run renames s = e at hadd hanswer
      cases hadd with
      | unread e readable => exact absurd hanswer (by simp)
      | unsaved e readable fails => exact absurd hanswer (by simp)
      | saved edited readable renamed takes edits text =>
          obtain ⟨j, -, hedited⟩ := edits
          refine ⟨by simp [enterDoor], _, mem_doorList_iff.mpr ⟨edited, rfl, _, ?_,
            doorFields_doorEntry (toSnakeCase name) (toUInt8 n)⟩⟩
          rw [hedited.entries]
          simp

/-! ### Operations -/

section Later

variable {key : Str} {s : Store} {level : Int}

/-- A removal under another name leaves the entries of the key. -/
theorem mem_eraseP_of_doorFields {name : Str} {door : Json} {es : List Json}
    (hdoor : doorFields door = some (key, level)) (hne : name ≠ key) :
    door ∈ es.eraseP (Json.isNamed name) ↔ door ∈ es := by
  refine List.mem_eraseP_of_neg ?_
  rw [isNamed_of_doorFields hdoor]
  simpa using hne.symm

/-- An edit that keeps the entries of the key keeps the key in the file. -/
theorem mem_doorList_of_edits {list : Str} {change : List Json → List Json} {edited : Json}
    (hedits : s.Edits list change edited)
    (hchange : list = ascii "doors" →
      ∀ es, ∀ door ∈ es, doorFields door = some (key, level) → door ∈ change es)
    (h : (key, level) ∈ s.config.doorList) : (key, level) ∈ (Content.doc edited).doorList := by
  obtain ⟨j, hconfig, door, hmem, hfields⟩ := mem_doorList_iff.mp h
  obtain ⟨j', hread, hedited⟩ := hedits
  obtain rfl : j = j' := by
    rw [hconfig] at hread
    exact Except.ok.inj hread
  refine mem_doorList_iff.mpr ⟨edited, rfl, door, ?_, hfields⟩
  by_cases hlist : list = ascii "doors"
  · subst hlist
    rw [hedited.entries]
    exact hchange rfl _ door hmem hfields
  · rw [Json.entries, hedited.other _ (Ne.symm hlist)]
    exact hmem

/-- The file keeps a door until the operation that removes it. -/
theorem mem_doorList_run (h : (key, level) ∈ s.config.doorList) {op : AdminOp}
    (hop : op ≠ .rmDoor key) (renames : Bool) :
    (key, level) ∈ (op.run renames s).store.config.doorList := by
  rcases op.config_cases renames s with hsame | ⟨edited, hedits, hedited⟩
  · rw [hsame]
    exact h
  · rw [hedited]
    refine mem_doorList_of_edits hedits ?_ h
    intro hlist es door hmem hfields
    cases op with
    | newDoor name accessLevel => exact List.mem_append_left _ hmem
    | rmDoor name =>
        have hne : name ≠ key := fun heq => hop (by rw [heq])
        exact (mem_eraseP_of_doorFields hfields hne).mpr hmem
    | newUser | rmUser => exact absurd (show ascii "users" = ascii "doors" from hlist) (by decide)

/-- The map keeps a door until the operation that removes it. -/
theorem doors_run_ne_none (h : s.doors key ≠ none) {op : AdminOp} (hop : op ≠ .rmDoor key)
    (renames : Bool) : (op.run renames s).store.doors key ≠ none := by
  rcases op.doors_run_cases renames s key with hsame | ⟨-, -, hentered⟩ | ⟨hremoves, -⟩
  · rw [hsame]
    exact h
  · exact hentered
  · exact absurd hremoves hop

/-- A registered door survives every change but its removal. -/
theorem Store.Registered.after (h : s.Registered key) {c : Change}
    (hc : ∀ renames, c ≠ .op renames (.rmDoor key)) : (s.after c).Registered key := by
  obtain ⟨hdoors, level, hlist⟩ := h
  cases c with
  | op renames op =>
      have hop : op ≠ .rmDoor key := fun heq => hc renames (by rw [heq])
      exact ⟨doors_run_ne_none hdoors hop renames, level, mem_doorList_run hlist hop renames⟩
  | restart =>
      obtain ⟨j, hconfig, door, hmem, hfields⟩ := mem_doorList_iff.mp hlist
      have hentry : (key, level) ∈ doorEntries j := List.mem_filterMap.mpr ⟨door, hmem, hfields⟩
      have hafter : s.after .restart = load j (.doc j) := by
        rw [Store.after, hconfig]
        rfl
      rw [hafter]
      refine ⟨?_, level, hentry⟩
      rw [load, loadDoors_eq_tabulate]
      intro hnone
      exact (Table.tabulate_eq_none_iff _ _).mp hnone (key, level) hentry rfl

end Later

/-! ## The answers to a registered door's clients -/

/-- A name is answered as its canonical form is exactly if the two are one door. -/
theorem answers_iff {s : Store} {name : Str} (hne : name ≠ [])
    (hname : ∀ b ∈ name, isWordByte b = true) (hdoor : s.doors (toSnakeCase name) ≠ none) :
    s.Answers name ↔ s.SameDoor name (toSnakeCase name) := by
  obtain ⟨level, hlevel⟩ := Option.ne_none_iff_exists'.mp hdoor
  rw [← lookup_eq_iff]
  constructor
  · rintro ⟨level', hlevel', hanswers⟩ uid huid
    rw [lookup_of_some hlevel', ← List.singleton_inj, ← hanswers uid huid,
      replies_of_wordBytes hne hname huid]
  · intro h
    refine ⟨level, hlevel, ?_⟩
    intro uid huid
    rw [replies_of_wordBytes hne hname huid, h uid huid, lookup_of_some hlevel]

theorem answersAlike_iff {s : Store} {a b : Str} (ha : a ≠ [] ∧ ∀ c ∈ a, isWordByte c = true)
    (hb : b ≠ [] ∧ ∀ c ∈ b, isWordByte c = true) : s.AnswersAlike a b ↔ s.SameDoor a b := by
  rw [← lookup_eq_iff, Store.AnswersAlike]
  refine forall_congr' fun uid => forall_congr' fun huid => ?_
  rw [replies_of_wordBytes ha.1 ha.2 huid, replies_of_wordBytes hb.1 hb.2 huid, List.singleton_inj]

/-- **When the spellings of a door are one door.**  After an answered `newDoor`,
and through any operations and restarts until the door is removed, the name as it
was written is answered according to the door's level if and only if the doors
map has that spelling too, or it is canonical, and no known card tells the levels
of the two keys apart.  Two spellings of any door name are answered alike on the
same condition. -/
theorem door_answers_iff {renames : Bool} {doorLine name numeral : Str}
    (hline : newDoorSyntax doorLine = some (name, numeral)) (s : Store)
    (hanswer : (newDoor renames doorLine s).replies = [ascii "Door Added Successfully"])
    (later : List Change)
    (hlater : ∀ c ∈ later, ∀ renames', c ≠ .op renames' (.rmDoor (toSnakeCase name))) :
    ((Runs.final Store.after (newDoor renames doorLine s).store later).Answers name ↔
        (Runs.final Store.after (newDoor renames doorLine s).store later).SameDoor name
          (toSnakeCase name)) ∧
      ∀ a b : Str, (a ≠ [] ∧ ∀ c ∈ a, isWordByte c = true) →
        (b ≠ [] ∧ ∀ c ∈ b, isWordByte c = true) → toSnakeCase a = toSnakeCase b →
        ((Runs.final Store.after (newDoor renames doorLine s).store later).AnswersAlike a b ↔
          (Runs.final Store.after (newDoor renames doorLine s).store later).SameDoor a b) := by
  refine ⟨?_, fun a b ha hb _ => answersAlike_iff ha hb⟩
  obtain ⟨gap, gap', -, -, hname, -⟩ := addSyntax_eq_some_iff.mp hline
  have hregistered : (Runs.final Store.after (newDoor renames doorLine s).store later).Registered
      (toSnakeCase name) :=
    Runs.invariant_final (J := Store.Registered (toSnakeCase name)) (fun _ _ h hc => h.after hc)
      (registered_of_answered hline hanswer) (Runs.each_of_forall_mem hlater _)
  exact answers_iff hname.1 hname.2 hregistered.1

/-- A door with a canonical name, after an enrolment and a restart. -/
theorem door_answers_iff_lab :
    (Runs.final Store.after
      (newDoor true (ascii "newDoor lab 2") (load emptyConfig (.doc emptyConfig))).store
      [.op true (.newUser (ascii "bob") 3 (ascii "04a1")), .restart]).Answers (ascii "lab") := by
  have hline : newDoorSyntax (ascii "newDoor lab 2") = some (ascii "lab", ascii "2") := by decide
  have hanswer : (newDoor true (ascii "newDoor lab 2")
      (load emptyConfig (.doc emptyConfig))).replies = [ascii "Door Added Successfully"] := by
    decide +kernel
  have hcanonical : toSnakeCase (ascii "lab") = ascii "lab" := by decide
  have hlater : ∀ c ∈ [Change.op true (.newUser (ascii "bob") 3 (ascii "04a1")), .restart],
      ∀ renames', c ≠ .op renames' (.rmDoor (toSnakeCase (ascii "lab"))) := by
    intro c hc renames'
    rcases List.mem_cons.mp hc with rfl | hc
    · simp
    · simp [List.mem_singleton.mp hc]
  refine (door_answers_iff hline _ hanswer _ hlater).1.mpr ?_
  generalize Runs.final _ _ _ = t
  rw [hcanonical]
  exact Store.SameDoor.refl t (ascii "lab")

/-- `newDoor MyDoor 1` enters the door `my_door`; the client at MyDoor is told
that it is unknown. -/
theorem not_forall_answers :
    ¬ ∀ (config : Content) (s : Store) (renames : Bool) (doorLine name numeral : Str),
      startup config = .ok s → newDoorSyntax doorLine = some (name, numeral) →
      (newDoor renames doorLine s).replies = [ascii "Door Added Successfully"] →
      ∀ later : List Change,
        (∀ c ∈ later, ∀ renames', c ≠ .op renames' (.rmDoor (toSnakeCase name))) →
        (Runs.final Store.after (newDoor renames doorLine s).store later).Answers name := by
  intro h
  obtain ⟨level, -, hanswers⟩ := h (.doc emptyConfig) _ true (ascii "newDoor MyDoor 1")
    (ascii "MyDoor") (ascii "1") rfl (by decide) (by decide +kernel) [] (by simp)
  have hreply := hanswers (ascii "04a1") (by decide)
  have hunknown : (handleClient (ascii "MyDoor" ++ colon :: ascii "04a1")
      (newDoor true (ascii "newDoor MyDoor 1") (load emptyConfig (.doc emptyConfig))).store).replies
        = [ascii "Unknown Door"] := by decide +kernel
  rw [Runs.final_nil, hunknown] at hreply
  split_ifs at hreply
  · exact absurd hreply (by decide)
  · exact absurd hreply (by decide)

end AsyncNFCServer
