import AsyncNFCServer.ReaderHandler.Registry
import AsyncNFCServer.ReaderHandler.Saving

/-!
# What the operations leave of config.json

The document may hold much that the maps do not represent: other keys, entries
that the load skips, fields that it does not read.  The operations edit the parsed
document in place, so all of it is still there afterwards.  `disk_frame` says
so for documents whose lists are arrays: an addition appends its entry to its
list, a removal takes entries of the name out of its list, and nothing else
changes.
-/

namespace AsyncNFCServer

namespace Json

/-- An object whose lists `doors` and `users`, where present, are arrays. -/
def Listed (j : Json) : Prop :=
  (∃ ms, j = object ms) ∧ ∀ list, list = ascii "doors" ∨ list = ascii "users" →
    ∀ value, j.member? list = some value → ∃ es, value = array es

/-- The entries that are not named `name`, in order. -/
def notNamed (name : Str) (es : List Json) : List Json := es.filter fun e => !isNamed name e

/-- `edited` is an object with the members of `j`, apart from the list. -/
structure SameBut (list : Str) (j edited : Json) : Prop where
  object : ∃ ms, edited = object ms
  member : ∀ key, key ≠ list → edited.member? key = j.member? key

/-- The list has the entry, of the given name, at its end, and is as before
otherwise. -/
structure Appended (list name : Str) (j entry edited : Json) : Prop
    extends SameBut list j edited where
  list : edited.member? list = some (array (j.entries list ++ [entry]))
  named : entry.isNamed name = true

/-- Entries of the name are gone from the list; the others are there in the old
order. -/
structure Dropped (list name : Str) (j edited : Json) : Prop
    extends SameBut list j edited where
  list : ∃ es, edited.member? list = (j.member? list).map (fun _ => array es) ∧
    es.Sublist (j.entries list) ∧ notNamed name es = notNamed name (j.entries list)

end Json

/-- What a completed operation does to the document. -/
def AdminOp.Frames (j edited : Json) : AdminOp → Prop
  | newDoor name accessLevel =>
      j.Appended (ascii "doors") name (doorEntry name accessLevel) edited
  | newUser name accessLevel uid =>
      j.Appended (ascii "users") name (userEntry name accessLevel uid) edited
  | rmDoor name => j.Dropped (ascii "doors") name edited
  | rmUser name => j.Dropped (ascii "users") name edited

/-! ## The edits of a document -/

namespace Json

variable {list name : Str} {j edited : Json}

theorem notNamed_eraseP (name : Str) (es : List Json) :
    notNamed name (es.eraseP (isNamed name)) = notNamed name es := by
  unfold notNamed
  induction es with
  | nil => rfl
  | cons e es ih =>
      cases he : isNamed name e with
      | true => rw [List.eraseP_cons_of_pos he, List.filter_cons_of_neg (by simp [he])]
      | false =>
          rw [List.eraseP_cons_of_neg (by simp [he]), List.filter_cons_of_pos (by simp [he]),
            List.filter_cons_of_pos (by simp [he]), ih]

theorem exists_object_of_member? {value : Json} {key : Str} (h : j.member? key = some value) :
    ∃ ms, j = object ms := by
  cases j with
  | object ms => exact ⟨ms, rfl⟩
  | null | boolean | numberInteger | numberUnsigned | numberFloat | string | array =>
      exact absurd h (by simp [member?])

theorem appended_of_pushBackAt {listed entry : Json} {es : List Json}
    (hnamed : entry.isNamed name = true)
    (hother : ∀ key, key ≠ list → listed.member? key = j.member? key)
    (hlist : listed.member? list = some (array es)) (hes : j.entries list = es)
    (hpush : listed.pushBackAt list entry = .ok edited) :
    j.Appended list name entry edited := by
  obtain ⟨edited', hpush', hkey, hrest⟩ := pushBackAt_of_member? hlist entry
  obtain rfl : edited = edited' := by
    rw [hpush] at hpush'
    exact Except.ok.inj hpush'
  exact ⟨⟨exists_object_of_member? hkey, fun key hne => (hrest key hne).trans (hother key hne)⟩,
    by rw [hkey, hes], hnamed⟩

/-- The two calls of an addition append the entry to its list. -/
theorem Listed.appended (h : j.Listed) (hlist : list = ascii "doors" ∨ list = ascii "users")
    {listed entry : Json} (hnamed : entry.isNamed name = true)
    (hensure : j.ensureArray list = .ok listed)
    (hpush : listed.pushBackAt list entry = .ok edited) : j.Appended list name entry edited := by
  obtain ⟨⟨ms, rfl⟩, harrays⟩ := h
  cases hmember : (object ms).member? list with
  | some value =>
      obtain ⟨es, rfl⟩ := harrays list hlist value hmember
      rw [ensureArray_of_member? hmember] at hensure
      obtain rfl := Except.ok.inj hensure
      have hes : (object ms).entries list = es := by simp [entries, hmember, items]
      exact appended_of_pushBackAt hnamed (fun _ _ => rfl) hmember hes hpush
  | none =>
      -- the list is created empty first
      obtain rfl : object (setMember list (array []) ms) = listed := by
        simpa [ensureArray, contains, hmember, assign] using hensure
      have hcreated : (object (setMember list (array []) ms)).member? list = some (array []) :=
        findMember_setMember_self ..
      refine appended_of_pushBackAt hnamed ?_ hcreated ?_ hpush
      · intro key hne
        exact findMember_setMember_of_ne hne ..
      · simp [entries, hmember]

/-- The loop of a removal drops entries of the name from its list. -/
theorem Listed.dropped (h : j.Listed) (hlist : list = ascii "doors" ∨ list = ascii "users")
    (herase : j.eraseNamedAt list name = .ok edited) : j.Dropped list name edited := by
  cases hmember : j.member? list with
  | none =>
      obtain rfl : j = edited := by simpa [eraseNamedAt, hmember] using herase
      exact ⟨⟨h.1, fun _ _ => rfl⟩, [], by simp [hmember], List.nil_sublist _,
        by simp [entries, hmember]⟩
  | some value =>
      obtain ⟨es, rfl⟩ := h.2 list hlist value hmember
      obtain ⟨edited', herase', hkey, hother⟩ := eraseNamedAt_of_member? hmember name
      obtain rfl : edited = edited' := by
        rw [herase] at herase'
        exact Except.ok.inj herase'
      have hes : j.entries list = es := by simp [entries, hmember, items]
      exact ⟨⟨exists_object_of_member? hkey, hother⟩, es.eraseP (isNamed name),
        by rw [hkey, hmember]; rfl, by rw [hes]; exact List.eraseP_sublist,
        by rw [hes, notNamed_eraseP]⟩

/-- A removal of an unknown name leaves the document. -/
theorem Listed.dropped_self (h : j.Listed) (hlist : list = ascii "doors" ∨ list = ascii "users")
    (name : Str) : j.Dropped list name j := by
  refine ⟨⟨h.1, fun _ _ => rfl⟩, j.entries list, ?_, List.Sublist.refl _, rfl⟩
  cases hmember : j.member? list with
  | none => rfl
  | some value =>
      obtain ⟨es, rfl⟩ := h.2 list hlist value hmember
      simp [entries, hmember, items]

end Json

/-! ## The operations -/

theorem isNamed_doorEntry (name : Str) (accessLevel : UInt8) :
    (doorEntry name accessLevel).isNamed name = true :=
  (isNamed_of_doorFields (doorFields_doorEntry name accessLevel)).trans (by simp)

theorem isNamed_userEntry (name : Str) (accessLevel : UInt8) (uid : Str) :
    (userEntry name accessLevel uid).isNamed name = true :=
  (isNamed_of_userFields (userFields_userEntry name accessLevel uid)).trans (by simp)

section Operations

variable {renames : Bool} {list name answer : Str} {j : Json} {s : Store}

/-- A completed addition appends its entry. -/
theorem addEntry_frames (hconfig : s.config = .doc j) (hj : j.Listed)
    (hlist : list = ascii "doors" ∨ list = ascii "users") {entry : Json}
    (hnamed : entry.isNamed name = true) {enter : Store → Store}
    (hdone : (addEntry renames list entry answer enter s).thrown = none) :
    ∃ edited, (addEntry renames list entry answer enter s).store.config = .doc edited ∧
      j.Appended list name entry edited := by
  rcases addEntry_cases renames list entry answer enter s with
    ⟨e, -, heq⟩ | ⟨listed, hread, ⟨e, heq⟩ | ⟨edited, -, hpush, -, heq⟩⟩
  · rw [heq] at hdone
    exact absurd hdone (by simp)
  · rw [heq] at hdone
    exact absurd hdone (by simp)
  · rw [hconfig] at hread
    exact ⟨edited, by rw [heq], hj.appended hlist hnamed hread hpush⟩

/-- A completed removal drops entries of its name, or found no name to remove. -/
theorem removeEntry_frames (hconfig : s.config = .doc j) (hj : j.Listed)
    (hlist : list = ascii "doors" ∨ list = ascii "users") {forget : Store → Option Store}
    (hforget : ∀ s', forget s = some s' → s'.config = s.config)
    (hdone : (removeEntry renames list name answer forget s).thrown = none) :
    ∃ edited, (removeEntry renames list name answer forget s).store.config = .doc edited ∧
      j.Dropped list name edited := by
  rcases removeEntry_cases renames list name answer forget s with
    ⟨-, heq⟩ | ⟨s', hs', ⟨e, heq⟩ | ⟨edited, -, herase, -, heq⟩⟩
  · exact ⟨j, by rw [heq, hconfig], hj.dropped_self hlist name⟩
  · rw [heq] at hdone
    exact absurd hdone (by simp)
  · rw [hforget s' hs', hconfig] at herase
    exact ⟨edited, by rw [heq], hj.dropped hlist herase⟩

end Operations

theorem AdminOp.run_frames {renames : Bool} {op : AdminOp} {s : Store} {j : Json}
    (hconfig : s.config = .doc j) (hj : j.Listed) (hdone : (op.run renames s).thrown = none) :
    ∃ edited, (op.run renames s).store.config = .doc edited ∧ op.Frames j edited := by
  cases op with
  | newDoor name accessLevel =>
      exact addEntry_frames hconfig hj (Or.inl rfl) (isNamed_doorEntry name accessLevel) hdone
  | newUser name accessLevel uid =>
      exact addEntry_frames hconfig hj (Or.inr rfl) (isNamed_userEntry name accessLevel uid) hdone
  | rmDoor name =>
      exact removeEntry_frames hconfig hj (Or.inl rfl) (fun _ => config_of_forgetDoor) hdone
  | rmUser name =>
      exact removeEntry_frames hconfig hj (Or.inr rfl) (fun _ => config_of_forgetUser) hdone

/-- **The disk frame.**  Over a document whose lists are arrays, a call whose line
is accepted and which ends without an exception edits its own list only: an
addition appends the entry of the canonical name, a removal drops entries of
that name. -/
theorem disk_frame (renames : Bool) (call : Invocation) (op : AdminOp) (hop : call.op? = some op)
    (s : Store) (j : Json) (hconfig : s.config = .doc j) (hj : j.Listed)
    (hdone : (call.run renames s).thrown = none) :
    ∃ edited, (call.run renames s).store.config = .doc edited ∧ op.Frames j edited := by
  rw [call.run_of_op? hop] at hdone ⊢
  exact op.run_frames hconfig hj hdone

/-- A configuration with a comment, an entry that the load skips and a user with
a field that it does not read. -/
def commentedConfig : Json :=
  .object [(ascii "comment", .string (ascii "ground floor")),
    (ascii "doors", .array [.string (ascii "lab"), doorEntry (ascii "lab") 2]),
    (ascii "users", .array [userEntry (ascii "alice") 1 (ascii "04a1"),
      .object [(ascii "accessLevel", .numberUnsigned 3), (ascii "name", .string (ascii "bob")),
        (ascii "since", .numberInteger 2020), (ascii "uid", .string (ascii "04b2"))]])]

theorem disk_frame_commented :
    ∃ edited, (Invocation.run true (.rmUser (ascii "rmUser Alice"))
          (load commentedConfig (.doc commentedConfig))).store.config = .doc edited ∧
      (AdminOp.rmUser (ascii "alice")).Frames commentedConfig edited := by
  have hlisted : commentedConfig.Listed := by
    refine ⟨⟨_, rfl⟩, ?_⟩
    rintro list (rfl | rfl) value hvalue
    · exact ⟨_, (Option.some.inj hvalue).symm⟩
    · exact ⟨_, (Option.some.inj hvalue).symm⟩
  exact disk_frame true (.rmUser (ascii "rmUser Alice")) _ (by decide +kernel) _ _ rfl hlisted
    (by decide +kernel)

end AsyncNFCServer
