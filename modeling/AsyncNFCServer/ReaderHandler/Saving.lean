import AsyncNFCServer.ReaderHandler.Handlers

/-!
# When an operation saves

An operation mutates the maps between the reading of config.json and its
write-back, and each of the calls in between can throw.  `Addition` and
`Removal` say, once for both operations of a kind, which of them do, in terms of
the file the operation finds: an addition needs a document whose root is an
object or null and whose list is an array, null or missing; the text written
must be UTF-8 and the rename must succeed.

`invocation_unchanged_iff` draws the consequence for failed commands: none of the
operations undoes what it did to the maps.
-/

namespace AsyncNFCServer

/-! ## Documents an entry can be added to -/

namespace Json

/-- `j[key]` is a value or makes one: the root is an object, or null. -/
def rooted : Json → Bool
  | null | object _ => true
  | _ => false

/-- `j[key].push_back(entry)` has or makes an array to append to. -/
def takes (key : Str) (j : Json) : Bool :=
  match j.member? key with
  | none | some null | some (array _) => true
  | _ => false

/-- `edited` is the document with the entries of one list changed. -/
structure EditedAt (key : Str) (change : List Json → List Json) (j edited : Json) : Prop where
  entries : edited.entries key = change (j.entries key)
  takes : j.takes key = true → edited.takes key = true
  rooted : j.rooted = true → edited.rooted = true
  other : ∀ other, other ≠ key → edited.member? other = j.member? other

theorem rooted_of_member? {j value : Json} {key : Str} (h : j.member? key = some value) :
    j.rooted = true := by
  cases j with
  | null | object => rfl
  | boolean | numberInteger | numberUnsigned | numberFloat | string | array =>
      exact absurd h (by simp [member?])

end Json

theorem dumps_of_findMember {key : Str} {value : Json} {ms : List (Str × Json)}
    (h : findMember key ms = some value) (hdumps : dumpsMembers ms = true) :
    utf8 key = true ∧ value.dumps = true := by
  induction ms with
  | nil => simp [findMember] at h
  | cons m ms ih =>
      obtain ⟨k, v⟩ := m
      simp only [dumpsMembers, Bool.and_eq_true] at hdumps
      unfold findMember at h
      split_ifs at h with hk
      · rw [← hk, ← Option.some.inj h]
        exact hdumps.1
      · exact ih h hdumps.2

/-- A new member brings its key and its value into the text. -/
theorem dumpsMembers_setMember_of_none {key : Str} {ms : List (Str × Json)}
    (h : findMember key ms = none) (value : Json) :
    dumpsMembers (setMember key value ms) = (utf8 key && value.dumps && dumpsMembers ms) := by
  induction ms with
  | nil => rfl
  | cons m ms ih =>
      obtain ⟨k, v⟩ := m
      unfold findMember at h
      split_ifs at h with hk
      unfold setMember
      split_ifs with hlt
      · rfl
      · simp only [dumpsMembers, ih h]
        ac_rfl

/-- A member that is replaced by one with more in it brings the rest into the
text. -/
theorem dumpsMembers_setMember_of_some {key : Str} {old value : Json} {rest : Bool}
    {ms : List (Str × Json)} (h : findMember key ms = some old)
    (hvalue : value.dumps = (old.dumps && rest)) :
    dumpsMembers (setMember key value ms) = (dumpsMembers ms && rest) := by
  induction ms with
  | nil => simp [findMember] at h
  | cons m ms ih =>
      obtain ⟨k, v⟩ := m
      unfold findMember at h
      unfold setMember
      split_ifs at h ⊢ with hk hlt
      · obtain rfl := Option.some.inj h
        simp only [dumpsMembers, hvalue]
        ac_rfl
      · -- the old value is further on, and its text is part of the document's
        have hmember := dumps_of_findMember h
        simp only [dumpsMembers, hvalue]
        cases hms : dumpsMembers ms with
        | false => simp
        | true => simp [hmember hms, Bool.and_comm]
      · simp only [dumpsMembers, ih h]
        ac_rfl

theorem dumpsElements_concat (es : List Json) (e : Json) :
    dumpsElements (es ++ [e]) = (dumpsElements es && e.dumps) := by
  induction es with
  | nil => simp [dumpsElements]
  | cons e' es ih =>
      rw [List.cons_append, dumpsElements, dumpsElements, ih]
      ac_rfl

namespace Json

/-- `push_back` on a member that is null or an array. -/
theorem pushBackAt_of_some {key : Str} {ms : List (Str × Json)} {old : Json}
    (hold : findMember key ms = some old) (hlist : old = null ∨ ∃ es, old = array es)
    (entry : Json) :
    ∃ edited, (object ms).pushBackAt key entry = .ok edited ∧
      edited.member? key = some (array (old.items ++ [entry])) ∧
      (∀ other, other ≠ key → edited.member? other = (object ms).member? other) ∧
      edited.dumps = ((object ms).dumps && entry.dumps) := by
  have hpush : old.pushBack entry = .ok (array (old.items ++ [entry])) := by
    rcases hlist with rfl | ⟨es, rfl⟩ <;> rfl
  have hvalue : (array (old.items ++ [entry])).dumps = (old.dumps && entry.dumps) := by
    rcases hlist with rfl | ⟨es, rfl⟩
    · simp [items, Json.dumps, dumpsElements]
    · simp [items, Json.dumps, dumpsElements_concat]
  refine ⟨object (setMember key (array (old.items ++ [entry])) ms), ?_,
    findMember_setMember_self .., fun other hne => findMember_setMember_of_ne hne .., ?_⟩
  · simp only [pushBackAt, member?, hold, Option.getD_some, hpush]
    rfl
  · simp only [Json.dumps, dumpsMembers_setMember_of_some hold hvalue]

/-- What the two calls of an addition make of a document that takes the entry. -/
theorem ensureArray_pushBackAt {key : Str} {j : Json} (hkey : utf8 key = true)
    (hroot : j.rooted = true) (htakes : j.takes key = true) (entry : Json) :
    ∃ listed edited, j.ensureArray key = .ok listed ∧ listed.pushBackAt key entry = .ok edited ∧
      j.EditedAt key (· ++ [entry]) edited ∧ edited.dumps = (j.dumps && entry.dumps) := by
  have hedited : ∀ {edited : Json}, edited.member? key = some (array (j.entries key ++ [entry])) →
      (∀ other, other ≠ key → edited.member? other = j.member? other) →
      j.EditedAt key (· ++ [entry]) edited := fun hmember hother =>
    ⟨by simp [entries, hmember, items], fun _ => by simp [takes, hmember],
      fun _ => rooted_of_member? hmember, hother⟩
  cases j with
  | null =>
      refine ⟨object [(key, array [])], object [(key, array [entry])], rfl, ?_,
        hedited ?_ ?_, ?_⟩
      · simp [pushBackAt, member?, findMember, pushBack, assign, setMember]
        rfl
      · simp [member?, findMember, entries]
      · intro other hne
        simp [member?, findMember, hne.symm]
      · simp [Json.dumps, dumpsMembers, dumpsElements, hkey]
  | object ms =>
      cases hold : findMember key ms with
      | some old =>
          have hlist : old = null ∨ ∃ es, old = array es := by
            cases old <;> simp [takes, member?, hold] at htakes ⊢
          obtain ⟨edited, hpush, hmember, hother, hdumps⟩ := pushBackAt_of_some hold hlist entry
          refine ⟨object ms, edited, ?_, hpush, hedited ?_ hother, hdumps⟩
          · simp [ensureArray, contains, member?, hold]
          · simpa [entries, member?, hold] using hmember
      | none =>
          -- the list is created empty first
          obtain ⟨edited, hpush, hmember, hother, hdumps⟩ := pushBackAt_of_some
            (findMember_setMember_self key (array []) ms) (Or.inr ⟨[], rfl⟩) entry
          refine ⟨object (setMember key (array []) ms), edited, ?_, hpush, hedited ?_ ?_, ?_⟩
          · simp [ensureArray, contains, member?, hold, assign]
          · simpa [entries, member?, hold, items] using hmember
          · intro other hne
            rw [hother other hne]
            exact findMember_setMember_of_ne hne ..
          · rw [hdumps, Json.dumps, dumpsMembers_setMember_of_none hold]
            simp [Json.dumps, dumpsElements, hkey]
  | boolean | numberInteger | numberUnsigned | numberFloat | string | array =>
      exact absurd hroot (by simp [rooted])

theorem ensureArray_of_not_rooted {key : Str} {j : Json} (h : j.rooted = false) :
    ∃ e, j.ensureArray key = .error e := by
  cases j with
  | null | object => simp [rooted] at h
  | boolean | numberInteger | numberUnsigned | numberFloat | string | array =>
      exact ⟨.typeError, by simp [ensureArray, contains, member?, assign]⟩

theorem pushBackAt_of_not_takes {key : Str} {j : Json} (h : j.takes key = false) (entry : Json) :
    j.ensureArray key = .ok j ∧ ∃ e, j.pushBackAt key entry = .error e := by
  cases hmember : j.member? key with
  | none => simp [takes, hmember] at h
  | some value =>
      refine ⟨by simp [ensureArray, contains, hmember], .typeError, ?_⟩
      cases value with
      | null | array => simp [takes, hmember] at h
      | boolean | numberInteger | numberUnsigned | numberFloat | string | object =>
          simp [pushBackAt, hmember, pushBack]
          rfl

/-- The erasing loop does not throw, and erases the first entry with the name. -/
theorem exists_eraseNamedAt (key name : Str) (j : Json) :
    ∃ edited, j.eraseNamedAt key name = .ok edited ∧
      j.EditedAt key (·.eraseP (isNamed name)) edited := by
  cases hmember : j.member? key with
  | none =>
      exact ⟨j, by simp [eraseNamedAt, hmember], by simp [entries, hmember], id, id,
        fun _ _ => rfl⟩
  | some list =>
      obtain ⟨edited, hassign, hkey, hother⟩ := assign_of_member? hmember (list.eraseNamed name)
      refine ⟨edited, by simp [eraseNamedAt, hmember, hassign], ?_, ?_,
        fun _ => rooted_of_member? hkey, hother⟩
      · simp only [entries, hkey, hmember, Option.map_some, Option.getD_some]
        cases list with
        | null => rfl
        | array es => rfl
        | object ms => simp only [eraseNamed, items, List.eraseP_map]; rfl
        | boolean | numberInteger | numberUnsigned | numberFloat | string =>
            simp [eraseNamed, items, isNamed, member?]
      · simp only [takes, hkey, hmember]
        cases list <;> simp [eraseNamed]

end Json

/-! ### What is erased leaves a text -/

theorem dumpsElements_iff {es : List Json} :
    dumpsElements es = true ↔ ∀ e ∈ es, e.dumps = true := by
  induction es with
  | nil => simp [dumpsElements]
  | cons e es ih => simp [dumpsElements, ih]

theorem dumpsMembers_iff {ms : List (Str × Json)} :
    dumpsMembers ms = true ↔ ∀ m ∈ ms, utf8 m.1 = true ∧ m.2.dumps = true := by
  induction ms with
  | nil => simp [dumpsMembers]
  | cons m ms ih => simp [dumpsMembers, ih]

theorem dumpsMembers_setMember {key : Str} {value : Json} {ms : List (Str × Json)}
    (hms : dumpsMembers ms = true) (hkey : utf8 key = true) (hvalue : value.dumps = true) :
    dumpsMembers (setMember key value ms) = true := by
  induction ms with
  | nil => simp [setMember, dumpsMembers, hkey, hvalue]
  | cons m ms ih =>
      obtain ⟨k, v⟩ := m
      simp only [dumpsMembers, Bool.and_eq_true] at hms
      unfold setMember
      split_ifs <;> simp [dumpsMembers, hms, hkey, hvalue, ih hms.2]

theorem Json.dumps_eraseNamed {j : Json} (h : j.dumps = true) (name : Str) :
    (j.eraseNamed name).dumps = true := by
  cases j with
  | array es =>
      refine dumpsElements_iff.mpr ?_
      intro e he
      exact dumpsElements_iff.mp h e (List.mem_of_mem_eraseP he)
  | object ms =>
      refine dumpsMembers_iff.mpr ?_
      intro m hm
      exact dumpsMembers_iff.mp h m (List.mem_of_mem_eraseP hm)
  | null | boolean | numberInteger | numberUnsigned | numberFloat | string => exact h

theorem Json.dumps_of_eraseNamedAt {key name : Str} {j edited : Json}
    (h : j.eraseNamedAt key name = .ok edited) (hdumps : j.dumps = true) :
    edited.dumps = true := by
  unfold Json.eraseNamedAt at h
  cases hmember : j.member? key with
  | none =>
      rw [hmember] at h
      rw [← Except.ok.inj h]
      exact hdumps
  | some list =>
      rw [hmember] at h
      cases j with
      | object ms =>
          obtain ⟨hkey, hlist⟩ := dumps_of_findMember hmember hdumps
          rw [← Except.ok.inj h]
          exact dumpsMembers_setMember hdumps hkey (Json.dumps_eraseNamed hlist name)
      | null | boolean | numberInteger | numberUnsigned | numberFloat | string | array =>
          exact absurd hmember (by simp [Json.member?])

/-! ## How the operations end -/

/-- config.json can take the entry, as far as its shape and the texts go. -/
def Store.takes (list : Str) (entry : Json) (s : Store) : Bool :=
  match readConfig s.config with
  | .ok configJson =>
      configJson.rooted && configJson.takes list && configJson.dumps && entry.dumps
  | .error _ => false

/-- config.json, less the first entry of the list with the name, is UTF-8. -/
def Store.dumpsWithout (list name : Str) (s : Store) : Bool :=
  match readConfig s.config >>= Json.eraseNamedAt list name with
  | .ok edited => edited.dumps
  | .error _ => false

/-- `edited` is the document of the file, changed in the list only. -/
def Store.Edits (s : Store) (list : Str) (change : List Json → List Json) (edited : Json) : Prop :=
  ∃ configJson, readConfig s.config = .ok configJson ∧ configJson.EditedAt list change edited

/-- How an addition ends. -/
inductive Addition (renames : Bool) (list : Str) (entry : Json) (answer : Str)
    (enter : Store → Store) (s : Store) : Ended → Prop
  | unread (e : Exn) (readable : s.listReadable list = false) :
      Addition renames list entry answer enter s ⟨s, [], some e⟩
  /-- the maps have the entry, the file has not -/
  | unsaved (e : Exn) (readable : s.listReadable list = true)
      (fails : ¬ (renames = true ∧ s.takes list entry = true)) :
      Addition renames list entry answer enter s ⟨enter s, [], some e⟩
  | saved (edited : Json) (readable : s.listReadable list = true) (renamed : renames = true)
      (takes : s.takes list entry = true) (edits : s.Edits list (· ++ [entry]) edited)
      (text : edited.dumps = true) :
      Addition renames list entry answer enter s
        ⟨{ enter s with config := .doc edited }, [answer], none⟩

/-- How a removal ends. -/
inductive Removal (renames : Bool) (list name answer : Str) (forget : Store → Option Store)
    (s : Store) : Ended → Prop
  | unknown (forgotten : forget s = none) :
      Removal renames list name answer forget s ⟨s, [], none⟩
  /-- the maps have forgotten the name, the file has not -/
  | unsaved (s' : Store) (e : Exn) (forgotten : forget s = some s')
      (fails : ¬ (renames = true ∧ s.dumpsWithout list name = true)) :
      Removal renames list name answer forget s ⟨s', [], some e⟩
  | saved (s' : Store) (edited : Json) (forgotten : forget s = some s') (renamed : renames = true)
      (dumps : s.dumpsWithout list name = true)
      (edits : s.Edits list (·.eraseP (Json.isNamed name)) edited) (text : edited.dumps = true) :
      Removal renames list name answer forget s
        ⟨{ s' with config := .doc edited }, [answer], none⟩

theorem readConfig_bind {config : Content} {configJson : Json}
    (hread : readConfig config = .ok configJson) (f : Json → Except Exn Json) :
    (readConfig config >>= f) = f configJson := by
  rw [hread]
  rfl

/-- A list is readable in a document whose root is an object or null. -/
theorem Store.listReadable_eq {list : Str} {s : Store} {configJson : Json}
    (hread : readConfig s.config = .ok configJson) : s.listReadable list = configJson.rooted := by
  rw [Store.listReadable, readConfig_bind hread]
  cases configJson with
  | null => rfl
  | object ms =>
      simp only [Json.ensureArray]
      split <;> rfl
  | boolean | numberInteger | numberUnsigned | numberFloat | string | array =>
      simp [Json.ensureArray, Json.contains, Json.member?, Json.assign, Json.rooted, Except.isOk,
        Except.toBool]

theorem Store.takes_eq {list : Str} {s : Store} {configJson : Json}
    (hread : readConfig s.config = .ok configJson) (entry : Json) :
    s.takes list entry =
      (configJson.rooted && configJson.takes list && configJson.dumps && entry.dumps) := by
  rw [Store.takes, hread]

/-- A list that takes an entry can be read. -/
theorem Store.listReadable_of_takes {list : Str} {entry : Json} {s : Store}
    (h : s.takes list entry = true) : s.listReadable list = true := by
  cases hread : readConfig s.config with
  | error e => simp [Store.takes, hread] at h
  | ok configJson =>
      rw [Store.takes_eq hread, Bool.and_eq_true, Bool.and_eq_true, Bool.and_eq_true] at h
      rw [Store.listReadable_eq hread]
      exact h.1.1.1

/-- A write-back that fails leaves the store, with no answer. -/
theorem writeBack_of_fails {renames : Bool} {configJson : Json}
    (h : ¬ (renames = true ∧ configJson.dumps = true)) (answer : Str) (s : Store) :
    ∃ e, writeBack renames configJson answer s = ⟨s, [], some e⟩ := by
  rcases writeBack_cases renames configJson answer s with hfails | ⟨hrenames, hdumps, -⟩
  · exact hfails
  · exact absurd ⟨hrenames, hdumps⟩ h

theorem writeBack_of_saves {renames : Bool} {configJson : Json} (hrenames : renames = true)
    (hdumps : configJson.dumps = true) (answer : Str) (s : Store) :
    writeBack renames configJson answer s =
      ⟨{ s with config := .doc configJson }, [answer], none⟩ := by
  simp [writeBack, hrenames, hdumps]

/-- An addition that gets past the file's shape comes to its write-back. -/
theorem addEntry_writeBack {list : Str} (hlist : utf8 list = true) {s : Store} {configJson : Json}
    (hread : readConfig s.config = .ok configJson) (hroot : configJson.rooted = true)
    (htakes : configJson.takes list = true) (renames : Bool) (entry : Json) (answer : Str)
    (enter : Store → Store) :
    ∃ edited, s.Edits list (· ++ [entry]) edited ∧ edited.dumps = s.takes list entry ∧
      addEntry renames list entry answer enter s = writeBack renames edited answer (enter s) := by
  obtain ⟨listed, edited, hensure, hpush, hedited, hdumps⟩ :=
    Json.ensureArray_pushBackAt hlist hroot htakes entry
  refine ⟨edited, ⟨configJson, hread, hedited⟩, ?_, ?_⟩
  · rw [hdumps, s.takes_eq hread, hroot, htakes]
    simp
  · simp only [addEntry, readConfig_bind hread, hensure, hpush]

theorem addition_addEntry (renames : Bool) {list : Str} (hlist : utf8 list = true) (entry : Json)
    (answer : Str) (enter : Store → Store) (s : Store) :
    Addition renames list entry answer enter s
      (addEntry renames list entry answer enter s) := by
  cases hread : readConfig s.config with
  | error e =>
      have hnot : s.listReadable list = false := by
        rw [Store.listReadable, hread]
        rfl
      have hadd : addEntry renames list entry answer enter s = ⟨s, [], some e⟩ := by
        rw [addEntry, hread]
        rfl
      rw [hadd]
      exact .unread e hnot
  | ok configJson =>
      have hreadable : s.listReadable list = configJson.rooted := s.listReadable_eq hread
      cases hroot : configJson.rooted with
      | false =>
          obtain ⟨e, he⟩ : ∃ e, configJson.ensureArray list = .error e :=
            Json.ensureArray_of_not_rooted hroot
          have hadd : addEntry renames list entry answer enter s = ⟨s, [], some e⟩ := by
            simp only [addEntry, readConfig_bind hread, he]
          rw [hadd]
          exact .unread e (by rw [hreadable, hroot])
      | true =>
          rw [hroot] at hreadable
          cases htakes : configJson.takes list with
          | false =>
              obtain ⟨hensure, e, he⟩ := Json.pushBackAt_of_not_takes htakes entry
              have hadd : addEntry renames list entry answer enter s =
                  ⟨enter s, [], some e⟩ := by
                simp only [addEntry, readConfig_bind hread, hensure, he]
              rw [hadd]
              exact .unsaved e hreadable (by simp [s.takes_eq hread, htakes])
          | true =>
              obtain ⟨edited, hedits, hdumps, hadd⟩ :=
                addEntry_writeBack hlist hread hroot htakes renames entry answer enter
              rw [hadd]
              by_cases hsaves : renames = true ∧ edited.dumps = true
              · rw [writeBack_of_saves hsaves.1 hsaves.2]
                exact .saved edited hreadable hsaves.1 (by rw [← hdumps, hsaves.2]) hedits hsaves.2
              · obtain ⟨e, he⟩ := writeBack_of_fails hsaves answer (enter s)
                rw [he]
                exact .unsaved e hreadable (by rwa [← hdumps])

/-- `forget` is to leave the file alone. -/
theorem removal_removeEntry (renames : Bool) (list name answer : Str)
    {forget : Store → Option Store} {s : Store}
    (hforget : ∀ s', forget s = some s' → s'.config = s.config) :
    Removal renames list name answer forget s
      (removeEntry renames list name answer forget s) := by
  cases hforgotten : forget s with
  | none =>
      have hremove : removeEntry renames list name answer forget s = ⟨s, [], none⟩ := by
        simp only [removeEntry, hforgotten]
      rw [hremove]
      exact .unknown hforgotten
  | some s' =>
      have hconfig := hforget s' hforgotten
      cases hread : readConfig s.config with
      | error e =>
          have hremove : removeEntry renames list name answer forget s = ⟨s', [], some e⟩ := by
            simp only [removeEntry, hforgotten, hconfig, hread]
            rfl
          have hnot : s.dumpsWithout list name = false := by
            rw [Store.dumpsWithout, hread]
            rfl
          rw [hremove]
          exact .unsaved s' e hforgotten (by simp [hnot])
      | ok configJson =>
          obtain ⟨edited, herase, hedited⟩ := configJson.exists_eraseNamedAt list name
          have hbind : (readConfig s.config >>= Json.eraseNamedAt list name) = .ok edited := by
            rw [readConfig_bind hread, herase]
          have hdumps : s.dumpsWithout list name = edited.dumps := by
            rw [Store.dumpsWithout, hbind]
          have hremove : removeEntry renames list name answer forget s =
              writeBack renames edited answer s' := by
            simp only [removeEntry, hforgotten, hconfig, hbind]
          rw [hremove]
          by_cases hsaves : renames = true ∧ edited.dumps = true
          · rw [writeBack_of_saves hsaves.1 hsaves.2]
            exact .saved s' edited hforgotten hsaves.1 (by rw [hdumps, hsaves.2])
              ⟨configJson, hread, hedited⟩ hsaves.2
          · obtain ⟨e, he⟩ := writeBack_of_fails hsaves answer s'
            rw [he]
            exact .unsaved s' e hforgotten (by rwa [hdumps])

theorem Store.dumpsWithout_of_dumps {s : Store} {configJson : Json}
    (hread : readConfig s.config = .ok configJson) (hdumps : configJson.dumps = true)
    (list name : Str) : s.dumpsWithout list name = true := by
  obtain ⟨edited, herase, -⟩ := configJson.exists_eraseNamedAt list name
  rw [Store.dumpsWithout, readConfig_bind hread, herase]
  exact Json.dumps_of_eraseNamedAt herase hdumps

/-! ## How the four operations end -/

theorem forgetDoor_eq_some_iff {name : Str} {s s' : Store} :
    forgetDoor name s = some s' ↔
      s.doors name ≠ none ∧ s' = { s with doors := s.doors.erase name } := by
  unfold forgetDoor
  cases s.doors name with
  | none => simp
  | some level => simp [eq_comm]

theorem forgetUser_eq_some_iff {name : Str} {s s' : Store} :
    forgetUser name s = some s' ↔
      ∃ user, s.usersByName name = some user ∧
        s' = { s with
          usersByUID := s.usersByUID.erase user.1
          usersByName := s.usersByName.erase name } := by
  unfold forgetUser
  cases s.usersByName name with
  | none => simp
  | some user => simp [eq_comm]

theorem config_of_forgetDoor {name : Str} {s s' : Store} (h : forgetDoor name s = some s') :
    s'.config = s.config := by
  rw [(forgetDoor_eq_some_iff.mp h).2]

theorem config_of_forgetUser {name : Str} {s s' : Store} (h : forgetUser name s = some s') :
    s'.config = s.config := by
  obtain ⟨user, -, rfl⟩ := forgetUser_eq_some_iff.mp h
  rfl

theorem addition_newDoor (renames : Bool) (name : Str) (accessLevel : UInt8) (s : Store) :
    Addition renames (ascii "doors") (doorEntry name accessLevel)
      (ascii "Door Added Successfully") (enterDoor name accessLevel) s
      ((AdminOp.newDoor name accessLevel).run renames s) :=
  addition_addEntry renames (by decide) ..

theorem addition_newUser (renames : Bool) (name : Str) (accessLevel : UInt8) (uid : Str)
    (s : Store) :
    Addition renames (ascii "users") (userEntry name accessLevel uid)
      (ascii "User Added Successfully") (enterUser name accessLevel uid) s
      ((AdminOp.newUser name accessLevel uid).run renames s) :=
  addition_addEntry renames (by decide) ..

theorem removal_rmDoor (renames : Bool) (name : Str) (s : Store) :
    Removal renames (ascii "doors") name (ascii "Door Removed Successfully") (forgetDoor name) s
      ((AdminOp.rmDoor name).run renames s) :=
  removal_removeEntry renames _ _ _ fun _ => config_of_forgetDoor

theorem removal_rmUser (renames : Bool) (name : Str) (s : Store) :
    Removal renames (ascii "users") name (ascii "User Removed Successfully") (forgetUser name) s
      ((AdminOp.rmUser name).run renames s) :=
  removal_removeEntry renames _ _ _ fun _ => config_of_forgetUser

/-! ### When they throw -/

theorem Addition.throws_iff {renames : Bool} {list : Str} {entry : Json} {answer : Str}
    {enter : Store → Store} {s : Store} {e : Ended}
    (h : Addition renames list entry answer enter s e) :
    e.thrown ≠ none ↔ ¬ (renames = true ∧ s.takes list entry = true) := by
  cases h with
  | unread exn readable =>
      refine iff_of_true (by simp) fun hsaves => ?_
      rw [Store.listReadable_of_takes hsaves.2] at readable
      exact absurd readable (by simp)
  | unsaved exn readable fails => exact iff_of_true (by simp) fails
  | saved edited readable renamed takes edits text =>
      exact iff_of_false (by simp) (not_not_intro ⟨renamed, takes⟩)

theorem Removal.throws_iff {renames : Bool} {list name answer : Str}
    {forget : Store → Option Store} {s : Store} {e : Ended}
    (h : Removal renames list name answer forget s e) :
    e.thrown ≠ none ↔
      forget s ≠ none ∧ ¬ (renames = true ∧ s.dumpsWithout list name = true) := by
  cases h with
  | unknown forgotten => exact iff_of_false (by simp) fun hfails => hfails.1 forgotten
  | unsaved s' exn forgotten fails =>
      exact iff_of_true (by simp) ⟨by simp [forgotten], fails⟩
  | saved s' edited forgotten renamed dumps edits text =>
      exact iff_of_false (by simp) fun hfails => hfails.2 ⟨renamed, dumps⟩

/-- The operation cannot be completed: the rename fails, or the document cannot be edited or
dumped.  A removal of a name that the maps do not have comes to none of this. -/
def AdminOp.Fails (renames : Bool) (s : Store) : AdminOp → Prop
  | newDoor name accessLevel =>
      ¬ (renames = true ∧ s.takes (ascii "doors") (doorEntry name accessLevel) = true)
  | newUser name accessLevel uid =>
      ¬ (renames = true ∧ s.takes (ascii "users") (userEntry name accessLevel uid) = true)
  | rmDoor name =>
      s.doors name ≠ none ∧ ¬ (renames = true ∧ s.dumpsWithout (ascii "doors") name = true)
  | rmUser name =>
      s.usersByName name ≠ none ∧ ¬ (renames = true ∧ s.dumpsWithout (ascii "users") name = true)

/-- An operation throws exactly if it cannot be completed. -/
theorem AdminOp.throws_iff (renames : Bool) (op : AdminOp) (s : Store) :
    (op.run renames s).thrown ≠ none ↔ op.Fails renames s := by
  cases op with
  | newDoor name accessLevel => exact (addition_newDoor renames name accessLevel s).throws_iff
  | newUser name accessLevel uid =>
      exact (addition_newUser renames name accessLevel uid s).throws_iff
  | rmDoor name =>
      rw [(removal_rmDoor renames name s).throws_iff, Fails]
      cases hdoor : s.doors name <;> simp [forgetDoor, hdoor]
  | rmUser name =>
      rw [(removal_rmUser renames name s).throws_iff, Fails]
      cases huser : s.usersByName name <;> simp [forgetUser, huser]

/-! ### What they do to the file -/

/-- The list of config.json that the operation edits. -/
def AdminOp.list : AdminOp → Str
  | newDoor _ _ | rmDoor _ => ascii "doors"
  | newUser _ _ _ | rmUser _ => ascii "users"

/-- The list as the operation writes it. -/
def AdminOp.edit : AdminOp → List Json → List Json
  | newDoor name accessLevel => (· ++ [doorEntry name accessLevel])
  | newUser name accessLevel uid => (· ++ [userEntry name accessLevel uid])
  | rmDoor name | rmUser name => (·.eraseP (Json.isNamed name))

theorem Addition.config_cases {renames : Bool} {list : Str} {entry : Json} {answer : Str}
    {enter : Store → Store} {s : Store} {e : Ended} (henter : (enter s).config = s.config)
    (h : Addition renames list entry answer enter s e) :
    e.store.config = s.config ∨
      ∃ edited, s.Edits list (· ++ [entry]) edited ∧ e.store.config = .doc edited := by
  cases h with
  | unread e readable => exact Or.inl rfl
  | unsaved e readable fails => exact Or.inl henter
  | saved edited readable renamed takes edits text => exact Or.inr ⟨edited, edits, rfl⟩

theorem Removal.config_cases {renames : Bool} {list name answer : Str}
    {forget : Store → Option Store} {s : Store} {e : Ended}
    (hforget : ∀ s', forget s = some s' → s'.config = s.config)
    (h : Removal renames list name answer forget s e) :
    e.store.config = s.config ∨
      ∃ edited, s.Edits list (·.eraseP (Json.isNamed name)) edited ∧
        e.store.config = .doc edited := by
  cases h with
  | unknown forgotten => exact Or.inl rfl
  | unsaved s' e forgotten fails => exact Or.inl (hforget s' forgotten)
  | saved s' edited forgotten renamed dumps edits text => exact Or.inr ⟨edited, edits, rfl⟩

/-- An operation leaves the file, or edits its list and nothing else. -/
theorem AdminOp.config_cases (renames : Bool) (op : AdminOp) (s : Store) :
    (op.run renames s).store.config = s.config ∨
      ∃ edited, s.Edits op.list op.edit edited ∧
        (op.run renames s).store.config = .doc edited := by
  cases op with
  | newDoor name accessLevel =>
      exact (addition_newDoor renames name accessLevel s).config_cases rfl
  | newUser name accessLevel uid =>
      exact (addition_newUser renames name accessLevel uid s).config_cases rfl
  | rmDoor name => exact (removal_rmDoor renames name s).config_cases fun _ => config_of_forgetDoor
  | rmUser name => exact (removal_rmUser renames name s).config_cases fun _ => config_of_forgetUser

/-! ## Failed commands -/

/-- A call of one of the four operations on the line it is given. -/
inductive Invocation where
  | newDoor (doorData : Str)
  /-- the UID handler, with the `name` and `accessLevel` it captured -/
  | newUser (name : Str) (accessLevel : UInt8) (uid : Str)
  | rmDoor (doorData : Str)
  | rmUser (userdata : Str)
  deriving DecidableEq, Repr

def Invocation.run (renames : Bool) : Invocation → Store → Ended
  | newDoor doorData => AsyncNFCServer.newDoor renames doorData
  | newUser name accessLevel uid => (AdminOp.newUser name accessLevel uid).run renames
  | rmDoor doorData => AsyncNFCServer.rmDoor renames doorData
  | rmUser userdata => AsyncNFCServer.rmUser renames userdata

/-- The operation that the call comes to, unless its line is refused. -/
def Invocation.op? : Invocation → Option AdminOp
  | newDoor doorData => do
      let (name, numeral) ← newDoorSyntax doorData
      let n ← stoul numeral
      return .newDoor (toSnakeCase name) (toUInt8 n)
  | newUser name accessLevel uid => some (.newUser name accessLevel uid)
  | rmDoor doorData => (rmDoorSyntax doorData).map fun name => .rmDoor (toSnakeCase name)
  | rmUser userdata => (rmUserSyntax userdata).map fun name => .rmUser (toSnakeCase name)

/-- If the call ends by an exception, it leaves the maps and the file as they
were. -/
def Ended.Unchanged (e : Ended) (s : Store) : Prop := e.thrown ≠ none → e.store = s

/-- The operation saves, or stops before it changes the maps. -/
def AdminOp.Harmless (renames : Bool) (s : Store) : AdminOp → Prop
  | newDoor name accessLevel =>
      s.listReadable (ascii "doors") = false ∨
        (renames = true ∧ s.takes (ascii "doors") (doorEntry name accessLevel) = true) ∨
        s.doors name = some (accessLevel.toNat : Int)
  | newUser name accessLevel uid =>
      s.listReadable (ascii "users") = false ∨
        (renames = true ∧ s.takes (ascii "users") (userEntry name accessLevel uid) = true) ∨
        (s.usersByName name = some (uid, (accessLevel.toNat : Int)) ∧
          s.usersByUID uid = some (name, (accessLevel.toNat : Int)))
  | rmDoor name =>
      s.doors name = none ∨ (renames = true ∧ s.dumpsWithout (ascii "doors") name = true)
  | rmUser name =>
      s.usersByName name = none ∨ (renames = true ∧ s.dumpsWithout (ascii "users") name = true)

/-- A refused line changes nothing. -/
theorem Invocation.run_store_of_none {call : Invocation} (h : call.op? = none) (renames : Bool)
    (s : Store) : (call.run renames s).store = s := by
  cases call with
  | newDoor doorData =>
      rw [run, newDoor_store]
      cases hform : newDoorSyntax doorData with
      | none => rfl
      | some fields =>
          simp only [op?, hform, Option.bind_eq_bind, Option.bind_some, Option.bind_eq_none_iff,
            reduceCtorEq, imp_false] at h
          simp [Option.eq_none_iff_forall_not_mem.mpr h]
  | newUser name accessLevel uid => exact absurd h (by simp [op?])
  | rmDoor doorData =>
      simp only [op?, Option.map_eq_none_iff] at h
      simp [run, AsyncNFCServer.rmDoor, h]
  | rmUser userdata =>
      simp only [op?, Option.map_eq_none_iff] at h
      simp [run, AsyncNFCServer.rmUser, h]

theorem Invocation.run_of_op? {call : Invocation} {op : AdminOp} (h : call.op? = some op)
    (renames : Bool) (s : Store) : call.run renames s = op.run renames s := by
  cases call with
  | newDoor doorData =>
      simp only [op?, Option.bind_eq_bind, Option.bind_eq_some_iff] at h
      obtain ⟨⟨name, numeral⟩, hform, n, hn, hop⟩ := h
      obtain rfl := Option.some.inj hop
      simp [run, AsyncNFCServer.newDoor, hform, hn]
  | newUser name accessLevel uid =>
      obtain rfl := Option.some.inj h
      rfl
  | rmDoor doorData =>
      obtain ⟨name, hname, rfl⟩ := Option.map_eq_some_iff.mp h
      simp [run, AsyncNFCServer.rmDoor, hname]
  | rmUser userdata =>
      obtain ⟨name, hname, rfl⟩ := Option.map_eq_some_iff.mp h
      simp [run, AsyncNFCServer.rmUser, hname]

theorem enterDoor_eq_self_iff {name : Str} {accessLevel : UInt8} {s : Store} :
    enterDoor name accessLevel s = s ↔ s.doors name = some (accessLevel.toNat : Int) := by
  cases s
  simp [enterDoor, Table.insert_eq_self_iff]

theorem enterUser_eq_self_iff {name : Str} {accessLevel : UInt8} {uid : Str} {s : Store} :
    enterUser name accessLevel uid s = s ↔
      s.usersByName name = some (uid, (accessLevel.toNat : Int)) ∧
        s.usersByUID uid = some (name, (accessLevel.toNat : Int)) := by
  cases s
  simp [enterUser, Table.insert_eq_self_iff]

/-- An addition is undone by its failure only if it had nothing to do. -/
theorem Addition.unchanged_iff {renames : Bool} {list : Str} {entry : Json} {answer : Str}
    {enter : Store → Store} {s : Store} {e : Ended}
    (h : Addition renames list entry answer enter s e) :
    e.Unchanged s ↔ s.listReadable list = false ∨
      (renames = true ∧ s.takes list entry = true) ∨ enter s = s := by
  cases h with
  | unread e readable => simp [Ended.Unchanged, readable]
  | unsaved e readable fails => simp [Ended.Unchanged, readable, fails]
  | saved edited readable renamed takes edits text => simp [Ended.Unchanged, renamed, takes]

/-- A removal is never undone by its failure. -/
theorem Removal.unchanged_iff {renames : Bool} {list name answer : Str}
    {forget : Store → Option Store} {s : Store} {e : Ended}
    (hforget : ∀ s', forget s = some s' → s' ≠ s)
    (h : Removal renames list name answer forget s e) :
    e.Unchanged s ↔ forget s = none ∨ (renames = true ∧ s.dumpsWithout list name = true) := by
  cases h with
  | unknown forgotten => simp [Ended.Unchanged, forgotten]
  | unsaved s' e forgotten fails =>
      simp [Ended.Unchanged, forgotten, fails, hforget s' forgotten]
  | saved s' edited forgotten renamed dumps edits text => simp [Ended.Unchanged, renamed, dumps]

theorem AdminOp.unchanged_iff (renames : Bool) (op : AdminOp) (s : Store) :
    (op.run renames s).Unchanged s ↔ op.Harmless renames s := by
  cases op with
  | newDoor name accessLevel =>
      rw [(addition_newDoor renames name accessLevel s).unchanged_iff, enterDoor_eq_self_iff]
      rfl
  | newUser name accessLevel uid =>
      rw [(addition_newUser renames name accessLevel uid s).unchanged_iff, enterUser_eq_self_iff]
      rfl
  | rmDoor name =>
      have hforget : ∀ s', forgetDoor name s = some s' → s' ≠ s := by
        intro s' hs' heq
        obtain ⟨hknown, rfl⟩ := forgetDoor_eq_some_iff.mp hs'
        exact s.doors.erase_ne_self hknown (congrArg Store.doors heq)
      rw [(removal_rmDoor renames name s).unchanged_iff hforget]
      simp only [Harmless, forgetDoor]
      cases s.doors name <;> simp
  | rmUser name =>
      have hforget : ∀ s', forgetUser name s = some s' → s' ≠ s := by
        intro s' hs' heq
        obtain ⟨user, huser, rfl⟩ := forgetUser_eq_some_iff.mp hs'
        exact s.usersByName.erase_ne_self (by simp [huser]) (congrArg Store.usersByName heq)
      rw [(removal_rmUser renames name s).unchanged_iff hforget]
      simp only [Harmless, forgetUser]
      cases s.usersByName name <;> simp

/-- **When a failed command changes nothing.**  A call that ends by an exception
leaves the maps and the file as they were exactly if its line is refused, or its
operation saves or stops before the maps. -/
theorem invocation_unchanged_iff (renames : Bool) (call : Invocation) (s : Store) :
    (call.run renames s).Unchanged s ↔ ∀ op, call.op? = some op → op.Harmless renames s := by
  cases hop : call.op? with
  | none => simp [Ended.Unchanged, call.run_store_of_none hop]
  | some op => simp [call.run_of_op? hop, op.unchanged_iff]

/-- With `users` a number, `newUser`'s UID handler throws after it has entered
the user. -/
theorem not_unchanged :
    ¬ ∀ (renames : Bool) (call : Invocation) (s : Store), (call.run renames s).Unchanged s := by
  intro h
  have hcall := h true (.newUser (ascii "bob") 1 (ascii "04a1"))
    (load (.object [(ascii "users", .numberUnsigned 5)])
      (.doc (.object [(ascii "users", .numberUnsigned 5)])))
  have hname := congrArg (fun s => s.usersByName (ascii "bob")) (hcall (by decide +kernel))
  exact absurd hname (by decide +kernel)

end AsyncNFCServer
