import AsyncNFCServer.ReaderHandler.Levels

/-!
# What the constructor makes of config.json

The load looks at every value before it uses it: at a root that is no object, at a
list that is no array, at an entry that is no object, at a field of the wrong type.
What remains are the outcomes of the parser.  A file that is missing, empty or no
JSON leaves empty lists; but only `parse_error` is caught, and nlohmann reports a
number that no double can hold by `out_of_range`.  On such a file the constructor
throws.

`startup_loads_iff` says that this is the only way to fail, apart from levels
that do not fit an `int`: the maps have for each key the last well-formed entry.
-/

namespace AsyncNFCServer

/-- The last entry of the list that is well formed with the key `k` has the value
`v`. -/
def LastEntry {κ ν : Type} (fields : Json → Option (κ × ν)) (es : List Json) (k : κ) (v : ν) :
    Prop :=
  ∃ before e after, es = before ++ e :: after ∧ fields e = some (k, v) ∧
    ∀ f ∈ after, ∀ w, fields f ≠ some (k, w)

/-- The card of a well-formed user entry, with the name and the number. -/
def cardNumber (user : Json) : Option (Str × Str × Int) :=
  (userNumber user).map fun fields => (fields.2.1, fields.1, fields.2.2)

/-- The maps have for each key what the last well-formed entry of the file says,
and nothing else. -/
structure Store.HoldsLast (s : Store) (config : Content) : Prop where
  doors : ∀ name level, s.doors name = some level ↔
    LastEntry doorNumber (config.items (ascii "doors")) name level
  usersByName : ∀ name user, s.usersByName name = some user ↔
    LastEntry userNumber (config.items (ascii "users")) name user
  usersByUID : ∀ uid user, s.usersByUID uid = some user ↔
    LastEntry cardNumber (config.items (ascii "users")) uid user

/-- The number is an `int`. -/
def FitsInt (i : Int) : Prop := -2147483648 ≤ i ∧ i ≤ 2147483647

/-- The levels of the last well-formed entries of all keys are `int`s. -/
def Content.LevelsFitInt (config : Content) : Prop :=
  (∀ name level, LastEntry doorNumber (config.items (ascii "doors")) name level →
      FitsInt level) ∧
    (∀ name user, LastEntry userNumber (config.items (ascii "users")) name user →
      FitsInt user.2) ∧
    ∀ uid user, LastEntry cardNumber (config.items (ascii "users")) uid user → FitsInt user.2

/-! ## Last entries -/

/-- The entry that a tabulated list of well-formed entries has for a key is the
last one of the whole list. -/
theorem tabulate_filterMap_eq_some_iff {κ ν : Type} [DecidableEq κ]
    (fields : Json → Option (κ × ν)) (es : List Json) (k : κ) (v : ν) :
    Table.tabulate Prod.fst Prod.snd (es.filterMap fields) k = some v ↔
      LastEntry fields es k v := by
  rw [Table.tabulate_eq_some_iff, LastEntry]
  constructor
  · rintro ⟨before, ⟨k', v'⟩, after, hsplit, rfl, rfl, hafter⟩
    obtain ⟨es₁, es₂, rfl, rfl, hrest⟩ := List.filterMap_eq_append_iff.mp hsplit
    obtain ⟨skipped, e, es₃, rfl, -, hfields, rfl⟩ := List.filterMap_eq_cons_iff.mp hrest
    refine ⟨es₁ ++ skipped, e, es₃, by simp, hfields, ?_⟩
    intro f hf w hw
    exact hafter (k', w) (List.mem_filterMap.mpr ⟨f, hf, hw⟩) rfl
  · rintro ⟨before, e, after, rfl, hfields, hafter⟩
    refine ⟨before.filterMap fields, (k, v), after.filterMap fields, ?_, rfl, rfl, ?_⟩
    · rw [List.filterMap_append, List.filterMap_cons_some hfields]
    · rintro ⟨k', w⟩ hf rfl
      obtain ⟨f, hmem, hw⟩ := List.mem_filterMap.mp hf
      exact hafter f hmem w hw

/-! ## Conversions to int -/

theorem toInt_eq_self_iff {i : Int} : toInt i = i ↔ FitsInt i := by
  unfold toInt FitsInt
  constructor
  · intro h
    have hle := Int.le_bmod (x := i) (m := 2 ^ 32) (by decide)
    have hlt := Int.bmod_lt (x := i) (m := 2 ^ 32) (by decide)
    rw [h] at hle hlt
    constructor
    · omega
    · omega
  · rintro ⟨hle, hlt⟩
    rw [Int.bmod_eq_of_le] <;> omega

/-- A map that converts its values is the map itself exactly if it converts each
value to itself. -/
theorem map_eq_some_iff_forall {ν : Type} {f : ν → ν} {w : Option ν} :
    (∀ v, w.map f = some v ↔ w = some v) ↔ ∀ v, w = some v → f v = v := by
  cases w with
  | none => simp
  | some u =>
      simp only [Option.map_some, Option.some.injEq, forall_eq']
      exact ⟨fun h => (h u).mpr rfl, fun h v => by rw [h]⟩

/-- A map that is tabulated from well-formed entries and then converted holds the
last entries exactly if the conversion keeps their values. -/
theorem holds_iff {κ ν : Type} [DecidableEq κ] {fields : Json → Option (κ × ν)} {es : List Json}
    {f : ν → ν} {m : Table κ ν}
    (hm : ∀ k, m k = (Table.tabulate Prod.fst Prod.snd (es.filterMap fields) k).map f) :
    (∀ k v, m k = some v ↔ LastEntry fields es k v) ↔
      ∀ k v, LastEntry fields es k v → f v = v := by
  simp only [← tabulate_filterMap_eq_some_iff, hm]
  exact forall_congr' fun k => map_eq_some_iff_forall

/-! ## The three maps -/

/-- The conversion of a stored pair of a string and a level. -/
def toIntLevel (user : Str × Int) : Str × Int := (user.1, toInt user.2)

theorem toIntLevel_eq_self_iff {user : Str × Int} : toIntLevel user = user ↔ FitsInt user.2 := by
  rw [← toInt_eq_self_iff]
  simp [toIntLevel, Prod.ext_iff]

theorem loadUsers_fst_apply (configJson : Json) (name : Str) :
    (loadUsers configJson).1 name = (Table.tabulate Prod.fst Prod.snd
      ((configJson.entries (ascii "users")).filterMap userNumber) name).map toIntLevel := by
  rw [loadUsers_eq_tabulate, userEntries, funext userFields_eq_map, ← List.map_filterMap,
    Table.byFst, Table.tabulate_map, Table.map_tabulate]
  rfl

theorem filterMap_cardNumber (users : List Json) : users.filterMap cardNumber =
    (users.filterMap userNumber).map fun fields => (fields.2.1, fields.1, fields.2.2) := by
  rw [List.map_filterMap]
  rfl

theorem loadUsers_snd_apply (configJson : Json) (uid : Str) :
    (loadUsers configJson).2 uid = (Table.tabulate Prod.fst Prod.snd
      ((configJson.entries (ascii "users")).filterMap cardNumber) uid).map toIntLevel := by
  rw [loadUsers_eq_tabulate, userEntries, funext userFields_eq_map, ← List.map_filterMap,
    Table.bySnd, Table.tabulate_map, filterMap_cardNumber, Table.tabulate_map,
    Table.map_tabulate]
  rfl

/-- Every file but one with a number out of range is loaded, from the entries that
it has. -/
theorem exists_startup {config : Content} (h : config ≠ .outOfRange) :
    ∃ configJson saved, startup config = .ok (load configJson saved) ∧
      configJson.entries (ascii "doors") = config.items (ascii "doors") ∧
      configJson.entries (ascii "users") = config.items (ascii "users") := by
  cases config with
  | missing | empty => exact ⟨.null, .doc emptyConfig, rfl, rfl, rfl⟩
  | malformed => exact ⟨emptyConfig, .doc emptyConfig, rfl, rfl, rfl⟩
  | outOfRange => exact absurd rfl h
  | doc configJson => exact ⟨configJson, .doc configJson, rfl, rfl, rfl⟩

/-- A loaded store holds the last entries exactly if their levels are `int`s. -/
theorem holdsLast_load_iff {configJson : Json} {config saved : Content}
    (hdoors : configJson.entries (ascii "doors") = config.items (ascii "doors"))
    (husers : configJson.entries (ascii "users") = config.items (ascii "users")) :
    (load configJson saved).HoldsLast config ↔ config.LevelsFitInt := by
  have hdoorMap := holds_iff (m := loadDoors configJson) (f := toInt) (loadDoors_apply configJson)
  have hnameMap := holds_iff (loadUsers_fst_apply configJson)
  have hcardMap := holds_iff (loadUsers_snd_apply configJson)
  simp only [hdoors, husers, toInt_eq_self_iff, toIntLevel_eq_self_iff]
    at hdoorMap hnameMap hcardMap
  rw [Content.LevelsFitInt, ← hdoorMap, ← hnameMap, ← hcardMap]
  exact ⟨fun h => ⟨h.doors, h.usersByName, h.usersByUID⟩, fun h => ⟨h.1, h.2.1, h.2.2⟩⟩

/-- **When the server starts with what its file says.**  The constructor ends without
an exception, with the last well-formed entry of each key in the maps, if and only
if the file has no number that overflows a double and the levels of these entries
are `int`s. -/
theorem startup_loads_iff (config : Content) :
    (∃ s, startup config = .ok s ∧ s.HoldsLast config) ↔
      config ≠ .outOfRange ∧ config.LevelsFitInt := by
  by_cases houtOfRange : config = .outOfRange
  · subst houtOfRange
    simp [startup]
  · obtain ⟨configJson, saved, hstart, hdoors, husers⟩ := exists_startup houtOfRange
    have hload : (load configJson saved).HoldsLast config ↔ config.LevelsFitInt :=
      holdsLast_load_iff hdoors husers
    simp [hstart, hload, houtOfRange]

/-- A number like `1e999` in config.json: the server does not start. -/
theorem not_forall_startup_loads :
    ¬ ∀ config : Content, ∃ s, startup config = .ok s ∧ s.HoldsLast config := by
  intro h
  obtain ⟨s, hstart, -⟩ := h .outOfRange
  exact absurd hstart (by simp [startup])

end AsyncNFCServer
