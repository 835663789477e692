import AsyncNFCServer.Bytes

/-!
# Canonical names

`ReaderHandler::to_snake_case` rewrites the name of a command before it is used
as a key.
-/

namespace AsyncNFCServer

/-- The loop of `to_snake_case`, after the original character `prev` (none at
`i = 0`): an upper-case letter is lowered, with an underscore before it when
the character before it is lower case. -/
def snakeFrom : Option Byte → Str → Str
  | _, [] => []
  | prev, c :: cs =>
      if isUpper c then
        (if prev.any isLower then [95] else []) ++ toLower c :: snakeFrom (some c) cs
      else c :: snakeFrom (some c) cs

/-- `ReaderHandler::to_snake_case`. -/
def toSnakeCase (input : Str) : Str := snakeFrom none input

example : toSnakeCase (ascii "JohnDoe2") = ascii "john_doe2" := by decide

/-! ## Canonical names are fixed -/

theorem isUpper_toLower (c : Byte) : isUpper (toLower c) = false := by
  by_cases hupper : isUpper c = true
  · have hrange := isUpper_iff.mp hupper
    rw [← Bool.not_eq_true, isUpper_iff, toNat_toLower hupper]
    omega
  · rw [toLower, if_neg hupper]
    simpa using hupper

theorem toLower_of_not_isUpper {c : Byte} (h : isUpper c = false) : toLower c = c := by
  simp [toLower, h]

/-- A string without upper-case letters is left alone. -/
theorem snakeFrom_of_forall_not_isUpper {s : Str} (h : ∀ c ∈ s, isUpper c = false)
    (prev : Option Byte) : snakeFrom prev s = s := by
  induction s generalizing prev with
  | nil => rfl
  | cons c s ih =>
      rw [snakeFrom, if_neg (by simp [h c List.mem_cons_self]),
        ih (fun d hd => h d (List.mem_cons_of_mem c hd))]

/-- What holds of the underscore and of the lowered input holds of the output. -/
theorem forall_mem_snakeFrom {P : Byte → Prop} (hunderscore : P 95) {s : Str}
    (h : ∀ c ∈ s, P (toLower c)) (prev : Option Byte) : ∀ b ∈ snakeFrom prev s, P b := by
  induction s generalizing prev with
  | nil => simp [snakeFrom]
  | cons c s ih =>
      have hc := h c List.mem_cons_self
      have hrest := ih (fun d hd => h d (List.mem_cons_of_mem c hd)) (some c)
      unfold snakeFrom
      split_ifs with hupper hlower
      · exact List.forall_mem_cons.mpr ⟨hunderscore, List.forall_mem_cons.mpr ⟨hc, hrest⟩⟩
      · exact List.forall_mem_cons.mpr ⟨hc, hrest⟩
      · rw [toLower_of_not_isUpper (by simpa using hupper)] at hc
        exact List.forall_mem_cons.mpr ⟨hc, hrest⟩

/-- The loop writes no upper-case letter. -/
theorem not_isUpper_of_mem_snakeFrom {s : Str} {prev : Option Byte} {c : Byte}
    (h : c ∈ snakeFrom prev s) : isUpper c = false :=
  forall_mem_snakeFrom (P := fun c => isUpper c = false) rfl (fun d _ => isUpper_toLower d) prev c h

/-- A name is canonical exactly when it has no upper-case letter. -/
theorem toSnakeCase_eq_self_iff {s : Str} :
    toSnakeCase s = s ↔ ∀ c ∈ s, isUpper c = false := by
  refine ⟨fun h c hc => ?_, fun h => snakeFrom_of_forall_not_isUpper h none⟩
  rw [← h] at hc
  exact not_isUpper_of_mem_snakeFrom hc

/-- **Normalising twice is normalising once.** -/
theorem toSnakeCase_toSnakeCase (s : Str) : toSnakeCase (toSnakeCase s) = toSnakeCase s :=
  toSnakeCase_eq_self_iff.mpr fun _ hc => not_isUpper_of_mem_snakeFrom hc

/-! ## Only underscores are inserted -/

theorem sublist_snakeFrom (prev : Option Byte) (s : Str) :
    (s.map toLower).Sublist (snakeFrom prev s) := by
  induction s generalizing prev with
  | nil => exact List.Sublist.refl []
  | cons c s ih =>
      unfold snakeFrom
      split_ifs with hupper hlower
      · exact ((ih (some c)).cons_cons (toLower c)).cons 95
      · exact (ih (some c)).cons_cons (toLower c)
      · rw [List.map_cons, toLower_of_not_isUpper (by simpa using hupper)]
        exact (ih (some c)).cons_cons c

/-- Deleting the underscores undoes the insertions. -/
theorem filter_snakeFrom (prev : Option Byte) (s : Str) :
    (snakeFrom prev s).filter (· != 95) = (s.map toLower).filter (· != 95) := by
  induction s generalizing prev with
  | nil => rfl
  | cons c s ih =>
      unfold snakeFrom
      split_ifs with hupper hlower
      · simp [List.filter_cons, ih]
      · simp [List.filter_cons, ih]
      · rw [List.map_cons, toLower_of_not_isUpper (by simpa using hupper), List.filter_cons,
          List.filter_cons, ih]

/-! ## Canonical names are text -/

theorem utf8Lead_of_lt {b : Byte} (h : b < 0x80) : utf8Lead b = some (0, 0x80, 0xBF) := by
  simp [utf8Lead, h]

/-- ASCII is UTF-8. -/
theorem utf8_of_forall_lt {s : Str} (h : ∀ b ∈ s, b < 0x80) : utf8 s = true := by
  unfold utf8
  induction s with
  | nil => rfl
  | cons b s ih =>
      rw [utf8From, utf8Lead_of_lt (h b List.mem_cons_self)]
      exact ih fun c hc => h c (List.mem_cons_of_mem b hc)

theorem lt_of_isWordByte {b : Byte} (h : isWordByte b = true) : b < 0x80 := by
  rw [isWordByte, Bool.or_eq_true, isLetterOrUnderscore_iff, isDigit_iff] at h
  have hlt : b.toNat < 128 := by omega
  exact UInt8.lt_iff_toNat_lt.mpr hlt

theorem toLower_lt {b : Byte} (h : b < 0x80) : toLower b < 0x80 := by
  by_cases hupper : isUpper b = true
  · have hrange := isUpper_iff.mp hupper
    have hlt : (toLower b).toNat < 128 := by
      rw [toNat_toLower hupper]
      omega
    exact UInt8.lt_iff_toNat_lt.mpr hlt
  · rw [toLower, if_neg hupper]
    exact h

/-- The canonical form of a name of a command is UTF-8. -/
theorem utf8_toSnakeCase {name : Str} (h : ∀ b ∈ name, isWordByte b = true) :
    utf8 (toSnakeCase name) = true :=
  utf8_of_forall_lt (forall_mem_snakeFrom (by decide)
    (fun b hb => toLower_lt (lt_of_isWordByte (h b hb))) none)

end AsyncNFCServer
