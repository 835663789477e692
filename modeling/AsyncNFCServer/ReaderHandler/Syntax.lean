import AsyncNFCServer.ReaderHandler.Names
import AsyncNFCServer.Lib.Segments
import Mathlib.Algebra.Ring.Nat

/-!
# The syntax of the CLI commands

Each operation of `ReaderHandler` matches its whole line against a
`static const std::regex cliSyntax` of the shape

```text
^command\s+([name class]+)\s+([0-9]+)$
```

(without the last two runs for the removals).  After the literal command these
are character runs, matched as in `Lib/Segments.lean`; the two groups are the
second and the fourth run.

The stack that `std::regex_match` needs on a long line is not modelled.
-/

namespace AsyncNFCServer

open Segments

/-- The text after the literal `command`, if the line starts with it. -/
def afterCommand (command line : Str) : Option Str :=
  if command.isPrefixOf line then some (line.drop command.length) else none

/-- `^command\s+([A-Za-z0-9_]+)\s+([0-9]+)$`: the name and the numeral. -/
def addSyntax (command line : Str) : Option (Str × Str) :=
  match (afterCommand command line).bind
      (matchSegments [isSpace, isWordByte, isSpace, isDigit]) with
  | some [_, name, _, numeral] => some (name, numeral)
  | _ => none

/-- `^command\s+([A-Za-z_]+)$`: the name. -/
def removeSyntax (command line : Str) : Option Str :=
  match (afterCommand command line).bind
      (matchSegments [isSpace, isLetterOrUnderscore]) with
  | some [_, name] => some name
  | _ => none

/-- `cliSyntax` of `newDoor`. -/
def newDoorSyntax (doorData : Str) : Option (Str × Str) := addSyntax (ascii "newDoor") doorData

/-- `cliSyntax` of `newUser`. -/
def newUserSyntax (userData : Str) : Option (Str × Str) := addSyntax (ascii "newUser") userData

/-- `cliSyntax` of `rmDoor`. -/
def rmDoorSyntax (doorData : Str) : Option Str := removeSyntax (ascii "rmDoor") doorData

/-- `cliSyntax` of `rmUser`. -/
def rmUserSyntax (userdata : Str) : Option Str := removeSyntax (ascii "rmUser") userdata

example : newUserSyntax (ascii "newUser  john 03") = some (ascii "john", ascii "03") := by decide

theorem isWordByte_eq_false_of_isSpace {b : Byte} (h : isSpace b = true) :
    isWordByte b = false := by
  rw [isSpace_iff] at h
  rw [← Bool.not_eq_true, isWordByte, Bool.or_eq_true, isLetterOrUnderscore_iff, isDigit_iff]
  omega

theorem isSpace_eq_false_of_isWordByte {b : Byte} (h : isWordByte b = true) :
    isSpace b = false := by
  by_contra hspace
  rw [isWordByte_eq_false_of_isSpace (by simpa using hspace)] at h
  exact absurd h (by simp)

theorem separated_addSyntax : Separated [isSpace, isWordByte, isSpace, isDigit] := by
  refine ⟨fun b hb => isWordByte_eq_false_of_isSpace hb,
    fun b hb => isSpace_eq_false_of_isWordByte hb, fun b hb => ?_, trivial⟩
  have hword := isWordByte_eq_false_of_isSpace hb
  simp only [isWordByte, Bool.or_eq_false_iff] at hword
  exact hword.2

theorem separated_removeSyntax : Separated [isSpace, isLetterOrUnderscore] := by
  refine ⟨fun b hb => ?_, trivial⟩
  have hword := isWordByte_eq_false_of_isSpace hb
  simp only [isWordByte, Bool.or_eq_false_iff] at hword
  exact hword.1

theorem afterCommand_eq_some_iff {command line rest : Str} :
    afterCommand command line = some rest ↔ line = command ++ rest := by
  unfold afterCommand
  split
  · rename_i hpre
    obtain ⟨t, rfl⟩ := List.isPrefixOf_iff_prefix.mp hpre
    simp
  · rename_i hpre
    simp only [reduceCtorEq, false_iff]
    rintro rfl
    exact hpre (List.isPrefixOf_iff_prefix.mpr (List.prefix_append command rest))

/-- **The matcher reads the regular expression of the additions.** -/
theorem addSyntax_eq_some_iff {command line name numeral : Str} :
    addSyntax command line = some (name, numeral) ↔
      ∃ gap gap', line = command ++ gap ++ name ++ gap' ++ numeral ∧
        (gap ≠ [] ∧ ∀ b ∈ gap, isSpace b) ∧ (name ≠ [] ∧ ∀ b ∈ name, isWordByte b) ∧
        (gap' ≠ [] ∧ ∀ b ∈ gap', isSpace b) ∧ (numeral ≠ [] ∧ ∀ b ∈ numeral, isDigit b) := by
  unfold addSyntax
  constructor
  · intro h
    split at h
    · rename_i gap name' gap' numeral' hmatch
      simp only [Option.some.injEq, Prod.mk.injEq] at h
      obtain ⟨rfl, rfl⟩ := h
      obtain ⟨rest, hrest, hsegs⟩ := Option.bind_eq_some_iff.mp hmatch
      obtain ⟨hflat, hruns⟩ := (matchSegments_eq_some_iff separated_addSyntax).mp hsegs
      simp only [List.forall₂_cons, List.forall₂_nil_left_iff] at hruns
      refine ⟨gap, gap', ?_, hruns.1, hruns.2.1, hruns.2.2.1, hruns.2.2.2.1⟩
      rw [afterCommand_eq_some_iff.mp hrest, ← hflat]
      simp
    · simp at h
  · rintro ⟨gap, gap', rfl, hgap, hname, hgap', hnumeral⟩
    have hsegs : matchSegments [isSpace, isWordByte, isSpace, isDigit]
        (gap ++ name ++ gap' ++ numeral) = some [gap, name, gap', numeral] := by
      refine (matchSegments_eq_some_iff separated_addSyntax).mpr ⟨by simp, ?_⟩
      exact .cons hgap (.cons hname (.cons hgap' (.cons hnumeral .nil)))
    have hafter : afterCommand command (command ++ gap ++ name ++ gap' ++ numeral) =
        some (gap ++ name ++ gap' ++ numeral) :=
      afterCommand_eq_some_iff.mpr (by simp)
    rw [hafter, Option.bind_some, hsegs]

/-- **The matcher reads the regular expression of the removals.** -/
theorem removeSyntax_eq_some_iff {command line name : Str} :
    removeSyntax command line = some name ↔
      ∃ gap, line = command ++ gap ++ name ∧ (gap ≠ [] ∧ ∀ b ∈ gap, isSpace b) ∧
        (name ≠ [] ∧ ∀ b ∈ name, isLetterOrUnderscore b) := by
  unfold removeSyntax
  constructor
  · intro h
    split at h
    · rename_i gap name' hmatch
      obtain rfl : name' = name := by simpa using h
      obtain ⟨rest, hrest, hsegs⟩ := Option.bind_eq_some_iff.mp hmatch
      obtain ⟨hflat, hruns⟩ := (matchSegments_eq_some_iff separated_removeSyntax).mp hsegs
      simp only [List.forall₂_cons, List.forall₂_nil_left_iff] at hruns
      refine ⟨gap, ?_, hruns.1, hruns.2.1⟩
      rw [afterCommand_eq_some_iff.mp hrest, ← hflat]
      simp
    · simp at h
  · rintro ⟨gap, rfl, hgap, hname⟩
    have hsegs : matchSegments [isSpace, isLetterOrUnderscore] (gap ++ name) =
        some [gap, name] :=
      (matchSegments_eq_some_iff separated_removeSyntax).mpr
        ⟨by simp, .cons hgap (.cons hname .nil)⟩
    have hafter : afterCommand command (command ++ gap ++ name) = some (gap ++ name) :=
      afterCommand_eq_some_iff.mpr (by simp)
    rw [hafter, Option.bind_some, hsegs]

/-! ## Numerals -/

/-- The natural number a string of digits denotes. -/
def decimal (numeral : Str) : Nat :=
  numeral.foldl (fun n d => 10 * n + (d.toNat - 48)) 0

/-- `std::numeric_limits<unsigned long>::max()` where `unsigned long` has 64 bits, as with
the WSL toolchain that the readme names. -/
def ulongMax : Nat := 2 ^ 64 - 1

/-- `std::stoul` on a string of digits. -/
def stoul (numeral : Str) : Option Nat :=
  if decimal numeral ≤ ulongMax then some (decimal numeral) else none

theorem stoul_eq_none_iff {numeral : Str} : stoul numeral = none ↔ ulongMax < decimal numeral := by
  unfold stoul
  split_ifs with h
  · simpa using h
  · simpa using h

/-- The value assigned to a `uint8_t`. -/
def toUInt8 (n : Nat) : UInt8 := UInt8.ofNat n

end AsyncNFCServer
