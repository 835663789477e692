import Mathlib.Data.List.Basic
import Mathlib.Data.List.Forall2
import Mathlib.Data.List.TakeWhile

/-!
# Regular expressions that are sequences of character runs

Command syntaxes are often of the form `c₁+ c₂+ … cₙ+`, each `cᵢ` a character
class and each neighbouring pair of classes disjoint.  Over such an expression
a backtracking matcher has no choice to make: the longest run is the only one.
`matchSegments` takes the longest runs and returns what each of them matched;
`matchSegments_eq_some_iff` proves it against the declarative reading `Matches`
of the expression.
-/

namespace Segments

variable {α : Type*}

/-- `gs` are the parts of `s` matched by the runs `c₁+ … cₙ+`. -/
def Matches (cs : List (α → Bool)) (s : List α) (gs : List (List α)) : Prop :=
  gs.flatten = s ∧ List.Forall₂ (fun c g => g ≠ [] ∧ ∀ b ∈ g, c b = true) cs gs

/-- Match the whole of `s`, each run as long as possible. -/
def matchSegments : List (α → Bool) → List α → Option (List (List α))
  | [], [] => some []
  | [], _ :: _ => none
  | c :: cs, s =>
      match s.takeWhile c with
      | [] => none
      | b :: g => (matchSegments cs (s.dropWhile c)).map ((b :: g) :: ·)

/-- Neighbouring classes share no character. -/
def Separated : List (α → Bool) → Prop
  | c :: d :: cs => (∀ b, c b = true → d b = false) ∧ Separated (d :: cs)
  | _ => True

theorem matches_of_matchSegments {cs : List (α → Bool)} {s : List α} {gs : List (List α)}
    (h : matchSegments cs s = some gs) : Matches cs s gs := by
  induction cs generalizing s gs with
  | nil =>
      cases s with
      | nil =>
          obtain rfl : [] = gs := by simpa [matchSegments] using h
          exact ⟨rfl, .nil⟩
      | cons b s => simp [matchSegments] at h
  | cons c cs ih =>
      unfold matchSegments at h
      split at h
      · simp at h
      · rename_i b g htake
        rw [Option.map_eq_some_iff] at h
        obtain ⟨gs', hgs', rfl⟩ := h
        obtain ⟨hflat, hruns⟩ := ih hgs'
        refine ⟨?_, .cons ⟨by simp, fun x hx => ?_⟩ hruns⟩
        · rw [List.flatten_cons, hflat, ← htake]
          exact List.takeWhile_append_dropWhile
        · rw [← htake] at hx
          exact List.mem_takeWhile_imp hx

/-- The runs after the first start with a character that cannot extend it. -/
theorem head_flatten_of_separated {c : α → Bool} {cs : List (α → Bool)}
    (hsep : Separated (c :: cs)) {gs : List (List α)}
    (hruns : List.Forall₂ (fun c g => g ≠ [] ∧ ∀ b ∈ g, c b = true) cs gs) :
    ∀ b ∈ gs.flatten.head?, c b = false := by
  intro b hb
  cases hruns with
  | nil => simp at hb
  | @cons d g cs gs hg _ =>
      obtain ⟨b', g', rfl⟩ := List.exists_cons_of_ne_nil hg.1
      obtain rfl : b' = b := by simpa using hb
      by_contra hc
      have hd := hsep.1 b' (by simpa using hc)
      rw [hg.2 b' (by simp)] at hd
      exact absurd hd (by simp)

theorem matchSegments_of_matches {cs : List (α → Bool)} (hsep : Separated cs) {s : List α}
    {gs : List (List α)} (h : Matches cs s gs) : matchSegments cs s = some gs := by
  induction cs generalizing s gs with
  | nil =>
      obtain ⟨rfl, hruns⟩ := h
      cases hruns
      rfl
  | cons c cs ih =>
      obtain ⟨rfl, hruns⟩ := h
      cases hruns with
      | @cons _ g _ gs hg hruns =>
          have hhead := head_flatten_of_separated hsep hruns
          -- the longest run of `c` is `g`: what follows cannot extend it
          have htake : (g ++ gs.flatten).takeWhile c = g := by
            rw [List.takeWhile_append_of_pos hg.2]
            cases hgs : gs.flatten with
            | nil => simp
            | cons b t => simp [hhead b (by simp [hgs])]
          have hdrop : (g ++ gs.flatten).dropWhile c = gs.flatten := by
            rw [List.dropWhile_append_of_pos hg.2]
            cases hgs : gs.flatten with
            | nil => simp
            | cons b t => simp [hhead b (by simp [hgs])]
          have hrest : matchSegments cs gs.flatten = some gs := by
            refine ih ?_ ⟨rfl, hruns⟩
            cases cs with
            | nil => trivial
            | cons d cs => exact hsep.2
          obtain ⟨b, g', rfl⟩ := List.exists_cons_of_ne_nil hg.1
          rw [List.flatten_cons, matchSegments, htake, hdrop]
          simp [hrest]

/-- **The matcher decides the expression.** -/
theorem matchSegments_eq_some_iff {cs : List (α → Bool)} (hsep : Separated cs) {s : List α}
    {gs : List (List α)} : matchSegments cs s = some gs ↔ Matches cs s gs :=
  ⟨matches_of_matchSegments, matchSegments_of_matches hsep⟩

end Segments
