import AsyncNFCServer.Lib.Runs

/-!
# Unwinding

Some inputs of a machine are hidden from an observer.  They have no influence on him if
the run without them looks the same to him: `purge` leaves the hidden inputs out, and
`visible` is what the others put out in the full run.

To show it takes a relation between states that look alike, and no runs
(`Unwinding`): a hidden input leaves a state alike, and any other input keeps two
alike states alike and puts out the same in both.
-/

namespace Runs

variable {σ ι ω : Type*} (step : σ → ι → σ) (hidden : σ → ι → Prop)
  [∀ s i, Decidable (hidden s i)]

/-- What the inputs of a run put out. -/
def outputs (out : σ → ι → ω) : σ → List ι → List ω
  | _, [] => []
  | s, i :: is => out s i :: outputs out (step s i) is

/-- The inputs of a run that are not hidden. -/
def purge : σ → List ι → List ι
  | _, [] => []
  | s, i :: is => if hidden s i then purge (step s i) is else i :: purge (step s i) is

/-- What the inputs of a run that are not hidden put out. -/
def visible (out : σ → ι → ω) : σ → List ι → List ω
  | _, [] => []
  | s, i :: is =>
      if hidden s i then visible out (step s i) is else out s i :: visible out (step s i) is

variable {step hidden} {out : σ → ι → ω}

/-- `R` relates states that look alike to an observer. -/
structure Unwinding (step : σ → ι → σ) (hidden : σ → ι → Prop) (out : σ → ι → ω)
    (R : σ → σ → Prop) : Prop where
  hides {s t : σ} (h : R s t) {i : ι} (hi : hidden s i) : R (step s i) t
  keeps {s t : σ} (h : R s t) {i : ι} (hi : ¬ hidden s i) : R (step s i) (step t i)
  shows {s t : σ} (h : R s t) {i : ι} (hi : ¬ hidden s i) : out s i = out t i

/-- **Hidden inputs have no influence.**  A run and the run of its other inputs end alike,
and put out the same. -/
theorem Unwinding.purge {R : σ → σ → Prop} (h : Unwinding step hidden out R) {s t : σ}
    (hR : R s t) (is : List ι) :
    R (final step s is) (final step t (purge step hidden s is)) ∧
      visible step hidden out s is = outputs step out t (purge step hidden s is) := by
  induction is generalizing s t with
  | nil => exact ⟨hR, rfl⟩
  | cons i is ih =>
      rw [final_cons, Runs.purge, visible]
      split_ifs with hi
      · exact ih (h.hides hR hi)
      · obtain ⟨hend, hlook⟩ := ih (h.keeps hR hi)
        rw [final_cons, outputs, h.shows hR hi, hlook]
        exact ⟨hend, rfl⟩

end Runs
