import Mathlib.Data.List.Basic

/-!
# Runs of a step function

A deterministic machine is a function `step : σ → ι → σ`; its run over the
inputs `is` is the fold of `step`.  Two predicates speak about whole runs:

* `Along step P s is`: `P` holds in every state the run passes through;
* `Each step C s is`: every input of the run is taken in a state where `C`
  holds of it.

`along_iff_each` is the rule the rest of the development uses: when one step
preserves `P` exactly if `C` holds of it, a whole run keeps `P` exactly if each
of its steps meets `C`.
-/

namespace Runs

variable {σ ι : Type*} (step : σ → ι → σ)

/-- The state after the inputs `is`. -/
def final (s : σ) (is : List ι) : σ :=
  is.foldl step s

/-- `P` holds in every state of the run, the first and the last included. -/
def Along (P : σ → Prop) : σ → List ι → Prop
  | s, [] => P s
  | s, i :: is => P s ∧ Along P (step s i) is

/-- Every input of the run is taken in a state where `C` holds of it. -/
def Each (C : σ → ι → Prop) : σ → List ι → Prop
  | _, [] => True
  | s, i :: is => C s i ∧ Each C (step s i) is

instance {C : σ → ι → Prop} [∀ s i, Decidable (C s i)] :
    ∀ (s : σ) (is : List ι), Decidable (Each step C s is)
  | _, [] => .isTrue trivial
  | s, i :: is =>
      haveI : Decidable (Each step C (step s i) is) := instDecidableEach (step s i) is
      inferInstanceAs (Decidable (C s i ∧ Each step C (step s i) is))

variable {step}

@[simp] theorem final_nil (s : σ) : final step s [] = s := rfl

@[simp] theorem final_cons (s : σ) (i : ι) (is : List ι) :
    final step s (i :: is) = final step (step s i) is := rfl

theorem final_append (s : σ) (is js : List ι) :
    final step s (is ++ js) = final step (final step s is) js := by
  simp [final, List.foldl_append]

theorem final_concat (s : σ) (is : List ι) (i : ι) :
    final step s (is ++ [i]) = step (final step s is) i := by
  simp [final_append]

/-- `Along` read prefix by prefix. -/
theorem along_iff_forall_prefix {P : σ → Prop} {s : σ} {is : List ι} :
    Along step P s is ↔ ∀ pre, pre <+: is → P (final step s pre) := by
  induction is generalizing s with
  | nil => simp [Along]
  | cons i is ih =>
      rw [Along, ih]
      constructor
      · rintro ⟨hnow, hlater⟩ pre hpre
        cases pre with
        | nil => exact hnow
        | cons j pre =>
            obtain ⟨rfl, htail⟩ := List.cons_prefix_cons.mp hpre
            exact hlater pre htail
      · intro h
        exact ⟨h [] List.nil_prefix, fun pre hpre =>
          h (i :: pre) (List.cons_prefix_cons.mpr ⟨rfl, hpre⟩)⟩

theorem Along.final {P : σ → Prop} {s : σ} {is : List ι} (h : Along step P s is) :
    P (final step s is) :=
  along_iff_forall_prefix.mp h is (List.prefix_refl is)

theorem each_append {C : σ → ι → Prop} {s : σ} {is js : List ι} :
    Each step C s (is ++ js) ↔ Each step C s is ∧ Each step C (final step s is) js := by
  induction is generalizing s with
  | nil => simp [Each]
  | cons i is ih => simp [Each, ih, and_assoc]

theorem Each.mono {C D : σ → ι → Prop} (himp : ∀ s i, C s i → D s i) {s : σ} {is : List ι}
    (h : Each step C s is) : Each step D s is := by
  induction is generalizing s with
  | nil => trivial
  | cons i is ih => exact ⟨himp s i h.1, ih h.2⟩

theorem each_of_forall {C : σ → ι → Prop} (h : ∀ s i, C s i) (s : σ) (is : List ι) :
    Each step C s is := by
  induction is generalizing s with
  | nil => trivial
  | cons i is ih => exact ⟨h s i, ih _⟩

theorem each_of_forall_mem {C : ι → Prop} {is : List ι} (h : ∀ i ∈ is, C i) (s : σ) :
    Each step (fun _ i => C i) s is := by
  induction is generalizing s with
  | nil => trivial
  | cons i is ih => exact ⟨h i (by simp), ih (fun j hj => h j (by simp [hj])) _⟩

/-- Two conditions that agree under an invariant agree along a run. -/
theorem each_congr {J : σ → Prop} {D C C' : σ → ι → Prop}
    (hinv : ∀ s i, J s → D s i → J (step s i))
    (hiff : ∀ s i, J s → D s i → (C s i ↔ C' s i))
    {s : σ} {is : List ι} (hJ : J s) (hD : Each step D s is) :
    Each step C s is ↔ Each step C' s is := by
  induction is generalizing s with
  | nil => exact Iff.rfl
  | cons i is ih => exact and_congr (hiff s i hJ hD.1) (ih (hinv s i hJ hD.1) hD.2)

/-- What each allowed step preserves, a run of allowed steps preserves. -/
theorem invariant_final {J : σ → Prop} {D : σ → ι → Prop}
    (hstep : ∀ s i, J s → D s i → J (step s i)) {s : σ} {is : List ι}
    (hJ : J s) (hD : Each step D s is) : J (final step s is) := by
  induction is generalizing s with
  | nil => exact hJ
  | cons i is ih => exact ih (hstep s i hJ hD.1) hD.2

/-- **Exactness along a run.**  Under an invariant `J` kept by the allowed
steps, if a step from a state with `P` keeps `P` exactly when `C` holds of it,
then the run keeps `P` throughout exactly when each of its steps meets `C`. -/
theorem along_iff_each {J P : σ → Prop} {D C : σ → ι → Prop}
    (hinv : ∀ s i, J s → D s i → J (step s i))
    (hexact : ∀ s i, J s → D s i → P s → (P (step s i) ↔ C s i))
    {s : σ} {is : List ι} (hJ : J s) (hP : P s) (hD : Each step D s is) :
    Along step P s is ↔ Each step C s is := by
  induction is generalizing s with
  | nil => simpa [Along, Each] using hP
  | cons i is ih =>
      have hstep := hexact s i hJ hD.1 hP
      constructor
      · rintro ⟨-, hrest⟩
        have hnext : P (step s i) := along_iff_forall_prefix.mp hrest [] List.nil_prefix
        exact ⟨hstep.mp hnext, (ih (hinv s i hJ hD.1) hnext hD.2).mp hrest⟩
      · rintro ⟨hC, hrest⟩
        have hnext := hstep.mpr hC
        exact ⟨hP, (ih (hinv s i hJ hD.1) hnext hD.2).mpr hrest⟩

/-! The same where every step is allowed. -/

section AllSteps

variable {J P : σ → Prop} {C C' : σ → ι → Prop} {s : σ}

theorem each_congr_of_forall (hinv : ∀ s i, J s → J (step s i))
    (hiff : ∀ s i, J s → (C s i ↔ C' s i)) (hJ : J s) (is : List ι) :
    Each step C s is ↔ Each step C' s is :=
  each_congr (D := fun _ _ => True) (fun s i h _ => hinv s i h) (fun s i h _ => hiff s i h) hJ
    (each_of_forall (fun _ _ => trivial) s is)

theorem invariant_final_of_forall (hstep : ∀ s i, J s → J (step s i)) (hJ : J s)
    (is : List ι) : J (final step s is) :=
  invariant_final (D := fun _ _ => True) (fun s i h _ => hstep s i h) hJ
    (each_of_forall (fun _ _ => trivial) s is)

theorem along_iff_each_of_forall (hinv : ∀ s i, J s → J (step s i))
    (hexact : ∀ s i, J s → P s → (P (step s i) ↔ C s i)) (hJ : J s) (hP : P s)
    (is : List ι) : Along step P s is ↔ Each step C s is :=
  along_iff_each (D := fun _ _ => True) (fun s i h _ => hinv s i h)
    (fun s i h _ => hexact s i h) hJ hP (each_of_forall (fun _ _ => trivial) s is)

end AllSteps

end Runs
