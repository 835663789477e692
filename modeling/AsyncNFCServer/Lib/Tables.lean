import Mathlib.Logic.Function.Basic
import Mathlib.Data.List.Induction

/-!
# Tables: hash maps up to what a lookup can see

A `Table κ ν` is a partial map, the meaning of a hash map whose iteration order
nobody observes.  Three things are developed about it:

* `insert` and `erase`, as point updates;
* `tabulate key val es`, the table a loop over the entries `es` builds when it
  inserts `key e ↦ val e` for each entry in turn, so that the last entry of a
  key wins.  `tabulate_remove_iff` and `tabulate_eraseP_iff` say when dropping
  one entry of the list is the same as erasing its key from the table;
* `byFst` and `bySnd`, the two indexes of a list of triples, and `Mirror a b`:
  two tables that hold the same triples.  `Mirror.insert_iff` and
  `Mirror.erase` say which updates keep them mirrored.
-/

/-- A partial map from `κ` to `ν`. -/
abbrev Table (κ ν : Type*) := κ → Option ν

namespace Table

section Basic

variable {κ ν : Type*}

/-- The table without entries. -/
def empty : Table κ ν := fun _ => none

@[simp] theorem empty_apply (k : κ) : (empty : Table κ ν) k = none := rfl

variable [DecidableEq κ]

/-- `m[k] = v`. -/
def insert (m : Table κ ν) (k : κ) (v : ν) : Table κ ν :=
  Function.update m k (some v)

/-- `m.erase(k)`. -/
def erase (m : Table κ ν) (k : κ) : Table κ ν :=
  Function.update m k none

theorem insert_apply (m : Table κ ν) (k j : κ) (v : ν) :
    m.insert k v j = if j = k then some v else m j := by
  simp [insert, Function.update_apply]

theorem erase_apply (m : Table κ ν) (k j : κ) :
    m.erase k j = if j = k then none else m j := by
  simp [erase, Function.update_apply]

@[simp] theorem insert_self (m : Table κ ν) (k : κ) (v : ν) : m.insert k v k = some v := by
  simp [insert]

@[simp] theorem erase_self (m : Table κ ν) (k : κ) : m.erase k k = none := by
  simp [erase]

theorem insert_of_ne (m : Table κ ν) {k j : κ} (v : ν) (h : j ≠ k) : m.insert k v j = m j := by
  simp [insert, h]

/-- An insertion brings in no other key. -/
theorem ne_none_of_insert {m : Table κ ν} {k j : κ} {v : ν} (h : m.insert k v j ≠ none) :
    m j ≠ none ∨ j = k := by
  by_cases hj : j = k
  · exact Or.inr hj
  · rw [insert_of_ne m v hj] at h
    exact Or.inl h

/-- An erasure brings in no key. -/
theorem ne_none_of_erase {m : Table κ ν} {k j : κ} (h : m.erase k j ≠ none) : m j ≠ none := by
  intro hnone
  refine h ?_
  rw [erase_apply, hnone, ite_self]

/-- An insertion changes nothing when the table has the value already. -/
theorem insert_eq_self_iff (m : Table κ ν) {k : κ} {v : ν} :
    m.insert k v = m ↔ m k = some v := by
  constructor
  · intro h
    rw [← h, insert_self]
  · intro h
    funext j
    by_cases hj : j = k
    · rw [hj, insert_self, h]
    · exact insert_of_ne m v hj

/-- Inserting a new key and erasing it gives the table back. -/
theorem erase_insert (m : Table κ ν) {k : κ} (h : m k = none) (v : ν) :
    (m.insert k v).erase k = m := by
  funext j
  by_cases hj : j = k
  · rw [hj, erase_self, h]
  · simp [erase_apply, insert_apply, hj]

theorem erase_ne_self (m : Table κ ν) {k : κ} (h : m k ≠ none) : m.erase k ≠ m := by
  intro heq
  rw [← heq, erase_self] at h
  exact h rfl

end Basic

/-! ## Tables built by a loop -/

section Tabulate

variable {ε κ ν : Type*} [DecidableEq κ] (key : ε → κ) (val : ε → ν)

/-- The table after `m[key e] = val e` for each entry in turn. -/
def tabulate (es : List ε) : Table κ ν :=
  es.foldl (fun m e => m.insert (key e) (val e)) empty

@[simp] theorem tabulate_nil : tabulate key val [] = empty := rfl

@[simp] theorem tabulate_concat (es : List ε) (e : ε) :
    tabulate key val (es ++ [e]) = (tabulate key val es).insert (key e) (val e) := by
  simp [tabulate]

theorem tabulate_map {ε' : Type*} (g : ε' → ε) (es : List ε') :
    tabulate key val (es.map g) = tabulate (fun e => key (g e)) (fun e => val (g e)) es := by
  rw [tabulate, tabulate, List.foldl_map]

theorem map_tabulate {μ : Type*} (f : ν → μ) (es : List ε) (k : κ) :
    (tabulate key val es k).map f = tabulate key (fun e => f (val e)) es k := by
  induction es using List.reverseRecOn with
  | nil => rfl
  | append_singleton es e ih =>
      rw [tabulate_concat, tabulate_concat, insert_apply, insert_apply, ← ih]
      split_ifs <;> rfl

/-- A lookup sees the last entry of its key, if there is one. -/
theorem tabulate_append (es fs : List ε) (k : κ) :
    tabulate key val (es ++ fs) k =
      (tabulate key val fs k).or (tabulate key val es k) := by
  induction fs using List.reverseRecOn with
  | nil => simp
  | append_singleton fs f ih =>
      rw [← List.append_assoc, tabulate_concat, tabulate_concat, insert_apply, insert_apply, ih]
      split <;> simp

theorem tabulate_eq_none_iff {es : List ε} {k : κ} :
    tabulate key val es k = none ↔ ∀ e ∈ es, key e ≠ k := by
  induction es using List.reverseRecOn with
  | nil => simp
  | append_singleton es e ih =>
      rw [tabulate_concat, insert_apply]
      by_cases hk : k = key e
      · simp [hk]
      · simp only [if_neg hk, ih, List.mem_append, List.mem_singleton]
        constructor
        · rintro h f (hf | rfl)
          · exact h f hf
          · exact fun heq => hk heq.symm
        · exact fun h f hf => h f (Or.inl hf)

/-- The keys of a tabulated table are those of the entries. -/
theorem tabulate_ne_none_iff {es : List ε} {k : κ} :
    tabulate key val es k ≠ none ↔ ∃ e ∈ es, key e = k := by
  rw [ne_eq, tabulate_eq_none_iff]
  simp

theorem exists_of_tabulate {es : List ε} {k : κ} {v : ν} (h : tabulate key val es k = some v) :
    ∃ e ∈ es, key e = k ∧ val e = v := by
  induction es using List.reverseRecOn with
  | nil => simp at h
  | append_singleton es e ih =>
      rw [tabulate_concat, insert_apply] at h
      split_ifs at h with hk
      · exact ⟨e, by simp, hk.symm, Option.some.inj h⟩
      · obtain ⟨f, hf, hfields⟩ := ih h
        exact ⟨f, by simp [hf], hfields⟩

/-- **The last entry of a key wins.** -/
theorem tabulate_eq_some_iff {es : List ε} {k : κ} {v : ν} :
    tabulate key val es k = some v ↔
      ∃ before e after, es = before ++ e :: after ∧ key e = k ∧ val e = v ∧
        ∀ f ∈ after, key f ≠ k := by
  constructor
  · intro h
    induction es using List.reverseRecOn with
    | nil => simp at h
    | append_singleton es e ih =>
        rw [tabulate_concat, insert_apply] at h
        split_ifs at h with hk
        · exact ⟨es, e, [], rfl, hk.symm, Option.some.inj h, by simp⟩
        · obtain ⟨before, e', after, rfl, hkey, hval, hafter⟩ := ih h
          refine ⟨before, e', after ++ [e], by simp, hkey, hval, ?_⟩
          intro f hf
          rcases List.mem_append.mp hf with hold | hlast
          · exact hafter f hold
          · rw [List.mem_singleton.mp hlast]
            exact fun heq => hk heq.symm
  · rintro ⟨before, e, after, rfl, rfl, rfl, hafter⟩
    have hnone : tabulate key val after (key e) = none := (tabulate_eq_none_iff key val).mpr hafter
    rw [List.append_cons, tabulate_append, hnone, Option.none_or, tabulate_concat, insert_self]

/-- Dropping the entry `e` from the list erases its key from the table exactly
when no other entry has that key. -/
theorem tabulate_remove_iff (es fs : List ε) (e : ε) :
    tabulate key val (es ++ fs) = (tabulate key val (es ++ e :: fs)).erase (key e) ↔
      ∀ f ∈ es ++ fs, key f ≠ key e := by
  rw [← tabulate_eq_none_iff key val]
  constructor
  · intro h
    rw [h, erase_self]
  · intro hnone
    funext k
    rw [erase_apply]
    by_cases hk : k = key e
    · rw [if_pos hk, hk, hnone]
    · have hsingle : tabulate key val [e] k = none := by
        rw [tabulate_eq_none_iff]
        simpa using fun heq : key e = k => hk heq.symm
      rw [if_neg hk, List.append_cons, tabulate_append, tabulate_append key val (es ++ [e]),
        tabulate_append key val es [e], hsingle, Option.none_or]

/-- An element with `p` is the only one of its list exactly when `p` fails for
the others. -/
theorem length_filter_le_one_iff {p : ε → Bool} {e : ε} (he : p e = true) (l r : List ε) :
    ((l ++ e :: r).filter p).length ≤ 1 ↔ ∀ f ∈ l ++ r, ¬ p f = true := by
  have hlength : ((l ++ e :: r).filter p).length = ((l ++ r).filter p).length + 1 := by
    simp [List.filter_append, he, Nat.add_assoc]
  rw [hlength, ← List.filter_eq_nil_iff, ← List.length_eq_zero_iff]
  omega

/-- A list with an entry of the key `k` splits at the first one. -/
theorem exists_first_of_tabulate {es : List ε} {k : κ} {v : ν}
    (h : tabulate key val es k = some v) :
    ∃ l e r, es = l ++ e :: r ∧ key e = k ∧ (∀ f ∈ l, key f ≠ k) ∧
      (es.eraseP fun f => key f = k) = l ++ r := by
  obtain ⟨e, he, hkey, -⟩ := exists_of_tabulate key val h
  obtain ⟨first, l, r, hbefore, hfirst, hsplit, herase⟩ :=
    List.exists_of_eraseP (p := fun f => decide (key f = k)) he (by simpa using hkey)
  exact ⟨l, first, r, hsplit, by simpa using hfirst, by simpa using hbefore, herase⟩

/-- Dropping the first entry of a key is the same as erasing the key exactly
when the key has at most one entry. -/
theorem tabulate_eraseP_iff (es : List ε) (k : κ) :
    tabulate key val (es.eraseP fun e => key e = k) = (tabulate key val es).erase k ↔
      (es.filter fun e => key e = k).length ≤ 1 := by
  cases hk : tabulate key val es k with
  | none =>
      have hne := (tabulate_eq_none_iff key val).mp hk
      have hfilter : (es.filter fun e => key e = k) = [] := by
        simpa [List.filter_eq_nil_iff] using hne
      have herase : (es.eraseP fun e => key e = k) = es := by
        exact List.eraseP_of_forall_not (by simpa using hne)
      simp only [hfilter, herase, List.length_nil, Nat.zero_le, iff_true]
      funext j
      rw [erase_apply]
      split_ifs with hj
      · rw [hj, hk]
      · rfl
  | some v =>
      obtain ⟨l, e, r, rfl, rfl, hbefore, herase⟩ := exists_first_of_tabulate key val hk
      rw [herase, tabulate_remove_iff, length_filter_le_one_iff (by simp)]
      simp

end Tabulate

/-! ## Lists of triples indexed from both sides -/

section Triples

variable {α β γ : Type*} [DecidableEq α] [DecidableEq β]

/-- A list of triples indexed by the first components. -/
abbrev byFst (ts : List (α × β × γ)) : Table α (β × γ) :=
  tabulate (fun t => t.1) (fun t => t.2) ts

/-- A list of triples indexed by the second components. -/
abbrev bySnd (ts : List (α × β × γ)) : Table β (α × γ) :=
  tabulate (fun t => t.2.1) (fun t => (t.1, t.2.2)) ts

/-- Dropping the first triple of `x` is the same as erasing `x` and its partner
from the two indexes exactly when no other triple mentions either. -/
theorem byFst_bySnd_eraseP_iff {ts : List (α × β × γ)} {x : α} {y : β} {z : γ}
    (h : byFst ts x = some (y, z)) :
    byFst (ts.eraseP fun t => t.1 = x) = (byFst ts).erase x ∧
        bySnd (ts.eraseP fun t => t.1 = x) = (bySnd ts).erase y ↔
      (ts.filter fun t => t.1 = x ∨ t.2.1 = y).length ≤ 1 := by
  obtain ⟨l, t, r, rfl, rfl, hbefore, herase⟩ := exists_first_of_tabulate _ _ h
  have hsole : ((l ++ t :: r).filter fun f => f.1 = t.1 ∨ f.2.1 = y).length ≤ 1 ↔
      ∀ f ∈ l ++ r, f.1 ≠ t.1 ∧ f.2.1 ≠ y := by
    rw [length_filter_le_one_iff (by simp)]
    simp
  -- when no other triple has the name, the one found is the one looked up
  have hpartner : (∀ f ∈ l ++ r, f.1 ≠ t.1) → t.2.1 = y := by
    intro hnone
    have hlast : byFst (l ++ t :: r) t.1 = some t.2 := by
      have hr : tabulate (fun f : α × β × γ => f.1) (fun f => f.2) r t.1 = none :=
        (tabulate_eq_none_iff _ _).mpr fun f hf => hnone f (by simp [hf])
      rw [List.append_cons, byFst, tabulate_append, hr, Option.none_or, tabulate_concat,
        insert_self]
    rw [hlast] at h
    simp [Option.some.inj h]
  rw [herase, hsole, byFst, byFst, tabulate_remove_iff]
  constructor
  · rintro ⟨hname, hother⟩ f hf
    rw [← hpartner hname, bySnd, bySnd, tabulate_remove_iff] at hother
    exact ⟨hname f hf, fun heq => hother f hf (heq.trans (hpartner hname).symm)⟩
  · intro hnone
    have hname : ∀ f ∈ l ++ r, f.1 ≠ t.1 := fun f hf => (hnone f hf).1
    refine ⟨hname, ?_⟩
    rw [← hpartner hname, bySnd, bySnd, tabulate_remove_iff]
    exact fun f hf heq => (hnone f hf).2 (heq.trans (hpartner hname))

end Triples

/-! ## Two tables that mirror each other -/

section Mirror

variable {α β γ : Type*}

/-- `a` and `b` hold the same triples, one indexed by the first component and
one by the second. -/
def Mirror (a : Table α (β × γ)) (b : Table β (α × γ)) : Prop :=
  ∀ x y z, a x = some (y, z) ↔ b y = some (x, z)

variable {a : Table α (β × γ)} {b : Table β (α × γ)} [DecidableEq α] [DecidableEq β]

/-- Entering a triple in both tables keeps them mirrored exactly when neither
key was bound to another partner. -/
theorem Mirror.insert_iff (h : Mirror a b) (x : α) (y : β) (z : γ) :
    Mirror (a.insert x (y, z)) (b.insert y (x, z)) ↔
      (∀ y' z', a x = some (y', z') → y' = y) ∧ (∀ x' z', b y = some (x', z') → x' = x) := by
  constructor
  · intro hnew
    constructor
    · -- `b` keeps the entry of the former partner of `x`
      intro y' z' ha
      by_contra hne
      have hb : b.insert y (x, z) y' = some (x, z') := by
        rw [insert_of_ne _ _ hne]
        exact (h x y' z').mp ha
      have := (hnew x y' z').mpr hb
      simp only [insert_self, Option.some.injEq, Prod.mk.injEq] at this
      exact hne this.1.symm
    · -- `a` keeps the entry of the former partner of `y`
      intro x' z' hb
      by_contra hne
      have ha : a.insert x (y, z) x' = some (y, z') := by
        rw [insert_of_ne _ _ hne]
        exact (h x' y z').mpr hb
      have := (hnew x' y z').mp ha
      simp only [insert_self, Option.some.injEq, Prod.mk.injEq] at this
      exact hne this.1.symm
  · rintro ⟨hx, hy⟩ x' y' z'
    rw [insert_apply, insert_apply]
    by_cases hxx : x' = x
    · subst hxx
      by_cases hyy : y' = y
      · simp [hyy]
      · rw [if_pos rfl, if_neg hyy, ← h]
        constructor
        · intro heq
          simp only [Option.some.injEq, Prod.mk.injEq] at heq
          exact absurd heq.1.symm hyy
        · exact fun ha => absurd (hx y' z' ha) hyy
    · rw [if_neg hxx]
      by_cases hyy : y' = y
      · subst hyy
        rw [if_pos rfl, h]
        constructor
        · exact fun hb => absurd (hy x' z' hb) hxx
        · intro heq
          simp only [Option.some.injEq, Prod.mk.injEq] at heq
          exact absurd heq.1.symm hxx
      · rw [if_neg hyy]
        exact h x' y' z'

/-- Erasing a triple from both tables keeps them mirrored. -/
theorem Mirror.erase (h : Mirror a b) {x : α} {y : β} {z : γ} (ha : a x = some (y, z)) :
    Mirror (a.erase x) (b.erase y) := by
  have hb := (h x y z).mp ha
  intro x' y' z'
  rw [erase_apply, erase_apply]
  by_cases hxx : x' = x <;> by_cases hyy : y' = y
  · simp [hxx, hyy]
  · subst hxx
    rw [if_pos rfl, if_neg hyy, ← h, ha]
    simp only [reduceCtorEq, Option.some.injEq, Prod.mk.injEq, false_iff, not_and]
    exact fun heq => absurd heq.symm hyy
  · subst hyy
    rw [if_neg hxx, if_pos rfl, h, hb]
    simp only [reduceCtorEq, Option.some.injEq, Prod.mk.injEq, iff_false, not_and]
    exact fun heq => absurd heq.symm hxx
  · rw [if_neg hxx, if_neg hyy]
    exact h x' y' z'

/-- The two indexes of a list of triples mirror each other when no first and no
second component occurs twice. -/
theorem mirror_tabulate (ts : List (α × β × γ))
    (hfst : (ts.map fun t => t.1).Nodup) (hsnd : (ts.map fun t => t.2.1).Nodup) :
    Mirror (byFst ts) (bySnd ts) := by
  induction ts using List.reverseRecOn with
  | nil => intro x y z; simp
  | append_singleton ts t ih =>
      rw [List.map_append, List.nodup_append] at hfst hsnd
      obtain ⟨x, y, z⟩ := t
      rw [byFst, bySnd, tabulate_concat, tabulate_concat]
      -- both keys of the last triple are new
      refine ((ih hfst.1 hsnd.1).insert_iff x y z).mpr ⟨?_, ?_⟩
      · intro y' z' ha
        have hnone : byFst ts x = none := by
          rw [tabulate_eq_none_iff]
          exact fun e he => hfst.2.2 _ (List.mem_map_of_mem he) _ (by simp)
        rw [hnone] at ha
        exact absurd ha (by simp)
      · intro x' z' hb
        have hnone : bySnd ts y = none := by
          rw [tabulate_eq_none_iff]
          exact fun e he => hsnd.2.2 _ (List.mem_map_of_mem he) _ (by simp)
        rw [hnone] at hb
        exact absurd hb (by simp)

end Mirror

end Table
