import AsyncNFCServer.ReaderHandler.Revocation

/-!
# The cards of other users

Users share nothing but the index by card: `newUser` overwrites the entry of the
card it enrols, `rmUser` erases the entry of the card its user has, and neither
looks at whose entry it is.  A command on one user therefore changes what is
answered for another one's card only if the two have the same card, and then
exactly at the doors whose level tells the two entries apart (`othersKept_iff`).
-/

namespace AsyncNFCServer

/-- Every door client's package with the card is answered after the operation as
it was before. -/
def CardKept (renames : Bool) (op : AdminOp) (card : Str) (s : Store) : Prop :=
  ∀ pkg door, parsePackage pkg = some (door, card) →
    (handleClient pkg (op.run renames s).store).replies = (handleClient pkg s).replies

/-- The cards of the users other than `name` are answered as before. -/
def OthersKept (renames : Bool) (op : AdminOp) (name : Str) (s : Store) : Prop :=
  ∀ other card level, other ≠ name → s.usersByName other = some (card, level) →
    CardKept renames op card s

/-- The operation does not rebind the card, or the new binding opens the same
doors as the old one. -/
def AdminOp.SparesCard (s : Store) (card : Str) : AdminOp → Prop
  | newUser _ accessLevel uid =>
      s.listReadable (ascii "users") = true → uid = card →
        ∀ pkg door level, parsePackage pkg = some (door, card) → s.doors door = some level →
          authorized s card level = decide (level ≤ (accessLevel.toNat : Int))
  | rmUser name =>
      ∀ user, s.usersByName name = some user → user.1 = card →
        ∀ pkg door level, parsePackage pkg = some (door, card) → s.doors door = some level →
          authorized s card level = false
  | _ => True

/-- Over the same doors two stores answer alike when they authorize alike. -/
theorem handleClient_replies_eq_iff {pkg door card : Str}
    (hpkg : parsePackage pkg = some (door, card)) {s t : Store} (hdoors : t.doors = s.doors) :
    (handleClient pkg t).replies = (handleClient pkg s).replies ↔
      ∀ level, s.doors door = some level → authorized t card level = authorized s card level := by
  simp only [handleClient, hpkg, lookup, hdoors, List.cons.injEq, and_true]
  cases hdoor : s.doors door with
  | none => simp
  | some level =>
      have hanswers : ascii "Approved" ≠ ascii "Denied" := by decide
      simp only [Option.some.injEq, forall_eq']
      cases authorized t card level <;> cases authorized s card level <;>
        simp [hanswers, hanswers.symm]

theorem authorized_of_usersByUID {s t : Store} {card : Str}
    (h : t.usersByUID card = s.usersByUID card) (level : Int) :
    authorized t card level = authorized s card level := by
  rw [authorized, authorized, h]

theorem authorized_of_some {s : Store} {card : Str} {user : Str × Int}
    (h : s.usersByUID card = some user) (level : Int) :
    authorized s card level = decide (level ≤ user.2) := by
  rw [authorized, h]

theorem authorized_of_none {s : Store} {card : Str} (h : s.usersByUID card = none) (level : Int) :
    authorized s card level = false := by
  rw [authorized, h]

/-- What an operation keeps of a card's answers, from what it does to the card's
entry. -/
theorem cardKept_iff_authorized {renames : Bool} {op : AdminOp} {card : Str} {s : Store}
    (hdoors : (op.run renames s).store.doors = s.doors) :
    CardKept renames op card s ↔
      ∀ pkg door level, parsePackage pkg = some (door, card) → s.doors door = some level →
        authorized (op.run renames s).store card level = authorized s card level := by
  constructor
  · intro h pkg door level hpkg hlevel
    exact (handleClient_replies_eq_iff hpkg hdoors).mp (h pkg door hpkg) level hlevel
  · intro h pkg door hpkg
    exact (handleClient_replies_eq_iff hpkg hdoors).mpr fun level => h pkg door level hpkg

theorem cardKept_of_usersByUID {renames : Bool} {op : AdminOp} {card : Str} {s : Store}
    (hdoors : (op.run renames s).store.doors = s.doors)
    (huid : (op.run renames s).store.usersByUID card = s.usersByUID card) :
    CardKept renames op card s :=
  (cardKept_iff_authorized hdoors).mpr fun _ _ level _ _ => authorized_of_usersByUID huid level

theorem cardKept_newUser_iff (renames : Bool) (name : Str) (accessLevel : UInt8) (uid card : Str)
    (s : Store) : CardKept renames (.newUser name accessLevel uid) card s ↔
      (AdminOp.newUser name accessLevel uid).SparesCard s card := by
  obtain ⟨config, hmapped⟩ := AdminOp.run_mapped renames (.newUser name accessLevel uid) s
  rw [AdminOp.mapped] at hmapped
  by_cases hbinds : s.listReadable (ascii "users") = true ∧ uid = card
  · obtain ⟨hreadable, rfl⟩ := hbinds
    rw [if_pos hreadable] at hmapped
    have huid : ((AdminOp.newUser name accessLevel uid).run renames s).store.usersByUID uid =
        some (name, (accessLevel.toNat : Int)) := by
      rw [hmapped]
      exact Table.insert_self ..
    rw [cardKept_iff_authorized (by rw [hmapped]; rfl)]
    simp only [authorized_of_some huid, AdminOp.SparesCard, hreadable, forall_const]
    exact ⟨fun h pkg door level hpkg hdoor => (h pkg door level hpkg hdoor).symm,
      fun h pkg door level hpkg hdoor => (h pkg door level hpkg hdoor).symm⟩
  · refine iff_of_true (cardKept_of_usersByUID ?_ ?_) fun hreadable huid =>
      absurd ⟨hreadable, huid⟩ hbinds
    · rw [hmapped]
      split_ifs <;> rfl
    · rw [hmapped]
      split_ifs with hreadable
      · exact Table.insert_of_ne _ _ fun heq => hbinds ⟨hreadable, heq.symm⟩
      · rfl

theorem cardKept_rmUser_iff (renames : Bool) (name card : Str) (s : Store) :
    CardKept renames (.rmUser name) card s ↔ (AdminOp.rmUser name).SparesCard s card := by
  obtain ⟨config, hmapped⟩ := AdminOp.run_mapped renames (.rmUser name) s
  cases huser : s.usersByName name with
  | none =>
      simp only [AdminOp.mapped, forgetUser, huser, Option.getD_none] at hmapped
      refine iff_of_true (cardKept_of_usersByUID ?_ ?_) ?_
      · rw [hmapped]
      · rw [hmapped]
      · intro user hsome
        exact absurd (huser.symm.trans hsome) (by simp)
  | some user =>
      simp only [AdminOp.mapped, forgetUser, huser, Option.getD_some] at hmapped
      have hdoors : ((AdminOp.rmUser name).run renames s).store.doors = s.doors := by rw [hmapped]
      by_cases hcard : user.1 = card
      · have huid : ((AdminOp.rmUser name).run renames s).store.usersByUID card = none := by
          rw [hmapped, ← hcard]
          exact Table.erase_self ..
        rw [cardKept_iff_authorized hdoors]
        simp only [authorized_of_none huid, AdminOp.SparesCard, huser, Option.some.injEq,
          forall_eq', hcard, forall_const]
        exact ⟨fun h pkg door level hpkg hdoor => (h pkg door level hpkg hdoor).symm,
          fun h pkg door level hpkg hdoor => (h pkg door level hpkg hdoor).symm⟩
      · refine iff_of_true (cardKept_of_usersByUID hdoors ?_) ?_
        · rw [hmapped]
          simp [Table.erase_apply, Ne.symm hcard]
        · intro user' hsome heq
          obtain rfl : user = user' := by simpa [huser] using hsome
          exact absurd heq hcard

/-- **When the other users' access is left alone.**  Exactly if each card of
another user is either not rebound, or rebound to an entry that opens the same
doors. -/
theorem othersKept_iff (renames : Bool) (name : Str) (s : Store) :
    (∀ (accessLevel : UInt8) (uid : Str),
      OthersKept renames (.newUser name accessLevel uid) name s ↔
        ∀ other card level, other ≠ name → s.usersByName other = some (card, level) →
          (AdminOp.newUser name accessLevel uid).SparesCard s card) ∧
      (OthersKept renames (.rmUser name) name s ↔
        ∀ other card level, other ≠ name → s.usersByName other = some (card, level) →
          (AdminOp.rmUser name).SparesCard s card) := by
  simp only [OthersKept, cardKept_newUser_iff, cardKept_rmUser_iff, implies_true, and_self]

/-- Two users have the same card: removing bob takes it away from alice. -/
theorem not_othersKept :
    ¬ ∀ (renames : Bool) (ops : List AdminOp) (name : Str),
      OthersKept renames (.rmUser name) name
        (ops.foldl (fun s op => (op.run true s).store) (load emptyConfig (.doc emptyConfig))) := by
  intro h
  have hcard := h true [.newDoor (ascii "lab") 2, .newUser (ascii "alice") 3 (ascii "04a1"),
    .newUser (ascii "bob") 3 (ascii "04a1")] (ascii "bob") (ascii "alice") (ascii "04a1") 3
    (by decide) (by decide +kernel) (ascii "lab:04a1") (ascii "lab") (by decide)
  exact absurd hcard (by decide +kernel)

end AsyncNFCServer
