import AsyncNFCServer.Client.Polls
import AsyncNFCServer.PN532.Safety

/-!
# How long the client goes on polling

With any device on the I2C bus, passes of poll, hex string and send come back until one of
them finds a trap, and no longer (`scans_go_on_iff`).  Nothing else that the device or a card
does can stop them or lead them out of their arrays.  Whether the server lets `main` go on,
in `recieve_data`, is another matter (`Stream.lean`).
-/

namespace AsyncNFCServer

namespace Client

open PN532 Returning

variable {σ : Type} {pn532 : PN532 σ} {stack : TargetStack} {sc : Scanner} {s : σ}

/-- A pass comes back if its poll does: what follows the poll cannot fail. -/
theorem comesBack_pollPass_iff (h : Tame pn532) (hsize : 7 ≤ sc.uid.length) :
    ComesBack (pollPass pn532 stack sc) s ↔
      ¬ Trapped pn532 stack.toStack (targetRequest mifareIso14443A 1000) s := by
  rw [← h.comesBack_readPassiveTarget_iff hsize]
  constructor
  · rintro ⟨sc', s', hpass⟩
    obtain ⟨result, s₁, hread, -⟩ := returns_bind.mp hpass
    exact ⟨result, s₁, hread⟩
  · intro hreads
    refine hreads.bind fun result s₁ _ => ?_
    obtain ⟨n, uid⟩ := result
    dsimp only
    split_ifs
    · exact comesBack_pure
    · cases getUid sc.uidString (uid.take n.toNat) with
      | none => exact comesBack_pure
      | some uidString => exact comesBack_pure

theorem length_uid_pollPass {sc' : Scanner} {s' : σ} (hsize : 7 ≤ sc.uid.length)
    (h : Returns (pollPass pn532 stack sc) s sc' s') : 7 ≤ sc'.uid.length := by
  obtain ⟨found, rfl⟩ := pollPass_refines h
  exact length_uid_poll hsize found

/-- Passes come back if none of them finds a trap. -/
theorem comesBack_pollPasses_iff (h : Tame pn532) (hsize : 7 ≤ sc.uid.length)
    (passes : List TargetStack) :
    ComesBack (pollPasses pn532 passes sc) s ↔
      ∀ pre stack post, passes = pre ++ stack :: post → ∀ sc₁ s₁,
        Returns (pollPasses pn532 pre sc) s sc₁ s₁ →
          ¬ Trapped pn532 stack.toStack (targetRequest mifareIso14443A 1000) s₁ := by
  induction passes generalizing sc s with
  | nil => exact ⟨fun _ pre stack post hsplit => absurd hsplit (by simp), fun _ => comesBack_pure⟩
  | cons first passes ih =>
      constructor
      · rintro ⟨sc', s', hpasses⟩ pre stack post hsplit sc₁ s₁ hpre
        rw [pollPasses, returns_bind] at hpasses
        obtain ⟨sc₂, s₂, hfirst, hrest⟩ := hpasses
        cases pre with
        | nil =>
            obtain ⟨rfl, -⟩ := List.cons_eq_cons.mp hsplit
            obtain ⟨rfl, rfl⟩ := returns_pure.mp hpre
            exact (comesBack_pollPass_iff h hsize).mp hfirst.comesBack
        | cons first' pre =>
            obtain ⟨rfl, htail⟩ := List.cons_eq_cons.mp hsplit
            rw [pollPasses, hfirst.bind_iff] at hpre
            exact (ih (length_uid_pollPass hsize hfirst)).mp hrest.comesBack pre stack post htail
              sc₁ s₁ hpre
      · intro hnone
        have hstart := hnone [] first passes rfl sc s (returns_pure.mpr ⟨rfl, rfl⟩)
        refine ((comesBack_pollPass_iff h hsize).mpr hstart).bind fun sc₂ s₂ hfirst => ?_
        refine (ih (length_uid_pollPass hsize hfirst)).mpr ?_
        intro pre stack post hsplit sc₁ s₁ hpre
        exact hnone (first :: pre) stack post (by rw [hsplit]; rfl) sc₁ s₁
          (hfirst.bind_iff.mpr hpre)

end Client

end AsyncNFCServer
