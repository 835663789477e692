import AsyncNFCServer.PN532.Target
import AsyncNFCServer.PN532.Simulated

/-!
# Polling the chip

`get_uid` polls through the driver.  What the scanner of `Scans.lean` assumes about a poll,
that it fails or reports a UID of at most seven bytes, is proved here of the driver, for
any device (`pollPasses_refine`): the client's scans are runs of that scanner, whatever
is at the other end of the bus.

With a chip there, the polls are the cards that the chip sees, and the client sends
the UIDs of these cards, in order (`reader_over_i2c`).

Of `main` this is the part that looks at cards: `init_pn532` and, in each pass, a poll, the
hex string and `send_data`.  Its loop around `connect_to_server` and the `recieve_data` and
`io_feedback` of each pass are left out; `Connect.lean` and `Stream.lean` are about these.
-/

namespace AsyncNFCServer

namespace Client

open PN532 Returning

variable {σ γ : Type}

/-- `PN532_MIFARE_ISO14443A`. -/
def mifareIso14443A : Byte := 0x00

/-- A pass of the loop of `get_uid`; if it finds a card, then also the `send_data` that
follows in `main`, but not the `recieve_data` and the `io_feedback` behind that. -/
def pollPass (pn532 : PN532 σ) (stack : TargetStack) (sc : Scanner) : Driver σ Scanner := do
  let (uidLen, uid) ← pn532.readPassiveTarget stack sc.uid mifareIso14443A 1000
  if uidLen = -1 then pure { sc with uid := uid }
  else
    match getUid sc.uidString (uid.take uidLen.toNat) with
    | none => pure { sc with uid := uid, overrun := true }
    | some uidString =>
        pure { sc with uid := uid, uidString := uidString, sent := sc.sent ++ [sendData uidString] }

/-- Passes one after the other; each finds a stack of its own. -/
def pollPasses (pn532 : PN532 σ) : List TargetStack → Scanner → Driver σ Scanner
  | [], sc => pure sc
  | stack :: passes, sc => do
      let sc ← pollPass pn532 stack sc
      pollPasses pn532 passes sc

/-- The poll that a result of `PN532_ReadPassiveTarget` is: -1, with the UID buffer as it
was, or a target. -/
def pollOf (uid : Str) : Option Target → Poll
  | none => .error uid
  | some found => .target found

section AnyDevice

variable {pn532 : PN532 σ} {stack : TargetStack} {sc sc' : Scanner} {s s' : σ}

/-- A pass whose poll has returned is a step of the scanner. -/
theorem pollPass_iff {n : Int} {uid : Str} {s₁ : σ} (found : Option Target)
    (h : Returns (pn532.readPassiveTarget stack sc.uid mifareIso14443A 1000) s (n, uid) s₁)
    (hfound : match found with
      | none => n = -1 ∧ uid = sc.uid
      | some found => n = found.uid.length ∧ uid = overwrite found.uid sc.uid) :
    Returns (pollPass pn532 stack sc) s sc' s' ↔ sc' = sc.poll (pollOf sc.uid found) ∧ s' = s₁ := by
  refine h.bind_iff.trans ?_
  cases found with
  | none =>
      obtain ⟨rfl, rfl⟩ := hfound
      exact returns_pure
  | some found =>
      obtain ⟨rfl, rfl⟩ := hfound
      have htake : (overwrite found.uid sc.uid).take found.uid.length = found.uid := List.take_left
      dsimp only
      rw [if_neg (by omega), Int.toNat_natCast, htake]
      simp only [pollOf, Scanner.poll, List.take_left]
      cases hget : getUid sc.uidString found.uid with
      | none => exact returns_pure
      | some uidString => exact returns_pure

/-- A pass is a step of the scanner, whatever the device does. -/
theorem pollPass_refines (h : Returns (pollPass pn532 stack sc) s sc' s') :
    ∃ found, sc' = sc.poll (pollOf sc.uid found) := by
  have hpass := h
  rw [pollPass, returns_bind] at h
  obtain ⟨⟨n, uid⟩, s₁, hread, -⟩ := h
  rcases readPassiveTarget_cases hread with hfail | ⟨-, -, uid', -, -, hshort, hn, huid⟩
  · exact ⟨none, ((pollPass_iff none hread hfail).mp hpass).1⟩
  · exact ⟨some ⟨uid', hshort⟩, ((pollPass_iff (some ⟨uid', hshort⟩) hread ⟨hn, huid⟩).mp hpass).1⟩

/-- Passes are a run of the scanner with a poll for each. -/
theorem exists_polls {passes : List TargetStack}
    (h : Returns (pollPasses pn532 passes sc) s sc' s') :
    ∃ polls : List Poll, polls.length = passes.length ∧ sc' = Runs.final Scanner.poll sc polls := by
  induction passes generalizing sc s with
  | nil => exact ⟨[], rfl, (returns_pure.mp h).1⟩
  | cons stack passes ih =>
      rw [pollPasses, returns_bind] at h
      obtain ⟨sc₁, s₁, hpass, hrest⟩ := h
      obtain ⟨found, rfl⟩ := pollPass_refines hpass
      obtain ⟨polls, hlength, rfl⟩ := ih hrest
      exact ⟨pollOf sc.uid found :: polls, by simp [hlength], rfl⟩

/-- **The client's scans are runs of the scanner**, over any device: it polls once a pass,
`sprintf` never overruns `uid_string`, and the lines that have been sent stay as they
are. -/
theorem pollPasses_refine {passes : List TargetStack}
    (h : Returns (pollPasses pn532 passes sc) s sc' s') (hsize : sc.uidString.length = 32) :
    (∃ polls : List Poll, polls.length = passes.length ∧ sc' = Runs.final Scanner.poll sc polls) ∧
      sc'.overrun = sc.overrun ∧ sc.sent <+: sc'.sent := by
  obtain ⟨polls, hlength, rfl⟩ := exists_polls h
  exact ⟨⟨polls, hlength, rfl⟩, (Scanner.inside_final hsize polls).2,
    Scanner.sent_prefix_final sc polls⟩

end AnyDevice

/-! ## Cards in the field -/

/-- A card as the chip reports it; a card of another kind is followed by its ATS. -/
structure Tag where
  sensRes : Byte × Byte
  selRes : Byte
  uid : List Byte
  ats : Str
  short : uid.length ≤ 7
  fits : uid.length + ats.length ≤ 13

/-- The payload of the answer that reports one card. -/
def Tag.payload (tag : Tag) : Str :=
  0x01 :: 0x01 :: tag.sensRes.1 :: tag.sensRes.2 :: tag.selRes :: tag.uid.length.toUInt8 ::
    (tag.uid ++ tag.ats)

def Tag.target (tag : Tag) : Target := ⟨tag.uid, tag.short⟩

theorem Tag.length_payload (tag : Tag) :
    tag.payload.length = 6 + (tag.uid.length + tag.ats.length) := by
  simp only [payload, List.length_cons, List.length_append]
  omega

theorem Tag.toNat_length (tag : Tag) : tag.uid.length.toUInt8.toNat = tag.uid.length := by
  have hshort := tag.short
  exact Nat.mod_eq_of_lt (by omega)

/-- The answer says all that is taken from it, and that is the UID. -/
theorem Tag.settled (tag : Tag) : Settled tag.payload := by
  have hlength := tag.length_payload
  have hbyte := tag.toNat_length
  exact Or.inr ⟨tag.uid.length.toUInt8, rfl, Or.inr (by omega)⟩

theorem Tag.uidOf_payload (tag : Tag) : uidOf tag.payload = some tag.uid := by
  have hseven : tag.uid.length.toUInt8 ≤ 7 := by
    rw [UInt8.le_iff_toNat_le, tag.toNat_length]
    exact tag.short
  have hone : tag.payload[0]? = some 0x01 := rfl
  have hlength : tag.payload[5]? = some tag.uid.length.toUInt8 := rfl
  have hbehind : tag.payload.drop 6 = tag.uid ++ tag.ats := rfl
  rw [uidOf_of_length hone hlength hseven, hbehind, tag.toNat_length, List.take_left]

section Field

variable {pn532 : PN532 σ} {chip : Chip γ} {R : σ → Chip.State γ → Prop} {stack : TargetStack}
  {sc : Scanner} {s : σ} {c : Chip.State γ}

/-- What the chip does when it is asked for a card: it answers with the card that is in
the field, or it does not answer. -/
def Sees (chip : Chip γ) (see : γ → γ × Option Tag) : Prop :=
  ∀ inside, chip.respond inside commandInListPassiveTarget [0x01, mifareIso14443A] =
    ((see inside).1, (see inside).2.map Tag.payload)

/-- The cards that a chip sees, asked again and again. -/
def tagsSeen (see : γ → γ × Option Tag) : Nat → γ → List (Option Tag)
  | 0, _ => []
  | n + 1, inside => (see inside).2 :: tagsSeen see n (see inside).1

theorem fits_targetRequest : Carries.Fits (targetRequest mifareIso14443A 1000) :=
  ⟨show 2 ≤ 245 by omega, show 19 ≤ 245 by omega,
    show commandInListPassiveTarget ≠ 0xFF by decide⟩

/-- A card that the chip sees is found by a poll over the bus. -/
theorem readPassiveTarget_of_sees (stack : TargetStack) {response : Str} (h : Carries pn532 chip R)
    {see : γ → γ × Option Tag} (hsee : Sees chip see) (hR : R s c) (hsize : 7 ≤ response.length)
    {tag : Tag} (hcard : (see c.inside).2 = some tag) :
    ∃ s', Returns (pn532.readPassiveTarget stack response mifareIso14443A 1000) s
        (tag.uid.length, overwrite tag.uid response) s' ∧ R s' ⟨(see c.inside).1, []⟩ := by
  have hrespond : chip.respond c.inside (targetRequest mifareIso14443A 1000).command
      (targetRequest mifareIso14443A 1000).params =
        ((see c.inside).1, (see c.inside).2.map Tag.payload) := hsee c.inside
  rw [hcard] at hrespond
  have hlength := tag.length_payload
  have hfits := tag.fits
  obtain ⟨s', hanswers, hR'⟩ := h.answered hR fits_targetRequest (by rw [hrespond]; rfl)
    (show tag.payload.length ≤ 19 by omega)
  rw [hrespond] at hR'
  have huid : uidOf (answerOf stack mifareIso14443A 1000 tag.payload) = some tag.uid :=
    (uidOf_answerOf_of_settled tag.settled).trans tag.uidOf_payload
  exact ⟨s', returns_of_uidOf hanswers (by omega) hsize huid, hR'⟩

/-- A poll over the bus finds the card that the chip sees. -/
theorem pollPass_of_sees (stack : TargetStack) (h : Carries pn532 chip R) {see : γ → γ × Option Tag}
    (hsee : Sees chip see) (hR : R s c) (hsize : 7 ≤ sc.uid.length) :
    ∃ s', Returns (pollPass pn532 stack sc) s
        (sc.poll (pollOf sc.uid ((see c.inside).2.map Tag.target))) s' ∧
      R s' ⟨(see c.inside).1, []⟩ := by
  cases hcard : (see c.inside).2 with
  | none =>
      have hrespond : chip.respond c.inside (targetRequest mifareIso14443A 1000).command
          (targetRequest mifareIso14443A 1000).params =
            ((see c.inside).1, (see c.inside).2.map Tag.payload) := hsee c.inside
      rw [hcard] at hrespond
      obtain ⟨s', hcall, hR'⟩ := h.silent stack.targetBuff hR fits_targetRequest
        (by rw [hrespond]; rfl) stack.toStack
      rw [hrespond] at hR'
      have hread : Returns (pn532.readPassiveTarget stack sc.uid mifareIso14443A 1000) s
          (-1, sc.uid) s' := hcall.bind_iff.mpr (returns_pure.mpr ⟨rfl, rfl⟩)
      exact ⟨s', (pollPass_iff none hread ⟨rfl, rfl⟩).mpr ⟨rfl, rfl⟩, hR'⟩
  | some tag =>
      obtain ⟨s', hread, hR'⟩ := readPassiveTarget_of_sees stack h hsee hR hsize hcard
      exact ⟨s', (pollPass_iff (some tag.target) hread ⟨rfl, rfl⟩).mpr ⟨rfl, rfl⟩, hR'⟩

theorem length_uid_poll (hsize : 7 ≤ sc.uid.length) (found : Option Target) :
    7 ≤ (sc.poll (pollOf sc.uid found)).uid.length := by
  cases found with
  | none => exact hsize
  | some found =>
      have hlength : 7 ≤ (found.uid ++ sc.uid.drop found.uid.length).length := by
        rw [List.length_append, List.length_drop]
        omega
      simp only [pollOf, Scanner.poll]
      split <;> exact hlength

/-- The UIDs of the cards that were there. -/
def uidsOf (tags : List (Option Tag)) : List (List Byte) :=
  tags.filterMap fun tag => tag.map Tag.uid

theorem scanned_pollOf (uid : Str) (tag : Option Tag) (polls : List Poll) {tags : List (Option Tag)}
    (h : scanned polls = uidsOf tags) :
    scanned (pollOf uid (tag.map Tag.target) :: polls) = uidsOf (tag :: tags) := by
  cases tag with
  | none => exact h
  | some tag => exact congrArg (tag.uid :: ·) h

/-- Passes over the bus scan the cards that the chip sees. -/
theorem pollPasses_of_sees (h : Carries pn532 chip R) {see : γ → γ × Option Tag}
    (hsee : Sees chip see) (hR : R s c) (hsize : 7 ≤ sc.uid.length) (passes : List TargetStack) :
    ∃ polls s', Returns (pollPasses pn532 passes sc) s (Runs.final Scanner.poll sc polls) s' ∧
      scanned polls = uidsOf (tagsSeen see passes.length c.inside) := by
  induction passes generalizing sc s c with
  | nil => exact ⟨[], s, returns_pure.mpr ⟨rfl, rfl⟩, rfl⟩
  | cons stack passes ih =>
      obtain ⟨s₁, hpass, hR₁⟩ := pollPass_of_sees stack h hsee hR hsize
      obtain ⟨polls, s', hrest, hpolls⟩ := ih hR₁ (length_uid_poll hsize _)
      exact ⟨_ :: polls, s', hpass.bind_iff.mpr hrest, scanned_pollOf _ _ _ hpolls⟩

/-- Over a bus to a chip the passes come back, and what the client sends are the UIDs of the
cards that the chip saw, in order, exactly if no empty UID is among them that comes
behind another card or finds something in `uid_string`. -/
theorem sent_of_tags (h : Carries pn532 chip R) {see : γ → γ × Option Tag} (hsee : Sees chip see)
    (hR : R s c) {uid uidString : Str} (huid : uid.length = 10) (hsize : uidString.length = 32)
    (passes : List TargetStack) :
    ∃ sc s', Returns (pollPasses pn532 passes (Scanner.start uid uidString)) s sc s' ∧
      (sc.sent = (uidsOf (tagsSeen see passes.length c.inside)).map
          (fun uid => wireLine (hexString uid)) ↔
        EmptyFirst uidString (uidsOf (tagsSeen see passes.length c.inside))) := by
  have hlength : 7 ≤ (Scanner.start uid uidString).uid.length := show 7 ≤ uid.length by omega
  obtain ⟨polls, s', hpasses, hpolls⟩ := pollPasses_of_sees h hsee hR hlength passes
  refine ⟨_, s', hpasses, ?_⟩
  rw [← hpolls]
  exact sent_run_iff hsize uid polls

end Field

/-! ## The start of the program -/

/-- `init_pn532` once the bus is open: the buffer `buff_`, and `setup_complete_`. -/
def initPN532 (pn532 : PN532 σ) (stack samStack : Stack) (buff : Str) (setupComplete : Bool) :
    Driver σ (Str × Bool) := do
  let (status, buff) ← pn532.getFirmwareVersion stack buff
  if status = 0 then do
    let _ ← pn532.samConfiguration samStack
    pure (buff, true)
  else pure (buff, setupComplete)

/-- `main` without its connection, for so many passes: `init_pn532` and, if it has completed
the setup, polls, hex strings and sends; `setup_complete`, and what is scanned and sent.
Neither `connect_to_server` nor `recieve_data` is in it. -/
def initAndPoll (pn532 : PN532 σ) (stack samStack : Stack) (buffFirmware uid uidString : Str)
    (passes : List TargetStack) : Driver σ (Bool × Scanner) := do
  let (_, setupComplete) ← initPN532 pn532 stack samStack buffFirmware false
  if setupComplete then do
    let sc ← pollPasses pn532 passes (Scanner.start uid uidString)
    pure (true, sc)
  else pure (false, Scanner.start uid uidString)

def firmwareRequest : Request := ⟨commandGetFirmwareVersion, [], 4, 500⟩

def samRequest : Request := ⟨commandSamConfiguration, [0x01, 0x14, 0x01], 0, defaultTimeout⟩

section Start

variable {pn532 : PN532 σ} {stack samStack : Stack} {s s' : σ} {buff buff' uid uidString : Str}
  {ready : Bool} {sc : Scanner} {passes : List TargetStack}

/-- The setup is complete exactly if the firmware request has been answered; what becomes
of the SAM configuration makes no difference. -/
theorem initPN532_ready_iff (hbuff : 4 ≤ buff.length)
    (h : Returns (initPN532 pn532 stack samStack buff false) s (buff', ready) s') :
    ready = true ↔ ∃ payload left s₁, Exchange pn532 stack firmwareRequest s payload left s₁ := by
  rw [initPN532, returns_bind] at h
  obtain ⟨⟨status, version⟩, s₁, hfirmware, h⟩ := h
  rw [getFirmwareVersion, returns_bind] at hfirmware
  obtain ⟨⟨n, version'⟩, s₂, hcall, hfirmware⟩ := hfirmware
  have hsucceeds : n ≠ -1 ↔
      ∃ payload left s₁, Exchange pn532 stack firmwareRequest s payload left s₁ := by
    constructor
    · intro hn
      rcases call_cases (q := firmwareRequest) hcall with
        ⟨hfail, -⟩ | ⟨payload, left, hexchange, -⟩
      · exact absurd hfail hn
      · exact ⟨payload, left, s₂, hexchange⟩
    · rintro ⟨payload, left, s₃, hexchange⟩
      have hreturns := hexchange.returns (Nat.zero_le 253) (show 4 ≤ 253 by omega) hbuff
      have hn : (payload.length : Int) = n := (Prod.mk.inj (Returns.unique hcall hreturns).1).1
      omega
  rw [← hsucceeds]
  dsimp only at hfirmware
  split_ifs at hfirmware with hn
  · obtain ⟨rfl, rfl⟩ := returns_logged hfirmware
    dsimp only at h
    rw [if_neg (by decide)] at h
    obtain ⟨-, rfl⟩ := Prod.mk.inj (returns_pure.mp h).1
    exact iff_of_false (by decide) (not_not_intro hn)
  · obtain ⟨rfl, rfl⟩ := Prod.mk.inj (returns_pure.mp hfirmware).1
    dsimp only at h
    rw [if_pos rfl, returns_bind] at h
    obtain ⟨configured, s₃, -, h⟩ := h
    obtain ⟨-, rfl⟩ := Prod.mk.inj (returns_pure.mp h).1
    exact iff_of_true rfl hn

/-- **A reader without its chip sends nothing.**  Whatever the device does, the setup is
complete exactly if it has answered the firmware request; without that nothing is sent,
and with it what is sent is what a run of the scanner sends. -/
theorem initAndPoll_cases (hbuff : buff.length = 255)
    (h : Returns (initAndPoll pn532 stack samStack buff uid uidString passes) s (ready, sc) s') :
    (ready = true ↔ ∃ payload left s₁, Exchange pn532 stack firmwareRequest s payload left s₁) ∧
      (ready = false → sc.sent = []) ∧
      (ready = true → ∃ polls : List Poll, polls.length = passes.length ∧
        sc = Scanner.run uid uidString polls) := by
  rw [initAndPoll, returns_bind] at h
  obtain ⟨⟨buff', setup⟩, s₁, hinit, h⟩ := h
  have hready := initPN532_ready_iff (show 4 ≤ buff.length by omega) hinit
  cases setup with
  | true =>
      dsimp only at h
      rw [if_pos rfl, returns_bind] at h
      obtain ⟨sc', s₃, hpasses, h⟩ := h
      obtain ⟨rfl, rfl⟩ := Prod.mk.inj (returns_pure.mp h).1
      exact ⟨hready, fun hnot => absurd hnot (by decide), fun _ => exists_polls hpasses⟩
  | false =>
      dsimp only at h
      rw [if_neg (by decide)] at h
      obtain ⟨rfl, rfl⟩ := Prod.mk.inj (returns_pure.mp h).1
      exact ⟨hready, fun _ => rfl, fun hnot => absurd hnot (by decide)⟩

/-- What is scanned is always a run of the scanner, if perhaps without a poll. -/
theorem exists_run (h : Returns (initAndPoll pn532 stack samStack buff uid uidString passes) s
      (ready, sc) s') : ∃ polls : List Poll, sc = Scanner.run uid uidString polls := by
  rw [initAndPoll, returns_bind] at h
  obtain ⟨⟨buff', setup⟩, s₁, -, h⟩ := h
  cases setup with
  | true =>
      dsimp only at h
      rw [if_pos rfl, returns_bind] at h
      obtain ⟨sc', s₂, hpasses, h⟩ := h
      obtain ⟨rfl, rfl⟩ := Prod.mk.inj (returns_pure.mp h).1
      obtain ⟨polls, -, hrun⟩ := exists_polls hpasses
      exact ⟨polls, hrun⟩
  | false =>
      dsimp only at h
      rw [if_neg (by decide)] at h
      obtain ⟨rfl, rfl⟩ := Prod.mk.inj (returns_pure.mp h).1
      exact ⟨[], rfl⟩

end Start

section OnChip

variable {pn532 : PN532 σ} {chip : Chip γ} {R : σ → Chip.State γ → Prop} {s : σ}
  {c : Chip.State γ}

/-- A chip that can be set up: it answers the firmware request with at most four bytes, and
the configuration with none, if it answers it. -/
structure SetsUp (chip : Chip γ) (inside : γ) : Prop where
  firmware : ∃ version, (chip.respond inside commandGetFirmwareVersion []).2 = some version ∧
    version.length ≤ 4
  sam : ∀ inside payload, (chip.respond inside commandSamConfiguration [0x01, 0x14, 0x01]).2 =
    some payload → payload = []

/-- The chip after the two commands of `init_pn532`. -/
def setUp (chip : Chip γ) (inside : γ) : γ :=
  (chip.respond (chip.respond inside commandGetFirmwareVersion []).1 commandSamConfiguration
    [0x01, 0x14, 0x01]).1

theorem initPN532_of_setsUp (h : Carries pn532 chip R) (hR : R s c) (hsetup : SetsUp chip c.inside)
    (stack samStack : Stack) {buff : Str} (hbuff : 4 ≤ buff.length) :
    ∃ buff' s', Returns (initPN532 pn532 stack samStack buff false) s (buff', true) s' ∧
      R s' ⟨setUp chip c.inside, []⟩ := by
  obtain ⟨version, hversion, hshort⟩ := hsetup.firmware
  have hfits : Carries.Fits firmwareRequest :=
    ⟨show 0 ≤ 245 by omega, show 4 ≤ 245 by omega, show commandGetFirmwareVersion ≠ 0xFF by decide⟩
  have hfitsSam : Carries.Fits samRequest :=
    ⟨show 3 ≤ 245 by omega, show 0 ≤ 245 by omega, show commandSamConfiguration ≠ 0xFF by decide⟩
  obtain ⟨s₁, hcall, hR₁⟩ := h.call_respond buff hR hfits
    (fun payload hpayload => by
      rw [Option.some.inj (hpayload.symm.trans hversion)]
      exact hshort) hbuff stack
  obtain ⟨s', hsam, hR'⟩ := h.call_respond [] hR₁ hfitsSam
    (fun payload hpayload => by
      rw [hsetup.sam _ payload hpayload]
      exact Nat.zero_le _) (Nat.zero_le _) samStack
  have hanswer : (chip.respond c.inside firmwareRequest.command firmwareRequest.params).2 =
      some version := hversion
  rw [hanswer, outcome] at hcall
  obtain ⟨n, buff', hcall, hn⟩ : ∃ n buff',
      Returns (pn532.call stack firmwareRequest buff) s (n, buff') s₁ ∧ n ≠ -1 :=
    ⟨_, _, hcall, by omega⟩
  have hfirmware : Returns (pn532.getFirmwareVersion stack buff) s (0, buff') s₁ := by
    refine hcall.bind_iff.mpr ?_
    dsimp only
    rw [if_neg hn]
    exact returns_pure.mpr ⟨rfl, rfl⟩
  refine ⟨buff', s', hfirmware.bind_iff.mpr ?_, hR'⟩
  dsimp only
  rw [if_pos rfl]
  have hconfigured : Returns (pn532.samConfiguration samStack) s₁ 0 s' :=
    hsam.bind_iff.mpr (returns_pure.mpr ⟨rfl, rfl⟩)
  exact hconfigured.bind_iff.mpr (returns_pure.mpr ⟨rfl, rfl⟩)

/-- Over a bus to a chip that can be set up the setup is completed, and the passes scan the
cards that the chip sees. -/
theorem initAndPoll_sends (h : Carries pn532 chip R) {see : γ → γ × Option Tag}
    (hsee : Sees chip see) (hR : R s c) (hsetup : SetsUp chip c.inside) (stack samStack : Stack)
    {buff uid uidString : Str} (hbuff : buff.length = 255) (huid : uid.length = 10)
    (hsize : uidString.length = 32) (passes : List TargetStack) :
    ∃ sc s', Returns (initAndPoll pn532 stack samStack buff uid uidString passes) s (true, sc) s' ∧
      (sc.sent = (uidsOf (tagsSeen see passes.length (setUp chip c.inside))).map
          (fun uid => wireLine (hexString uid)) ↔
        EmptyFirst uidString (uidsOf (tagsSeen see passes.length (setUp chip c.inside)))) := by
  obtain ⟨buff', s₁, hinit, hR₁⟩ := initPN532_of_setsUp h hR hsetup stack samStack
    (show 4 ≤ buff.length by omega)
  obtain ⟨sc, s', hpasses, hsent⟩ := sent_of_tags h hsee hR₁ huid hsize passes
  refine ⟨sc, s', hinit.bind_iff.mpr ?_, hsent⟩
  dsimp only
  rw [if_pos rfl]
  exact hpasses.bind_iff.mpr (returns_pure.mpr ⟨rfl, rfl⟩)

/-- **From the cards to the socket.**  Over I2C to a chip that can be set up, whose cards fit
into the 19 bytes of an answer, all polls, hex strings and sends come back, and what is
sent are the UIDs of the cards that the chip sees, in order and nothing else, exactly if no
empty UID is among them that comes behind another card or finds something in
`uid_string`. -/
theorem reader_over_i2c {bus : I2cBus σ} {time : σ → Nat} (h : bus.Speaks chip R time)
    (stale : Nat → Str) {see : γ → γ × Option Tag} (hsee : Sees chip see) (hR : R s c)
    (hsetup : SetsUp chip c.inside) (stack samStack : Stack) {buff uid uidString : Str}
    (hbuff : buff.length = 255) (huid : uid.length = 10) (hsize : uidString.length = 32)
    (passes : List TargetStack) :
    ∃ sc s', Returns (initAndPoll (I2c.pn532 bus stale) stack samStack buff uid uidString passes) s
        (true, sc) s' ∧
      (sc.sent = (uidsOf (tagsSeen see passes.length (setUp chip c.inside))).map
          (fun uid => wireLine (hexString uid)) ↔
        EmptyFirst uidString (uidsOf (tagsSeen see passes.length (setUp chip c.inside)))) :=
  initAndPoll_sends (i2c_carries h stale) hsee hR hsetup stack samStack hbuff huid hsize passes

/-! ## A chip at the desk -/

/-- A chip to which cards are held, one at each poll or none. -/
def deskChip : Chip (List (Option Tag)) where
  respond cards command _ :=
    if command = commandGetFirmwareVersion then (cards, some [0x32, 0x01, 0x06, 0x07])
    else if command = commandSamConfiguration then (cards, some [])
    else (cards.tail, cards.head?.join.map Tag.payload)

theorem sees_deskChip : Sees deskChip fun cards => (cards.tail, cards.head?.join) := fun _ => rfl

theorem setsUp_deskChip (cards : List (Option Tag)) : SetsUp deskChip cards where
  firmware := ⟨_, rfl, by decide⟩
  sam _ _ h := (Option.some.inj h).symm

def deskBus : PN532 (Sim (List (Option Tag))) := I2c.pn532 (I2c.simulated deskChip) zeros

theorem deskBus_carries : Carries deskBus deskChip fun s c => s.chip = c :=
  i2c_carries (i2c_simulated_speaks deskChip) zeros

def deskUid : List Byte := [0x04, 0xa1, 0xb2, 0xc3]

/-- A card with a UID of four bytes. -/
def deskTag : Tag := ⟨(0x00, 0x04), 0x08, deskUid, [], by decide, by decide⟩

theorem reader_over_i2c_desk : ∃ sc s',
    Returns (initAndPoll deskBus (.filled 0xAA) (.filled 0xAA) (List.replicate 255 0)
      (List.replicate 10 0) (List.replicate 32 0) [fill 0xAA, fill 0xBB])
      ⟨⟨[none, some deskTag], []⟩, 0⟩ (true, sc) s' ∧
    (sc.sent = [wireLine (ascii "04a1b2c3")] ↔
      EmptyFirst (List.replicate 32 0) [[0x04, 0xa1, 0xb2, 0xc3]]) :=
  reader_over_i2c (i2c_simulated_speaks deskChip) zeros sees_deskChip rfl (setsUp_deskChip _) _ _
    List.length_replicate List.length_replicate List.length_replicate _

theorem initAndPoll_cases_desk : ∃ (ready : Bool) (sc : Scanner),
    (ready = true ↔ ∃ payload left s₁, Exchange deskBus (.filled 0xAA) firmwareRequest
        ⟨⟨[some deskTag], []⟩, 0⟩ payload left s₁) ∧
      (ready = false → sc.sent = []) ∧
      (ready = true → ∃ polls : List Poll, polls.length = 1 ∧
        sc = Scanner.run (List.replicate 10 0) (List.replicate 32 0) polls) := by
  obtain ⟨sc, s', hmain, -⟩ := initAndPoll_sends deskBus_carries sees_deskChip
    (s := ⟨⟨[some deskTag], []⟩, 0⟩) rfl (setsUp_deskChip [some deskTag]) (.filled 0xAA)
    (.filled 0xAA) (List.length_replicate (n := 255) (a := 0))
    (List.length_replicate (n := 10) (a := 0)) (List.length_replicate (n := 32) (a := 0))
    [fill 0xAA]
  exact ⟨true, sc, initAndPoll_cases List.length_replicate hmain⟩

/-- The card at the desk is found. -/
theorem readPassiveTarget_succeeds_iff_desk : ∃ s' payload left uid,
    Exchange deskBus (fill 0xAA).toStack (targetRequest mifareIso14443A 1000)
        ⟨⟨[some deskTag], []⟩, 0⟩ payload left s' ∧
      uidOf (handedOn (targetRequest mifareIso14443A 1000) payload left) = some uid ∧
      uid.length ≤ 7 ∧ (4 : Int) = uid.length ∧
      deskUid ++ List.replicate 6 0 = overwrite uid (List.replicate 10 0) := by
  have hsize : 7 ≤ (List.replicate 10 0 : Str).length := by decide
  have hcard : ([some deskTag].head?.join : Option Tag) = some deskTag := rfl
  obtain ⟨s', hread, -⟩ := readPassiveTarget_of_sees (s := ⟨⟨[some deskTag], []⟩, 0⟩) (fill 0xAA)
    deskBus_carries sees_deskChip rfl hsize hcard
  exact ⟨s', (readPassiveTarget_succeeds_iff (by decide)).mp ⟨hread, by decide⟩⟩

theorem pollPasses_refine_desk : ∃ sc : Scanner,
    (∃ polls : List Poll, polls.length = 2 ∧ sc = Runs.final Scanner.poll
        (.start (List.replicate 10 0) (List.replicate 32 0)) polls) ∧
      sc.overrun = false ∧ [] <+: sc.sent := by
  obtain ⟨sc, s', hpasses, -⟩ := sent_of_tags deskBus_carries sees_deskChip
    (s := ⟨⟨[none, some deskTag], []⟩, 0⟩) rfl (List.length_replicate (n := 10) (a := 0))
    (List.length_replicate (n := 32) (a := 0)) [fill 0xAA, fill 0xBB]
  exact ⟨sc, pollPasses_refine hpasses List.length_replicate⟩

/-- A chip whose answers end after the number of cards. -/
def shortChip : Chip Unit where
  respond _ _ _ := ((), some [0x01])

theorem uid_settled_iff_short :
    ¬ ∀ (stack stack' : TargetStack) (result result' : Int × Str) (s' s'' : Sim Unit),
      Returns ((I2c.pn532 (I2c.simulated shortChip) zeros).readPassiveTarget stack
        (List.replicate 10 0) mifareIso14443A 1000) ⟨⟨(), []⟩, 0⟩ result s' →
      Returns ((I2c.pn532 (I2c.simulated shortChip) zeros).readPassiveTarget stack'
        (List.replicate 10 0) mifareIso14443A 1000) ⟨⟨(), []⟩, 0⟩ result' s'' →
      result = result' := by
  obtain ⟨s₁, hanswers, -⟩ := (i2c_carries (i2c_simulated_speaks shortChip) zeros).answered
    (s := ⟨⟨(), []⟩, 0⟩) (c := ⟨(), []⟩) rfl fits_targetRequest rfl (by decide)
  intro hall
  rcases (uid_settled_iff hanswers (by decide) (by decide)).mp hall with hone | ⟨length, hlength, -⟩
  · exact hone rfl
  · exact absurd hlength (by simp)

end OnChip

end Client

end AsyncNFCServer
