import AsyncNFCServer.PN532.Driver
import AsyncNFCServer.Client.Scans

/-!
# Finding a card

`PN532_ReadPassiveTarget` asks the chip for one card and takes the UID out of the
answer.  It tests the fields of the answer, but not its length: the answer is read
from a buffer of 19 bytes, whatever part of it has come from the chip.

Whatever the device does, the result is -1 or the length of a UID of at most seven
bytes that now begins `response` (`readPassiveTarget_cases`), and it is not -1 exactly
after an exchange with such a UID (`readPassiveTarget_succeeds_iff`).  That UID is the one in the
chip's answer if the answer is long enough to hold it, and only then is it independent
of the memory that the call happens to find (`uid_settled_iff`).
-/

namespace AsyncNFCServer

namespace PN532

variable {σ : Type}

/-! ## The functions -/

def commandGetFirmwareVersion : Byte := 0x02

def commandSamConfiguration : Byte := 0x14

def commandInListPassiveTarget : Byte := 0x4A

def defaultTimeout : Nat := 1000

def notDetected : Str := ascii "Failed to detect the PN532"

def moreThanOneCard : Str := ascii "More than one card detected!"

def longUid : Str := ascii "Found card with unexpectedly long UID!"

/-- `PN532_GetFirmwareVersion`; its result and the buffer `version`. -/
def getFirmwareVersion (pn532 : PN532 σ) (stack : Stack) (version : Str) :
    Driver σ (Int × Str) := do
  let (n, version) ← pn532.callFunction stack commandGetFirmwareVersion version 4 [] 500
  if n = -1 then do
    pn532.log notDetected
    pure (-1, version)
  else pure (0, version)

/-- `PN532_SamConfiguration`. -/
def samConfiguration (pn532 : PN532 σ) (stack : Stack) : Driver σ Int := do
  let _ ← pn532.callFunction stack commandSamConfiguration [] 0 [0x01, 0x14, 0x01] defaultTimeout
  pure 0

/-- The arrays on the stack of `PN532_ReadPassiveTarget` and what it calls. -/
structure TargetStack extends Stack where
  /-- `buff` of `PN532_ReadPassiveTarget` -/
  targetBuff : Str
  targetBuff_length : targetBuff.length = 19

/-- A stack of equal bytes. -/
def fill (b : Byte) : TargetStack where
  toStack := .filled b
  targetBuff := List.replicate 19 b
  targetBuff_length := List.length_replicate

/-- The end of `PN532_ReadPassiveTarget`, with an answer in `buff`. -/
def takeTarget (pn532 : PN532 σ) (response buff : Str) : Driver σ (Int × Str) :=
  if buff[0]? ≠ some 0x01 then do
    pn532.log moreThanOneCard
    pure (-1, response)
  else
    match buff[5]? with
    | none => throw .overrun
    | some length =>
        if 7 < length then do
          pn532.log longUid
          pure (-1, response)
        else do
          let uid ← load buff 6 length.toNat
          let response ← store uid response
          pure (length.toNat, response)

/-- `PN532_ReadPassiveTarget`; its result and the buffer `response`. -/
def readPassiveTarget (pn532 : PN532 σ) (stack : TargetStack) (response : Str) (cardBaud : Byte)
    (timeout : Nat) : Driver σ (Int × Str) := do
  let (length, buff) ←
    pn532.callFunction stack.toStack commandInListPassiveTarget stack.targetBuff 19
    [0x01, cardBaud] timeout
  if length < 0 then pure (-1, response)
  else pn532.takeTarget response buff

/-! ## What a poll returns -/

open Returning

/-- The request of `PN532_ReadPassiveTarget`. -/
def targetRequest (cardBaud : Byte) (timeout : Nat) : Request :=
  ⟨commandInListPassiveTarget, [0x01, cardBaud], 19, timeout⟩

/-- The UID that is taken out of an answer, if it is taken for one. -/
def uidOf (answer : Str) : Option Str :=
  if answer[0]? = some 0x01 then
    match answer[5]? with
    | none => none
    | some length => if length ≤ 7 then some ((answer.drop 6).take length.toNat) else none
  else none

section Target

variable {pn532 : PN532 σ} {stack : TargetStack} {s s' : σ} {response r buff : Str} {n : Int}
  {cardBaud : Byte} {timeout : Nat}

theorem length_uidOf {uid : Str} (hbuff : buff.length = 19) (h : uidOf buff = some uid) :
    uid.length ≤ 7 ∧ buff[5]? = some uid.length.toUInt8 ∧ uid = (buff.drop 6).take uid.length := by
  rw [uidOf] at h
  split_ifs at h with hone
  split at h
  · exact absurd h (by simp)
  · rename_i length hlength
    split_ifs at h with hshort
    have hseven : length.toNat ≤ 7 := UInt8.le_iff_toNat_le.mp hshort
    obtain rfl := Option.some.inj h
    have hcount : ((buff.drop 6).take length.toNat).length = length.toNat := by
      rw [List.length_take, List.length_drop]
      omega
    have hbyte : length.toNat.toUInt8 = length := by
      rw [← UInt8.toNat_inj]
      exact Nat.mod_eq_of_lt length.toNat_lt
    rw [hcount]
    exact ⟨hseven, by rw [hlength, hbyte], rfl⟩

/-- A target is taken from the answer as `uidOf` says. -/
theorem returns_takeTarget (hbuff : buff.length = 19)
    (h : Returns (pn532.takeTarget response buff) s (n, r) s') :
    (∃ uid, uidOf buff = some uid ∧ n = uid.length ∧ r = overwrite uid response ∧ s' = s) ∨
      uidOf buff = none ∧ n = -1 ∧ r = response := by
  rw [takeTarget] at h
  rw [uidOf]
  split_ifs at h with hone
  · rw [if_neg hone]
    exact Or.inr ⟨rfl, returns_logged h⟩
  rw [if_pos (not_ne_iff.mp hone)]
  cases hlength : buff[5]? with
  | none =>
      rw [hlength] at h
      exact absurd h not_returns_throw
  | some length =>
      simp only [hlength] at h ⊢
      split_ifs at h with hlong
      · rw [if_neg (UInt8.not_le.mpr hlong)]
        exact Or.inr ⟨rfl, returns_logged h⟩
      · rw [UInt8.not_lt] at hlong
        have hseven : length.toNat ≤ 7 := UInt8.le_iff_toNat_le.mp hlong
        rw [returns_bind] at h
        obtain ⟨uid, s₁, hload, h⟩ := h
        obtain ⟨-, rfl, rfl⟩ := returns_load.mp hload
        rw [returns_bind] at h
        obtain ⟨response', s₂, hstore, h⟩ := h
        obtain ⟨-, rfl, rfl⟩ := returns_store.mp hstore
        obtain ⟨hresult, rfl⟩ := returns_pure.mp h
        obtain ⟨rfl, rfl⟩ := Prod.mk.inj hresult
        refine Or.inl ⟨_, if_pos hlong, ?_, rfl, rfl⟩
        rw [List.length_take, List.length_drop]
        omega

theorem takeTarget_of_uid {uid : Str} (hbuff : buff.length = 19) (hresponse : 7 ≤ response.length)
    (huid : uidOf buff = some uid) :
    Returns (pn532.takeTarget response buff) s (uid.length, overwrite uid response) s := by
  have hlong := (length_uidOf hbuff huid).1
  rw [uidOf] at huid
  split_ifs at huid with hone
  cases hlength : buff[5]? with
  | none => simp [hlength] at huid
  | some length =>
      simp only [hlength] at huid
      split_ifs at huid with hshort
      have hseven : length.toNat ≤ 7 := UInt8.le_iff_toNat_le.mp hshort
      obtain rfl := Option.some.inj huid
      have hcount : ((buff.drop 6).take length.toNat).length = length.toNat := by
        rw [List.length_take, List.length_drop]
        omega
      have hload : Returns (load buff 6 length.toNat) s ((buff.drop 6).take length.toNat) s :=
        returns_load.mpr ⟨by omega, rfl, rfl⟩
      have hstore : Returns (store ((buff.drop 6).take length.toNat) response) s
          (overwrite ((buff.drop 6).take length.toNat) response) s :=
        returns_store.mpr ⟨by omega, rfl, rfl⟩
      rw [takeTarget, if_neg (not_ne_iff.mpr hone)]
      simp only [hlength]
      rw [if_neg (UInt8.not_lt.mpr hshort)]
      refine hload.bind_iff.mpr (hstore.bind_iff.mpr (returns_pure.mpr ⟨?_, rfl⟩))
      rw [hcount]

theorem length_handedOn {q : Request} {payload left : Str} (hleft : left.length = 255)
    (hlength : q.responseLength ≤ 253) : (handedOn q payload left).length = q.responseLength := by
  rw [handedOn, List.length_take, List.length_append, List.length_drop]
  omega

theorem overwrite_targetBuff {answer : Str} (h : answer.length = 19) :
    overwrite answer stack.targetBuff = answer := by
  rw [overwrite, h, List.drop_of_length_le stack.targetBuff_length.le, List.append_nil]

/-- What a poll can come back with: -1, with `response` as it was, or the length of a UID of
at most seven bytes, which is at the front of `response`. -/
theorem readPassiveTarget_cases
    (h : Returns (pn532.readPassiveTarget stack response cardBaud timeout) s (n, r) s') :
    (n = -1 ∧ r = response) ∨
      ∃ payload left uid,
        Exchange pn532 stack.toStack (targetRequest cardBaud timeout) s payload left s' ∧
        uidOf (handedOn (targetRequest cardBaud timeout) payload left) = some uid ∧
        uid.length ≤ 7 ∧ n = uid.length ∧ r = overwrite uid response := by
  rw [readPassiveTarget, returns_bind] at h
  obtain ⟨⟨m, buff⟩, s₁, hcall, h⟩ := h
  rcases call_cases (q := targetRequest cardBaud timeout) hcall with
    ⟨rfl, -⟩ | ⟨payload, left, hexchange, hleft, hlength, -, rfl, rfl⟩
  · exact Or.inl (returns_failed h)
  · dsimp only at h
    rw [if_neg (Int.natCast_nonneg _).not_gt] at h
    have hbuff : (handedOn (targetRequest cardBaud timeout) payload left).length = 19 :=
      length_handedOn hleft hlength
    rw [overwrite_targetBuff hbuff] at h
    rcases returns_takeTarget hbuff h with ⟨uid, huid, rfl, rfl, rfl⟩ | ⟨-, hfail⟩
    · exact Or.inr ⟨payload, left, uid, hexchange, huid, (length_uidOf hbuff huid).1, rfl, rfl⟩
    · exact Or.inl hfail

/-- **When a card is found.**  Whatever the device does, a poll succeeds exactly after an
exchange with a UID in what the call hands on, a UID of at most seven bytes; it returns
the length, and stores the UID at the front of `response`. -/
theorem readPassiveTarget_succeeds_iff (hresponse : 7 ≤ response.length) :
    Returns (pn532.readPassiveTarget stack response cardBaud timeout) s (n, r) s' ∧ n ≠ -1 ↔
      ∃ payload left uid,
        Exchange pn532 stack.toStack (targetRequest cardBaud timeout) s payload left s' ∧
        uidOf (handedOn (targetRequest cardBaud timeout) payload left) = some uid ∧
        uid.length ≤ 7 ∧ n = uid.length ∧ r = overwrite uid response := by
  constructor
  · rintro ⟨h, hn⟩
    exact (readPassiveTarget_cases h).resolve_left fun hfail => hn hfail.1
  · rintro ⟨payload, left, uid, hexchange, huid, -, rfl, rfl⟩
    have hparams : (targetRequest cardBaud timeout).params.length ≤ 253 := show 2 ≤ 253 by omega
    have hleft : left.length = 255 := by
      obtain ⟨s₁, hacknowledged, -⟩ := id hexchange
      exact hacknowledged.length_left hparams
    have hbuff : (handedOn (targetRequest cardBaud timeout) payload left).length = 19 :=
      length_handedOn hleft (show 19 ≤ 253 by omega)
    have hcall := hexchange.returns hparams (show 19 ≤ 253 by omega) stack.targetBuff_length.ge
    rw [overwrite_targetBuff hbuff] at hcall
    refine ⟨hcall.bind_iff.mpr ?_, by omega⟩
    dsimp only
    rw [if_neg (Int.natCast_nonneg _).not_gt]
    exact takeTarget_of_uid hbuff hresponse huid

/-! ## Answers that are too short -/

/-- What a full answer leaves in the 19 bytes that the UID is taken from. -/
def answerOf (stack : TargetStack) (cardBaud : Byte) (timeout : Nat) (payload : Str) : Str :=
  handedOn (targetRequest cardBaud timeout) payload
    (ack ++ ((targetRequest cardBaud timeout).buff stack.toStack).drop 6)

theorem length_left_answerOf :
    (ack ++ ((targetRequest cardBaud timeout).buff stack.toStack).drop 6).length = 255 := by
  have hbuff : ((targetRequest cardBaud timeout).buff stack.toStack).length = 255 :=
    length_buff (show 2 ≤ 253 by omega)
  rw [List.length_append, List.length_drop, hbuff]
  rfl

theorem length_answerOf {payload : Str} :
    (answerOf stack cardBaud timeout payload).length = 19 :=
  length_handedOn length_left_answerOf (show 19 ≤ 253 by omega)

/-- A poll that is answered in full comes down to the 19 bytes. -/
theorem readPassiveTarget_iff {payload : Str} {s₁ : σ} {result : Int × Str}
    (h : Answers pn532 (targetRequest cardBaud timeout) s payload s₁)
    (hpayload : payload.length ≤ 252) :
    Returns (pn532.readPassiveTarget stack response cardBaud timeout) s result s' ↔
      Returns (pn532.takeTarget response (answerOf stack cardBaud timeout payload)) s₁ result
        s' := by
  have hexchange := h.exchange (show commandInListPassiveTarget ≠ 0xFF by decide)
    (show 19 ≤ 245 by omega) hpayload stack.toStack
  have hresponse : (targetRequest cardBaud timeout).responseLength ≤ stack.targetBuff.length :=
    stack.targetBuff_length.ge
  have hparams : (targetRequest cardBaud timeout).params.length ≤ 253 := show 2 ≤ 253 by omega
  have hcall := hexchange.returns hparams (show 19 ≤ 253 by omega) hresponse
  refine hcall.bind_iff.trans ?_
  dsimp only
  rw [if_neg (Int.natCast_nonneg _).not_gt, ← answerOf, overwrite_targetBuff length_answerOf]

/-- Behind the payload come the acknowledgement and what the stack held. -/
theorem getElem?_answerOf {payload : Str} {i : Nat} (hi : i < 19) :
    (answerOf stack cardBaud timeout payload)[i]? =
      if i < payload.length then payload[i]?
      else if i < 4 then ack[i + 2]? else stack.buff[i + 2]? := by
  have hlength : i < (targetRequest cardBaud timeout).responseLength := hi
  rw [answerOf, handedOn, List.getElem?_take_of_lt hlength]
  split_ifs with hinside hack
  · rw [List.getElem?_append_left hinside]
  · rw [List.getElem?_append_right (by omega), List.getElem?_drop,
      List.getElem?_append_left (show _ < 6 by omega)]
    congr 1
    omega
  · rw [List.getElem?_append_right (by omega), List.getElem?_drop,
      List.getElem?_append_right (show 6 ≤ _ by omega), List.getElem?_drop, Request.buff,
      overwrite, List.getElem?_append_right (show 4 ≤ _ by omega), List.getElem?_drop]
    congr 1
    simp only [targetRequest, ack, List.length_cons, List.length_nil]
    omega

/-- The answer says all that is taken from it. -/
def Settled (payload : Str) : Prop :=
  payload[0]? ≠ some 0x01 ∨
    ∃ length, payload[5]? = some length ∧ (7 < length ∨ 6 + length.toNat ≤ payload.length)

theorem uidOf_answerOf_of_settled {payload : Str} (h : Settled payload) :
    uidOf (answerOf stack cardBaud timeout payload) = uidOf payload := by
  have hfirst : (answerOf stack cardBaud timeout payload)[0]? = _ := getElem?_answerOf (by omega)
  by_cases hone : payload[0]? = some 0x01
  · rcases h with hother | ⟨length, hlength, hsettled⟩
    · exact absurd hone hother
    have hlong : 5 < payload.length := (List.getElem?_eq_some_iff.mp hlength).1
    have hsixth : (answerOf stack cardBaud timeout payload)[5]? = _ :=
      getElem?_answerOf (by omega)
    rw [if_pos (by omega), hone] at hfirst
    rw [if_pos hlong, hlength] at hsixth
    simp only [uidOf, hfirst, hsixth, hone, hlength, if_true]
    split_ifs with hshort
    · have hseven : length.toNat ≤ 7 := UInt8.le_iff_toNat_le.mp hshort
      have hinside : 6 + length.toNat ≤ payload.length :=
        hsettled.resolve_left (UInt8.not_lt.mpr hshort)
      congr 1
      refine List.ext_getElem? fun i => ?_
      by_cases hi : i < length.toNat
      · rw [List.getElem?_take_of_lt hi, List.getElem?_take_of_lt hi, List.getElem?_drop,
          List.getElem?_drop, getElem?_answerOf (by omega), if_pos (by omega)]
      · rw [List.getElem?_take_eq_none (by omega), List.getElem?_take_eq_none (by omega)]
    · rfl
  · have hnone : (answerOf stack cardBaud timeout payload)[0]? ≠ some 0x01 := by
      rw [hfirst, if_pos (show 0 < 4 by omega)]
      split_ifs
      · exact hone
      · decide
    rw [uidOf, uidOf, if_neg hone, if_neg hnone]

theorem uidOf_of_length {answer : Str} {length : Byte} (hone : answer[0]? = some 0x01)
    (hlength : answer[5]? = some length) (hshort : length ≤ 7) :
    uidOf answer = some ((answer.drop 6).take length.toNat) := by
  simp only [uidOf, hone, hlength, if_true, if_pos hshort]

theorem getElem?_answerOf_fill {payload : Str} {i : Nat} (hout : payload.length ≤ i) (hack : 4 ≤ i)
    (hi : i < 19) (b : Byte) : (answerOf (fill b) cardBaud timeout payload)[i]? = some b := by
  have hbuff : (fill b).buff = List.replicate 255 b := rfl
  rw [getElem?_answerOf hi, if_neg (by omega), if_neg (by omega), hbuff,
    List.getElem?_replicate_of_lt (by omega)]

/-- What does not come from an unsettled answer is taken from the stack. -/
theorem exists_uidOf_fill (cardBaud : Byte) (timeout : Nat) {payload : Str}
    (h : ¬ Settled payload) :
    ∃ uid uid', uidOf (answerOf (fill 0) cardBaud timeout payload) = some uid ∧
      uidOf (answerOf (fill 1) cardBaud timeout payload) = some uid' ∧ uid ≠ uid' := by
  rw [Settled, not_or, not_not] at h
  obtain ⟨hone, hshort⟩ := h
  have hpos : 0 < payload.length := (List.getElem?_eq_some_iff.mp hone).1
  have hfirst : ∀ b, (answerOf (fill b) cardBaud timeout payload)[0]? = some 0x01 := fun b => by
    rw [getElem?_answerOf (by omega), if_pos hpos, hone]
  by_cases hlong : 5 < payload.length
  · obtain ⟨length, hlength⟩ : ∃ length, payload[5]? = some length :=
      ⟨payload[5], List.getElem?_eq_getElem hlong⟩
    have hnot := not_exists.mp hshort length
    rw [not_and, not_or, UInt8.not_lt] at hnot
    obtain ⟨hseven, hout⟩ := hnot hlength
    have hle : length.toNat ≤ 7 := UInt8.le_iff_toNat_le.mp hseven
    have hsixth : ∀ b, (answerOf (fill b) cardBaud timeout payload)[5]? = some length :=
      fun b => by rw [getElem?_answerOf (by omega), if_pos hlong, hlength]
    refine ⟨_, _, uidOf_of_length (hfirst 0) (hsixth 0) hseven,
      uidOf_of_length (hfirst 1) (hsixth 1) hseven, fun heq => ?_⟩
    -- the first byte of the UID that the answer does not reach
    have hbyte : ∀ b, (((answerOf (fill b) cardBaud timeout payload).drop 6).take
        length.toNat)[payload.length - 6]? = some b := fun b => by
      rw [List.getElem?_take_of_lt (by omega), List.getElem?_drop,
        getElem?_answerOf_fill (by omega) (by omega) (by omega)]
    have hzero := hbyte 0
    rw [heq, hbyte 1] at hzero
    exact absurd hzero (by decide)
  · have hsixth : ∀ b, (answerOf (fill b) cardBaud timeout payload)[5]? = some b :=
      getElem?_answerOf_fill (by omega) (by omega) (by omega)
    refine ⟨_, _, uidOf_of_length (hfirst 0) (hsixth 0) (by decide),
      uidOf_of_length (hfirst 1) (hsixth 1) (by decide), fun heq => ?_⟩
    have hlength := congrArg List.length heq
    rw [List.length_take, List.length_take, List.length_drop, List.length_drop, length_answerOf,
      length_answerOf] at hlength
    exact absurd hlength (by decide)

theorem returns_of_uidOf {payload uid : Str} {s₁ : σ}
    (h : Answers pn532 (targetRequest cardBaud timeout) s payload s₁)
    (hpayload : payload.length ≤ 252) (hresponse : 7 ≤ response.length)
    (huid : uidOf (answerOf stack cardBaud timeout payload) = some uid) :
    Returns (pn532.readPassiveTarget stack response cardBaud timeout) s
      (uid.length, overwrite uid response) s₁ :=
  (readPassiveTarget_iff h hpayload).mpr (takeTarget_of_uid length_answerOf hresponse huid)

/-- **The result of a poll does not depend on uninitialized memory** exactly if the chip's
answer, which `read_data` brings in full, holds all that is taken from it: it is not taken
for one card, or its length byte is there and announces a UID that is too long or that the
answer does hold. -/
theorem uid_settled_iff {payload : Str} {s₁ : σ}
    (h : Answers pn532 (targetRequest cardBaud timeout) s payload s₁)
    (hpayload : payload.length ≤ 252) (hresponse : 7 ≤ response.length) :
    (∀ (stack stack' : TargetStack) (result result' : Int × Str) (s' s'' : σ),
        Returns (pn532.readPassiveTarget stack response cardBaud timeout) s result s' →
        Returns (pn532.readPassiveTarget stack' response cardBaud timeout) s result' s'' →
        result = result') ↔ Settled payload := by
  constructor
  · intro hsame
    by_contra hunsettled
    obtain ⟨uid, uid', huid, huid', hne⟩ := exists_uidOf_fill cardBaud timeout hunsettled
    have heq := hsame _ _ _ _ _ _ (returns_of_uidOf h hpayload hresponse huid)
      (returns_of_uidOf h hpayload hresponse huid')
    obtain ⟨hlength, hbytes⟩ := Prod.mk.inj heq
    exact hne (List.append_inj_left hbytes (Int.ofNat_inj.mp hlength))
  · intro hsettled stack stack' result result' s' s'' hrun hrun'
    have htake := returns_takeTarget length_answerOf ((readPassiveTarget_iff h hpayload).mp hrun)
    have htake' := returns_takeTarget length_answerOf ((readPassiveTarget_iff h hpayload).mp hrun')
    rw [uidOf_answerOf_of_settled hsettled] at htake htake'
    rcases htake with ⟨uid, huid, hn, hr, -⟩ | ⟨hnone, hn, hr⟩
    · rcases htake' with ⟨uid', huid', hn', hr', -⟩ | ⟨hnone, -, -⟩
      · obtain rfl := Option.some.inj (huid.symm.trans huid')
        exact Prod.ext (hn.trans hn'.symm) (hr.trans hr'.symm)
      · exact absurd (huid.symm.trans hnone) (by simp)
    · rcases htake' with ⟨uid', huid', -, -, -⟩ | ⟨-, hn', hr'⟩
      · exact absurd (huid'.symm.trans hnone) (by simp)
      · exact Prod.ext (hn.trans hn'.symm) (hr.trans hr'.symm)

end Target

end PN532

end AsyncNFCServer
