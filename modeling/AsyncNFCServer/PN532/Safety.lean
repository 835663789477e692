import AsyncNFCServer.PN532.Blocks

/-!
# Devices that send what they like

Assumed here is a bus whose own functions come back and whose `read_data` stores no more
than it is asked for.  The driver then comes back as well, and stays within its arrays,
except after one kind of frame: one whose length byte has passed its check, but is 255 or
leads out of the buffer (`Traps`).  That is so of `PN532_CallFunction` over any such bus
(`call_comes_back_iff`).  The bus may be the I2C bus, with any device at its other end
(`i2c_tame`), but not the serial line, where a device tells `PN532_UART_ReadData` how much to
store.
-/

namespace AsyncNFCServer

namespace PN532

open Returning Checksum

variable {σ : Type}

/-- The functions of the table come back, and read no more than they are asked for. -/
structure Tame (pn532 : PN532 σ) : Prop where
  readData (s : σ) {n : Nat} (hn : n ≤ 254) :
    ∃ status bytes s', Returns (pn532.readData n) s (status, bytes) s' ∧ bytes.length ≤ n
  writeData (s : σ) {data : Str} (hdata : data.length ≤ 262) : ComesBack (pn532.writeData data) s
  waitReady (s : σ) (timeout : Nat) : ComesBack (pn532.waitReady timeout) s
  wakeup (s : σ) : ComesBack pn532.wakeup s
  log (s : σ) (message : Str) : ComesBack (pn532.log message) s

/-! ## Any device on the I2C bus -/

/-- The calls of the operating system come back, and read no more than they are asked for; the
clock runs. -/
structure I2cBus.Tame (bus : I2cBus σ) (time : σ → Nat) : Prop where
  read (s : σ) (n : Nat) : ∃ bytes s', Returns (bus.read (n + 1)) s bytes s' ∧
    bytes.length ≤ n + 1 ∧ time s ≤ time s'
  write (s : σ) (data : Str) : ComesBack (bus.write data) s
  digitalWrite (s : σ) (pin : Nat) (level : Bool) : ComesBack (bus.digitalWrite pin level) s
  log (s : σ) (message : Str) : ComesBack (bus.log message) s
  timer : bus.timer.Runs time fun _ => True

section I2c

variable {bus : I2cBus σ} {time : σ → Nat}

theorem I2c.comesBack_waitReady (h : bus.Tame time) (s : σ) (timeout : Nat) :
    ComesBack (I2c.waitReady bus timeout) s := by
  have hpoll : ∀ s (status : Str), True → True → ∃ ready status' s',
      Returns (I2c.pollStatus bus status) s (ready, status') s' ∧ True ∧ True ∧ True ∧
        time s ≤ time s' := by
    intro s status _ _
    obtain ⟨bytes, s', hread, -, htime⟩ := h.read s 0
    exact ⟨_, _, s', hread.bind_iff.mpr (returns_pure.mpr ⟨rfl, rfl⟩), trivial, trivial, trivial,
      htime⟩
  obtain ⟨ready, s', hwait, -, -⟩ := waitReadyBy_comes_back (P := fun _ => True)
    (A := fun _ => True) (J := fun _ => True) trivial h.timer (show 1 ≤ 5 by omega) hpoll trivial
    trivial
  exact hwait.comesBack

theorem I2c.comesBack_wakeup (h : bus.Tame time) (s : σ) : ComesBack (I2c.wakeup bus) s := by
  have hpause : ∀ (s : σ) (n : Nat), ComesBack (bus.timer.delay n) s := by
    intro s n
    obtain ⟨s', hdelay, -⟩ := h.timer.delay (s := s) trivial n
    exact hdelay.comesBack
  rw [I2c.wakeup]
  refine (h.digitalWrite s _ true).bind fun _ s₁ _ => (hpause s₁ 100).bind fun _ s₂ _ => ?_
  refine (h.digitalWrite s₂ _ false).bind fun _ s₃ _ => (hpause s₃ 100).bind fun _ s₄ _ => ?_
  exact (h.digitalWrite s₄ _ true).bind fun _ s₅ _ => hpause s₅ 500

/-- Whatever the device on the I2C bus does, the functions of the table come back. -/
theorem i2c_tame (h : bus.Tame time) (stale : Nat → Str) : Tame (I2c.pn532 bus stale) where
  readData s n hn := by
    obtain ⟨status, s₁, hstatus, -⟩ := h.read s 0
    obtain ⟨bytes, s₂, hbytes, -⟩ := h.read s₁ n
    by_cases hready : (overwrite status [0x00])[0]? = some I2c.ready
    · refine ⟨0, ((overwrite bytes (stale (n + 1))).drop 1).take n, s₂, hstatus.bind_iff.mpr ?_,
        List.length_take_le _ _⟩
      rw [if_neg (not_ne_iff.mpr hready)]
      refine hbytes.bind_iff.mpr ?_
      dsimp only
      rw [if_neg (by omega)]
      exact returns_pure.mpr ⟨rfl, rfl⟩
    · refine ⟨-1, [], s₁, hstatus.bind_iff.mpr ?_, Nat.zero_le _⟩
      rw [if_pos hready]
      exact returns_pure.mpr ⟨rfl, rfl⟩
  writeData s data _ := (h.write s data).bind fun _ _ _ => comesBack_pure
  waitReady s timeout := I2c.comesBack_waitReady h s timeout
  wakeup s := I2c.comesBack_wakeup h s
  log s message := h.log s message

end I2c

/-! ## Calls -/

/-- A buffer that `PN532_ReadFrame` does not come back from. -/
def Traps (length : Nat) (buff : Str) : Prop :=
  ∃ k frameLen lengthCheck body,
    buff = List.replicate k 0 ++ 0xFF :: frameLen :: lengthCheck :: body ∧ k < length + 7 ∧
      ZeroSum [frameLen, lengthCheck] ∧ (body.length ≤ frameLen.toNat ∨ frameLen = 255)

/-- The device acknowledges the request, and what is read in after that is a trap. -/
def Trapped (pn532 : PN532 σ) (stack : Stack) (q : Request) (s : σ) : Prop :=
  ∃ left s₁ s₂ status bytes s₃, Acknowledged pn532 stack q s left s₁ ∧
    Returns (pn532.waitReady q.timeout) s₁ true s₂ ∧
    Returns (pn532.readData (q.responseLength + 9)) s₂ (status, bytes) s₃ ∧
    Traps (q.responseLength + 2) (overwrite bytes stack.frameBuff)

section Calls

variable {pn532 : PN532 σ} {stack : Stack} {q : Request} {s s₀ : σ} {response left : Str}

theorem traps_iff {length : Nat} (hlength : length ≤ 247) {buff : Str}
    (hsize : length + 9 ≤ buff.length) :
    Traps length buff ↔ ∃ f, parseFrame length buff = .error (.fault f) := by
  constructor
  · rintro ⟨k, frameLen, lengthCheck, body, rfl, hk, hpair, hbody⟩
    by_cases hover : body.length ≤ frameLen.toNat
    · exact ⟨.overrun, by
        rw [parseFrame_start hlength hk, checkBody]
        exact checkData_eq_fault_iff.mpr ⟨hpair, Or.inl ⟨hover, rfl⟩⟩⟩
    · exact ⟨.endless, by
        rw [parseFrame_start hlength hk, checkBody]
        exact checkData_eq_fault_iff.mpr
          ⟨hpair, Or.inr ⟨not_le.mp hover, hbody.resolve_left hover, rfl⟩⟩⟩
  · rintro ⟨f, h⟩
    obtain ⟨k, frameLen, lengthCheck, body, rfl, hk, hpair, hbody⟩ :=
      exists_of_parseFrame_fault hlength hsize h
    refine ⟨k, frameLen, lengthCheck, body, rfl, hk, hpair, ?_⟩
    rcases hbody with ⟨hover, -⟩ | ⟨-, hlast, -⟩
    · exact Or.inl hover
    · exact Or.inr hlast

/-- Where a function gives up it comes back. -/
theorem Tame.comesBack_logged (h : Tame pn532) (message response : Str) (s : σ) :
    ComesBack (do
      pn532.log message
      pure ((-1, response) : Int × Str)) s :=
  (h.log s message).bind fun _ _ _ => comesBack_pure

theorem Tame.comesBack_takeAnswer (h : Tame pn532) {command : Byte} {responseLength : Nat}
    {frameLen : Int} {buff : Str} (hinside : 2 + responseLength ≤ buff.length)
    (hresponse : responseLength ≤ response.length) :
    ComesBack (pn532.takeAnswer command response responseLength frameLen buff) s := by
  by_cases hanswer : IsAnswer command buff
  · exact (takeAnswer_of_isAnswer hanswer hinside
      ((List.length_take_le _ _).trans hresponse)).comesBack
  · rw [takeAnswer, if_neg hanswer]
    exact h.comesBack_logged _ _ _

theorem Tame.exists_readFrame (h : Tame pn532) {length : Nat} (hlength : length ≤ 247)
    {status : Int} {bytes : Str} {s₁ : σ}
    (hread : Returns (pn532.readData (length + 7)) s (status, bytes) s₁)
    (hbytes : bytes.length ≤ length + 7) (hnot : ¬ Traps length (overwrite bytes stack.frameBuff))
    (hresponse : 254 ≤ response.length) :
    ∃ n r s', Returns (pn532.readFrame stack response length) s (n, r) s' ∧
      r.length = response.length := by
  have hcount : uint16 (length + 7) = length + 7 := uint16_of_lt (by omega)
  have hfits : bytes.length ≤ stack.frameBuff.length := by
    rw [stack.frameBuff_length]
    omega
  have hsize : (overwrite bytes stack.frameBuff).length = 262 :=
    (length_overwrite hfits).trans stack.frameBuff_length
  cases hparse : parseFrame length (overwrite bytes stack.frameBuff) with
  | ok data =>
      have hmax : data.length < 255 := by
        obtain ⟨-, -, -, -, -, -, -, -, hmax, -⟩ := (parseFrame_eq_ok_iff hlength _ _).mp hparse
        exact hmax
      have hdata : data.length ≤ response.length := by omega
      exact ⟨_, _, _, readFrame_of_parsed (by rwa [hcount]) (by omega) hparse hdata,
        length_overwrite hdata⟩
  | error stop =>
      cases stop with
      | fault f => exact absurd ((traps_iff hlength (by omega)).mpr ⟨f, hparse⟩) hnot
      | rejected message =>
          obtain ⟨_, s', hlog⟩ := h.log s₁ message
          have hstore : Returns (store bytes stack.frameBuff) s₁ _ s₁ :=
            returns_store.mpr ⟨hfits, rfl, rfl⟩
          refine ⟨-1, response, s', ?_, rfl⟩
          rw [readFrame, hcount]
          refine hread.bind_iff.mpr (hstore.bind_iff.mpr ?_)
          simp only [hparse]
          exact hlog.bind_iff.mpr (returns_pure.mpr ⟨rfl, rfl⟩)

/-- Behind the acknowledgement the call comes back if it reads no trap. -/
theorem Tame.comesBack_awaitAnswer (h : Tame pn532) (hlength : q.responseLength ≤ 245)
    (hleft : left.length = 255) (hresponse : q.responseLength ≤ response.length)
    (hnot : ∀ s₁ status bytes s₂, Returns (pn532.waitReady q.timeout) s true s₁ →
      Returns (pn532.readData (q.responseLength + 9)) s₁ (status, bytes) s₂ →
      ¬ Traps (q.responseLength + 2) (overwrite bytes stack.frameBuff)) :
    ComesBack (pn532.awaitAnswer stack left q.command response q.responseLength q.timeout) s := by
  rw [awaitAnswer]
  refine (h.waitReady s q.timeout).bind fun ready s₁ hready => ?_
  split_ifs with hok
  · subst hok
    obtain ⟨status, bytes, s₂, hread, hbytes⟩ :=
      h.readData s₁ (show q.responseLength + 9 ≤ 254 by omega)
    obtain ⟨n, r, s₃, hframe, hr⟩ := h.exists_readFrame
      (show q.responseLength + 2 ≤ 247 by omega) hread hbytes
      (hnot s₁ status bytes s₂ hready hread) (show 254 ≤ left.length by omega)
    rw [uint16_of_lt (show q.responseLength + 2 < 65536 by omega)]
    refine hframe.comesBack_bind_iff.mpr ?_
    exact h.comesBack_takeAnswer (by omega) hresponse
  · exact comesBack_pure

theorem Tame.comesBack_awaitAck (h : Tame pn532) (hparams : q.params.length ≤ 253)
    (hlength : q.responseLength ≤ 245) (hresponse : q.responseLength ≤ response.length)
    (hwritten : Returns (pn532.writeData (frame (hostToPN532 :: q.command :: q.params))) s₀ 0 s)
    (hnot : ¬ Trapped pn532 stack q s₀) :
    ComesBack (pn532.awaitAck stack (q.buff stack) q.command response q.responseLength q.timeout)
      s := by
  rw [awaitAck]
  refine (h.waitReady s q.timeout).bind fun ready s₁ hready => ?_
  split_ifs with hok
  · subst hok
    obtain ⟨status, bytes, s₂, hread, hbytes⟩ := h.readData s₁ (show ack.length ≤ 254 by decide)
    have hsix : ack.length = 6 := rfl
    have hfits : bytes.length ≤ (q.buff stack).length := by
      rw [length_buff hparams]
      omega
    have hstore : Returns (store bytes (q.buff stack)) s₂ _ s₂ :=
      returns_store.mpr ⟨hfits, rfl, rfl⟩
    refine hread.comesBack_bind_iff.mpr (hstore.comesBack_bind_iff.mpr ?_)
    split_ifs with hack
    · exact h.comesBack_logged _ _ _
    · have hacknowledged : Acknowledged pn532 stack q s₀ (overwrite bytes (q.buff stack)) s₂ :=
        ⟨hwritten, hready, hread, by omega, rfl, not_ne_iff.mp hack⟩
      refine h.comesBack_awaitAnswer hlength (hacknowledged.length_left hparams) hresponse ?_
      intro s₃ status' bytes' s₄ hready' hread' htraps
      exact hnot ⟨_, _, _, _, _, _, hacknowledged, hready', hread', htraps⟩
  · exact comesBack_pure

theorem Tame.comesBack_call (h : Tame pn532) (hparams : q.params.length ≤ 253)
    (hlength : q.responseLength ≤ 245) (hresponse : q.responseLength ≤ response.length)
    (hnot : ¬ Trapped pn532 stack q s) : ComesBack (pn532.call stack q response) s := by
  have hrequest : Returns (store (hostToPN532 :: q.command :: q.params) stack.buff) s
      (q.buff stack) s := returns_store.mpr ⟨by
        rw [stack.buff_length, List.length_cons, List.length_cons]
        omega, rfl, rfl⟩
  have hwrites : ComesBack (pn532.writeFrame (hostToPN532 :: q.command :: q.params)) s := by
    rw [writeFrame]
    split_ifs with hsize
    · exact comesBack_pure
    · refine (h.writeData s ?_).bind fun status s₁ _ => ?_
      · rw [length_frame_cons_cons]
        omega
      · split_ifs
        · exact comesBack_pure
        · exact comesBack_pure
  rw [call, callFunction]
  refine hrequest.comesBack_bind_iff.mpr ?_
  rw [take_buff hparams]
  refine hwrites.bind fun status s₁ hwrite => ?_
  split_ifs with hstatus
  · exact (h.wakeup s₁).bind fun _ s₂ _ => h.comesBack_logged _ _ _
  · rw [not_ne_iff.mp hstatus] at hwrite
    exact h.comesBack_awaitAck hparams hlength hresponse
      (returns_writeFrame_zero_iff.mp hwrite).2 hnot

/-- A trap keeps the call. -/
theorem Trapped.not_comesBack (h : Trapped pn532 stack q s) (hparams : q.params.length ≤ 253)
    (hlength : q.responseLength ≤ 245) : ¬ ComesBack (pn532.call stack q response) s := by
  obtain ⟨left, s₁, s₂, status, bytes, s₃, hacknowledged, hready, hread, htraps⟩ := h
  rintro ⟨result, s', hcall⟩
  have hcount : uint16 (uint16 (q.responseLength + 2) + 7) = q.responseLength + 9 := by
    rw [uint16_of_lt (show q.responseLength + 2 < 65536 by omega), uint16_of_lt (by omega)]
  rw [hacknowledged.call_iff hparams, awaitAnswer, hready.bind_iff, if_pos rfl,
    returns_bind] at hcall
  obtain ⟨⟨n, r⟩, s₄, hframe, -⟩ := hcall
  rw [readFrame, hcount, hread.bind_iff] at hframe
  dsimp only at hframe
  rw [returns_bind] at hframe
  obtain ⟨buff, s₅, hstore, hframe⟩ := hframe
  obtain ⟨hfits, rfl, rfl⟩ := returns_store.mp hstore
  have hsize : (overwrite bytes stack.frameBuff).length = 262 :=
    (length_overwrite hfits).trans stack.frameBuff_length
  obtain ⟨f, hparse⟩ := (traps_iff (show q.responseLength + 2 ≤ 247 by omega) (by omega)).mp htraps
  rw [uint16_of_lt (show q.responseLength + 2 < 65536 by omega)] at hframe
  simp only [hparse] at hframe
  exact absurd hframe not_returns_throw

/-- **The driver comes back from everything but a trap.**  Over a bus whose own functions come
back and read no more than they are asked for, a call comes back exactly if it does not read,
behind an acknowledgement, a frame whose length byte has passed its check but is 255 or leads
out of the buffer. -/
theorem call_comes_back_iff (h : Tame pn532) (hparams : q.params.length ≤ 253)
    (hlength : q.responseLength ≤ 245) (hresponse : q.responseLength ≤ response.length) :
    ComesBack (pn532.call stack q response) s ↔ ¬ Trapped pn532 stack q s :=
  ⟨fun hback htrapped => htrapped.not_comesBack hparams hlength hback,
    h.comesBack_call hparams hlength hresponse⟩

/-- A device on the I2C bus that acknowledges everything, and then sends the length byte 255. -/
def trapDevice : I2cBus Nat where
  read n := pure ((0x01 :: if n = 7 then ack else [0x00, 0x00, 0xFF, 0xFF, 0x01]).take n)
  write _ := pure ()
  digitalWrite _ _ := pure ()
  timer := timerOf id fun n _ => n
  log _ := pure ()

theorem trapDevice_tame : trapDevice.Tame id where
  read s _ := ⟨_, s, returns_pure.mpr ⟨rfl, rfl⟩, List.length_take_le _ _, Nat.le_refl _⟩
  write _ _ := comesBack_pure
  digitalWrite _ _ _ := comesBack_pure
  log _ _ := comesBack_pure
  timer :=
    show (timerOf id fun n _ => n).Runs id fun _ : Nat => True from
      timerOf_runs (fun _ _ => rfl) fun _ _ _ => trivial

theorem trapDevice_trapped : Trapped (I2c.pn532 trapDevice zeros) (.filled 0)
    (targetRequest 0x00 1000) 0 := by
  have hready : Returns ((I2c.pn532 trapDevice zeros).waitReady 1000) 0 true 0 := rfl
  have hacknowledged : Acknowledged (I2c.pn532 trapDevice zeros) (.filled 0)
      (targetRequest 0x00 1000) 0
      (overwrite ack ((targetRequest 0x00 1000).buff (.filled 0))) 0 :=
    ⟨rfl, hready, rfl, by decide, rfl, rfl⟩
  have hread : Returns ((I2c.pn532 trapDevice zeros).readData 28) 0
      (0, [0x00, 0x00, 0xFF, 0xFF, 0x01] ++ List.replicate 23 0) 0 := rfl
  have htraps : Traps 21 (overwrite ([0x00, 0x00, 0xFF, 0xFF, 0x01] ++ List.replicate 23 0)
      (List.replicate 262 0)) :=
    ⟨2, 0xFF, 0x01, List.replicate 257 0, rfl, by decide, by decide, Or.inr rfl⟩
  exact ⟨_, 0, 0, 0, _, 0, hacknowledged, hready, hread, htraps⟩

theorem call_comes_back_iff_trap : ¬ ComesBack ((I2c.pn532 trapDevice zeros).call (.filled 0)
    (targetRequest 0x00 1000) (List.replicate 19 0)) 0 := fun hback =>
  (call_comes_back_iff (q := targetRequest 0x00 1000) (i2c_tame trapDevice_tame zeros)
    (show 2 ≤ 253 by omega) (show 19 ≤ 245 by omega) List.length_replicate.ge).mp hback
    trapDevice_trapped

/-! ## Polls -/

variable {stack : TargetStack} {buff : Str} {cardBaud : Byte} {timeout : Nat}

theorem Tame.comesBack_takeTarget (h : Tame pn532) (hbuff : buff.length = 19)
    (hresponse : 7 ≤ response.length) : ComesBack (pn532.takeTarget response buff) s := by
  cases huid : uidOf buff with
  | some uid => exact (takeTarget_of_uid hbuff hresponse huid).comesBack
  | none =>
      rw [takeTarget]
      split_ifs with hone
      · exact h.comesBack_logged _ _ _
      have hlength : buff[5]? = some buff[5] := List.getElem?_eq_getElem (by omega)
      simp only [uidOf, if_pos (not_ne_iff.mp hone), hlength] at huid ⊢
      split_ifs at huid ⊢ with hshort
      · exact h.comesBack_logged _ _ _
      · exact absurd (UInt8.not_le.mp ‹_›) hshort

/-- A poll comes back if its call does. -/
theorem Tame.comesBack_readPassiveTarget_iff (h : Tame pn532) (hresponse : 7 ≤ response.length) :
    ComesBack (pn532.readPassiveTarget stack response cardBaud timeout) s ↔
      ¬ Trapped pn532 stack.toStack (targetRequest cardBaud timeout) s := by
  have hparams : (targetRequest cardBaud timeout).params.length ≤ 253 := show 2 ≤ 253 by omega
  have hlength : (targetRequest cardBaud timeout).responseLength ≤ 245 := show 19 ≤ 245 by omega
  constructor
  · rintro ⟨result, s', hread⟩ htrapped
    obtain ⟨answer, s₁, hcall, -⟩ := returns_bind.mp hread
    exact htrapped.not_comesBack hparams hlength ⟨answer, s₁, hcall⟩
  · intro hnot
    have hcalls := h.comesBack_call hparams hlength stack.targetBuff_length.ge hnot
    refine hcalls.bind fun answer s₁ hcall => ?_
    obtain ⟨n, buff⟩ := answer
    have hbuff : buff.length = 19 := length_of_call hcall stack.targetBuff_length
    dsimp only
    split_ifs
    · exact comesBack_pure
    · exact h.comesBack_takeTarget hbuff hresponse

end Calls

end PN532

end AsyncNFCServer
