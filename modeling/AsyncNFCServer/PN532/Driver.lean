import AsyncNFCServer.PN532.Frame
import AsyncNFCServer.Lib.Returning

/-!
# The PN532 driver

The functions of `pn532.c` work on a table of functions, one table for each bus.
`PN532 σ` is such a table over the state `σ` of everything the bus is connected to,
and nothing is assumed about what it does: the results below hold for a device that
sends what it likes, when it likes.

`PN532_CallFunction` does not look at the result of `PN532_ReadFrame`.  What it tests is
the buffer, and in there a failed read leaves the acknowledgement, which does not
pass for an answer.  So a call succeeds exactly after an exchange whose last part is a
checked frame with the answer's code (`call_succeeds_iff`).  The
bytes that it hands on are not all from that frame: the caller asks for a number of
bytes, and where the frame is shorter it gets what was in the buffer before.
-/

namespace AsyncNFCServer

/-- C code over the state `σ`. -/
abbrev Driver (σ α : Type) := StateT σ (Except PN532.Fault) α

/-- `struct PN532`.  `read_data` stores bytes at the front of its argument, not
necessarily as many as it was asked for. -/
structure PN532 (σ : Type) where
  readData : Nat → Driver σ (Int × Str)
  writeData : Str → Driver σ Int
  waitReady : Nat → Driver σ Bool
  wakeup : Driver σ Unit
  log : Str → Driver σ Unit

namespace PN532

variable {σ : Type}

/-- The conversion to `uint16_t`. -/
def uint16 (n : Nat) : Nat := n % 65536

theorem uint16_of_lt {n : Nat} (h : n < 65536) : uint16 n = n := Nat.mod_eq_of_lt h

/-! ## Buffers -/

/-- A buffer with its front overwritten. -/
def overwrite (bytes buffer : Str) : Str := bytes ++ buffer.drop bytes.length

/-- Copying bytes to the front of a buffer. -/
def store (bytes buffer : Str) : Driver σ Str :=
  if bytes.length ≤ buffer.length then pure (overwrite bytes buffer) else throw .overrun

/-- Copying `count` bytes from the offset on. -/
def load (buffer : Str) (offset count : Nat) : Driver σ Str :=
  if offset + count ≤ buffer.length then pure ((buffer.drop offset).take count)
  else throw .overrun

/-- The arrays on the stack of a call, which nobody has initialized. -/
structure Stack where
  /-- `buff` of `PN532_CallFunction` -/
  buff : Str
  /-- `buff` of `PN532_ReadFrame` -/
  frameBuff : Str
  buff_length : buff.length = 255
  frameBuff_length : frameBuff.length = 262

/-! ## Frames over the bus -/

/-- `PN532_WriteFrame`. -/
def writeFrame (pn532 : PN532 σ) (data : Str) : Driver σ Int :=
  if frameMaxLength < data.length ∨ data.length < 1 then pure (-1)
  else do
    let status ← pn532.writeData (frame data)
    if status ≠ 0 then pure (-1) else pure 0

/-- `PN532_ReadFrame`; its result and the buffer `response`. -/
def readFrame (pn532 : PN532 σ) (stack : Stack) (response : Str) (length : Nat) :
    Driver σ (Int × Str) := do
  let (_, bytes) ← pn532.readData (uint16 (length + 7))
  let buff ← store bytes stack.frameBuff
  match parseFrame length buff with
  | .ok data => do
      let response ← store data response
      pure (data.length, response)
  | .error (.rejected message) => do
      pn532.log message
      pure (-1, response)
  | .error (.fault f) => throw f

/-! ## Calling a function -/

def hostToPN532 : Byte := 0xD4

def pn532ToHost : Byte := 0xD5

/-- `PN532_ACK`. -/
def ack : Str := [0x00, 0x00, 0xFF, 0x00, 0xFF, 0x00]

def wakeupMessage : Str := ascii "Trying to wakeup"

def noAck : Str := ascii "Did not receive expected ACK from PN532!"

def unexpectedResponse : Str := ascii "Received unexpected command response!"

/-- The front of the buffer is the answer to `command`; `command+1` is an `int`. -/
def IsAnswer (command : Byte) (buff : Str) : Prop :=
  buff[0]? = some pn532ToHost ∧ buff[1]?.map UInt8.toNat = some (command.toNat + 1)

instance (command : Byte) (buff : Str) : Decidable (IsAnswer command buff) :=
  inferInstanceAs (Decidable (_ ∧ _))

/-- The end of `PN532_CallFunction`, with what `PN532_ReadFrame` has returned. -/
def takeAnswer (pn532 : PN532 σ) (command : Byte) (response : Str) (responseLength : Nat)
    (frameLen : Int) (buff : Str) : Driver σ (Int × Str) :=
  if IsAnswer command buff then do
    let bytes ← load buff 2 responseLength
    let response ← store bytes response
    pure (frameLen - 2, response)
  else do
    pn532.log unexpectedResponse
    pure (-1, response)

/-- `PN532_CallFunction` from its second `wait_ready` on, with the acknowledgement in
`buff`. -/
def awaitAnswer (pn532 : PN532 σ) (stack : Stack) (buff : Str) (command : Byte) (response : Str)
    (responseLength timeout : Nat) : Driver σ (Int × Str) := do
  let ready ← pn532.waitReady timeout
  if ready then do
    let (frameLen, buff) ← pn532.readFrame stack buff (uint16 (responseLength + 2))
    pn532.takeAnswer command response responseLength frameLen buff
  else pure (-1, response)

/-- `PN532_CallFunction` from its first `wait_ready` on. -/
def awaitAck (pn532 : PN532 σ) (stack : Stack) (buff : Str) (command : Byte) (response : Str)
    (responseLength timeout : Nat) : Driver σ (Int × Str) := do
  let ready ← pn532.waitReady timeout
  if ready then do
    let (_, bytes) ← pn532.readData ack.length
    let buff ← store bytes buff
    if buff.take ack.length ≠ ack then do
      pn532.log noAck
      pure (-1, response)
    else pn532.awaitAnswer stack buff command response responseLength timeout
  else pure (-1, response)

/-- `PN532_CallFunction`; its result and the buffer `response`. -/
def callFunction (pn532 : PN532 σ) (stack : Stack) (command : Byte) (response : Str)
    (responseLength : Nat) (params : Str) (timeout : Nat) : Driver σ (Int × Str) := do
  let buff ← store (hostToPN532 :: command :: params) stack.buff
  let status ← pn532.writeFrame (buff.take (uint16 (params.length + 2)))
  if status ≠ 0 then do
    pn532.wakeup
    pn532.log wakeupMessage
    pure (-1, response)
  else pn532.awaitAck stack buff command response responseLength timeout

/-! ## What the calls return -/

open Returning

section Buffers

variable {bytes buffer b : Str} {offset count : Nat} {s s' : σ}

theorem length_overwrite (h : bytes.length ≤ buffer.length) :
    (overwrite bytes buffer).length = buffer.length := by
  rw [overwrite, List.length_append, List.length_drop]
  omega

theorem returns_store : Returns (store bytes buffer) s b s' ↔
    bytes.length ≤ buffer.length ∧ b = overwrite bytes buffer ∧ s' = s := by
  rw [store]
  split_ifs with h
  · simp [h]
  · simp [h]

theorem returns_load : Returns (load buffer offset count) s b s' ↔
    offset + count ≤ buffer.length ∧ b = (buffer.drop offset).take count ∧ s' = s := by
  rw [load]
  split_ifs with h
  · simp [h]
  · simp [h]

end Buffers

section Frames

variable {pn532 : PN532 σ} {stack : Stack} {s s' : σ} {n : Int}

/-- A frame counts as written if `write_data` says so. -/
theorem returns_writeFrame_zero_iff {data : Str} :
    Returns (pn532.writeFrame data) s 0 s' ↔
      (1 ≤ data.length ∧ data.length ≤ 255) ∧ Returns (pn532.writeData (frame data)) s 0 s' := by
  rw [writeFrame]
  split_ifs with hsize
  · simp only [frameMaxLength] at hsize
    simp only [returns_pure, zero_eq_neg, one_ne_zero, false_and, false_iff]
    omega
  · simp only [frameMaxLength] at hsize
    rw [returns_bind]
    constructor
    · rintro ⟨status, s₁, hwrite, hstatus⟩
      split_ifs at hstatus with hzero
      · simp at hstatus
      · obtain ⟨-, rfl⟩ := returns_pure.mp hstatus
        rw [not_ne_iff.mp hzero] at hwrite
        exact ⟨by omega, hwrite⟩
    · rintro ⟨-, hwrite⟩
      exact ⟨0, s', hwrite, by simp⟩

theorem returns_failed {response r : Str}
    (h : Returns (pure (-1, response) : Driver σ (Int × Str)) s (n, r) s') :
    n = -1 ∧ r = response :=
  Prod.mk.inj (returns_pure.mp h).1

/-- Where a function gives up with a message it returns -1, whatever becomes of the
message. -/
theorem returns_logged {message response r : Str}
    (h : Returns (do
      pn532.log message
      pure (-1, response)) s (n, r) s') : n = -1 ∧ r = response := by
  obtain ⟨-, s₁, -, h⟩ := returns_bind.mp h
  exact returns_failed h

/-- A read gives a frame or leaves the buffer as it is. -/
theorem returns_readFrame {response r : Str} {length : Nat}
    (h : Returns (pn532.readFrame stack response length) s (n, r) s') :
    (∃ status bytes data, Returns (pn532.readData (uint16 (length + 7))) s (status, bytes) s' ∧
        bytes.length ≤ 262 ∧ parseFrame length (overwrite bytes stack.frameBuff) = .ok data ∧
        n = data.length ∧ data.length ≤ response.length ∧ r = overwrite data response) ∨
      n = -1 ∧ r = response := by
  rw [readFrame, returns_bind] at h
  obtain ⟨⟨status, bytes⟩, s₁, hread, h⟩ := h
  rw [returns_bind] at h
  obtain ⟨buff, s₂, hstore, h⟩ := h
  obtain ⟨hfits, rfl, rfl⟩ := returns_store.mp hstore
  rw [stack.frameBuff_length] at hfits
  split at h
  · rename_i data hparse
    rw [returns_bind] at h
    obtain ⟨response', s₃, hstore', h⟩ := h
    obtain ⟨hfits', rfl, rfl⟩ := returns_store.mp hstore'
    obtain ⟨hresult, rfl⟩ := returns_pure.mp h
    obtain ⟨rfl, rfl⟩ := Prod.mk.inj hresult
    exact Or.inl ⟨status, bytes, data, hread, hfits, hparse, rfl, hfits', rfl⟩
  · exact Or.inr (returns_logged h)
  · exact absurd h not_returns_throw

/-- A frame that is read in is stored. -/
theorem readFrame_of_parsed {response bytes data : Str} {length : Nat} {status : Int}
    (hread : Returns (pn532.readData (uint16 (length + 7))) s (status, bytes) s')
    (hfits : bytes.length ≤ 262)
    (hparse : parseFrame length (overwrite bytes stack.frameBuff) = .ok data)
    (hdata : data.length ≤ response.length) :
    Returns (pn532.readFrame stack response length) s
      (data.length, overwrite data response) s' := by
  refine hread.bind_iff.mpr ?_
  have hstore : Returns (store bytes stack.frameBuff) s' (overwrite bytes stack.frameBuff) s' :=
    returns_store.mpr ⟨stack.frameBuff_length ▸ hfits, rfl, rfl⟩
  refine hstore.bind_iff.mpr ?_
  simp only [hparse]
  have hstore' : Returns (store data response) s' (overwrite data response) s' :=
    returns_store.mpr ⟨hdata, rfl, rfl⟩
  exact hstore'.bind_iff.mpr (returns_pure.mpr ⟨rfl, rfl⟩)

/-- **What a read brings back.**  Whatever `read_data` does, the read succeeds exactly if a
frame starts near the front of the array that has been read into; its data go to the
front of `response`. -/
theorem readFrame_succeeds_iff {response r : Str} {length : Nat} (hlength : length ≤ 247) :
    Returns (pn532.readFrame stack response length) s (n, r) s' ∧ n ≠ -1 ↔
      ∃ status bytes data, Returns (pn532.readData (length + 7)) s (status, bytes) s' ∧
        bytes.length ≤ 262 ∧ Holds length (overwrite bytes stack.frameBuff) data ∧
        data.length ≤ response.length ∧ n = data.length ∧ r = overwrite data response := by
  have hcount : uint16 (length + 7) = length + 7 := uint16_of_lt (by omega)
  constructor
  · rintro ⟨h, hn⟩
    rcases returns_readFrame h with
      ⟨status, bytes, data, hread, hfits, hparse, rfl, hdata, rfl⟩ | ⟨hfail, -⟩
    · rw [hcount] at hread
      exact ⟨status, bytes, data, hread, hfits, (parseFrame_eq_ok_iff hlength _ _).mp hparse, hdata,
        rfl, rfl⟩
    · exact absurd hfail hn
  · rintro ⟨status, bytes, data, hread, hfits, hholds, hdata, rfl, rfl⟩
    have hparse := (parseFrame_eq_ok_iff hlength _ _).mpr hholds
    exact ⟨readFrame_of_parsed (by rwa [hcount]) hfits hparse hdata, by omega⟩

/-- A bus on which the same bytes are read again and again. -/
def repeatBus (bytes : Str) : PN532 Unit where
  readData _ := pure (0, bytes)
  writeData _ := pure 0
  waitReady _ := pure true
  wakeup := pure ()
  log _ := pure ()

/-- The stack of a call, with equal bytes in its arrays. -/
def Stack.filled (b : Byte) : Stack :=
  ⟨List.replicate 255 b, List.replicate 262 b, List.length_replicate, List.length_replicate⟩

theorem readFrame_succeeds_iff_repeat :
    Returns ((repeatBus (frame [0xD5, 0x03])).readFrame (.filled 0xAA) [0x00, 0x00, 0x00] 2) ()
      (2, [0xD5, 0x03, 0x00]) () ∧ (2 : Int) ≠ -1 :=
  (readFrame_succeeds_iff (by decide)).mpr ⟨0, frame [0xD5, 0x03], [0xD5, 0x03],
    returns_pure.mpr ⟨rfl, rfl⟩, by decide, holds_frame (k := 0) (by decide) (by decide) _,
    by decide, rfl, rfl⟩

end Frames

/-! ## Exchanges -/

/-- What a caller of `PN532_CallFunction` asks for. -/
structure Request where
  command : Byte
  params : Str
  responseLength : Nat
  timeout : Nat

/-- The buffer of `PN532_CallFunction` with the request in it. -/
def Request.buff (q : Request) (stack : Stack) : Str :=
  overwrite (hostToPN532 :: q.command :: q.params) stack.buff

/-- The device takes the request and acknowledges it; `left` is what the buffer holds
then. -/
inductive Acknowledged (pn532 : PN532 σ) (stack : Stack) (q : Request) (s : σ) (left : Str)
    (s' : σ) : Prop
  | mk {s₁ s₂ : σ} {status : Int} {bytes : Str}
      (written : Returns (pn532.writeData (frame (hostToPN532 :: q.command :: q.params))) s 0 s₁)
      (ready : Returns (pn532.waitReady q.timeout) s₁ true s₂)
      (read : Returns (pn532.readData ack.length) s₂ (status, bytes) s')
      (bytes_length : bytes.length ≤ 255)
      (left_eq : left = overwrite bytes (q.buff stack))
      (isAck : left.take ack.length = ack)

/-- The device sends a frame of `payload` under the answer's code. -/
inductive Answered (pn532 : PN532 σ) (stack : Stack) (q : Request) (s : σ) (payload : Str)
    (s' : σ) : Prop
  | mk {s₁ : σ} {status : Int} {bytes : Str} {code : Byte}
      (ready : Returns (pn532.waitReady q.timeout) s true s₁)
      (read : Returns (pn532.readData (uint16 (uint16 (q.responseLength + 2) + 7))) s₁
        (status, bytes) s')
      (bytes_length : bytes.length ≤ 262)
      (checked : parseFrame (uint16 (q.responseLength + 2)) (overwrite bytes stack.frameBuff) =
        .ok (pn532ToHost :: code :: payload))
      (payload_length : payload.length ≤ 253)
      (code_eq : code.toNat = q.command.toNat + 1)

/-- A request that is acknowledged and answered. -/
def Exchange (pn532 : PN532 σ) (stack : Stack) (q : Request) (s : σ) (payload left : Str)
    (s' : σ) : Prop :=
  ∃ s₁, Acknowledged pn532 stack q s left s₁ ∧ Answered pn532 stack q s₁ payload s'

/-- The bytes that a call hands on: those of the payload, and then what the buffer held
behind them. -/
def handedOn (q : Request) (payload left : Str) : Str :=
  (payload ++ left.drop (payload.length + 2)).take q.responseLength

/-- `PN532_CallFunction` with the request `q`. -/
def call (pn532 : PN532 σ) (stack : Stack) (q : Request) (response : Str) :
    Driver σ (Int × Str) :=
  pn532.callFunction stack q.command response q.responseLength q.params q.timeout

section Call

variable {pn532 : PN532 σ} {stack : Stack} {q : Request} {s s' : σ} {response r : Str} {n : Int}

/-- A frame of fewer than two bytes does not pass for an answer: the acknowledgement is
in the buffer behind it. -/
theorem exists_payload_of_isAnswer {command : Byte} {data left : Str} (hleft : left.take 6 = ack)
    (h : IsAnswer command (overwrite data left)) :
    ∃ code payload, data = pn532ToHost :: code :: payload ∧ code.toNat = command.toNat + 1 := by
  obtain ⟨rest, rfl⟩ : ∃ rest, left = ack ++ rest := ⟨left.drop 6, by
    rw [← hleft, List.take_append_drop]⟩
  obtain ⟨hhead, hcode⟩ := h
  match data with
  | [] => exact absurd hhead (by simp [overwrite, ack, pn532ToHost])
  | [b] => simp [overwrite, ack] at hcode
  | b :: code :: payload =>
      simp only [overwrite, List.cons_append, List.getElem?_cons_zero, Option.some.injEq] at hhead
      simp only [overwrite, List.cons_append, List.getElem?_cons_succ, List.getElem?_cons_zero,
        Option.map_some, Option.some.injEq] at hcode
      exact ⟨code, payload, by rw [hhead], hcode⟩

theorem not_isAnswer_of_ack {command : Byte} {left : Str} (hleft : left.take 6 = ack) :
    ¬ IsAnswer command left := by
  intro h
  have hnil : overwrite [] left = left := rfl
  rw [← hnil] at h
  obtain ⟨code, payload, hdata, -⟩ := exists_payload_of_isAnswer hleft h
  exact nomatch hdata

theorem handedOn_eq {left payload : Str} {code : Byte} :
    ((overwrite (pn532ToHost :: code :: payload) left).drop 2).take q.responseLength =
      handedOn q payload left := by
  simp [overwrite, handedOn]

theorem returns_takeAnswer {command : Byte} {responseLength : Nat} {frameLen : Int} {buff : Str}
    (h : Returns (pn532.takeAnswer command response responseLength frameLen buff) s (n, r) s') :
    (IsAnswer command buff ∧ 2 + responseLength ≤ buff.length ∧
        ((buff.drop 2).take responseLength).length ≤ response.length ∧ n = frameLen - 2 ∧
        r = overwrite ((buff.drop 2).take responseLength) response ∧ s' = s) ∨
      ¬ IsAnswer command buff ∧ n = -1 ∧ r = response := by
  rw [takeAnswer] at h
  split_ifs at h with hanswer
  · rw [returns_bind] at h
    obtain ⟨bytes, s₁, hload, h⟩ := h
    obtain ⟨hinside, rfl, rfl⟩ := returns_load.mp hload
    rw [returns_bind] at h
    obtain ⟨response', s₂, hstore, h⟩ := h
    obtain ⟨hfits, rfl, rfl⟩ := returns_store.mp hstore
    obtain ⟨hresult, rfl⟩ := returns_pure.mp h
    obtain ⟨rfl, rfl⟩ := Prod.mk.inj hresult
    exact Or.inl ⟨hanswer, hinside, hfits, rfl, rfl, rfl⟩
  · exact Or.inr ⟨hanswer, returns_logged h⟩

theorem takeAnswer_of_isAnswer {command : Byte} {responseLength : Nat} {frameLen : Int} {buff : Str}
    (hanswer : IsAnswer command buff) (hinside : 2 + responseLength ≤ buff.length)
    (hfits : ((buff.drop 2).take responseLength).length ≤ response.length) :
    Returns (pn532.takeAnswer command response responseLength frameLen buff) s
      (frameLen - 2, overwrite ((buff.drop 2).take responseLength) response) s := by
  have hload : Returns (load buff 2 responseLength) s ((buff.drop 2).take responseLength) s :=
    returns_load.mpr ⟨hinside, rfl, rfl⟩
  have hstore : Returns (store ((buff.drop 2).take responseLength) response) s
      (overwrite ((buff.drop 2).take responseLength) response) s :=
    returns_store.mpr ⟨hfits, rfl, rfl⟩
  rw [takeAnswer, if_pos hanswer]
  exact hload.bind_iff.mpr (hstore.bind_iff.mpr (returns_pure.mpr ⟨rfl, rfl⟩))

theorem take_buff (hparams : q.params.length ≤ 253) :
    (q.buff stack).take (uint16 (q.params.length + 2)) = hostToPN532 :: q.command :: q.params := by
  rw [uint16_of_lt (by omega)]
  exact List.take_left' rfl

theorem length_buff (hparams : q.params.length ≤ 253) : (q.buff stack).length = 255 := by
  refine (length_overwrite ?_).trans stack.buff_length
  rw [stack.buff_length]
  exact Nat.add_le_add_right hparams 2

theorem Acknowledged.length_left {left : Str} (h : Acknowledged pn532 stack q s left s')
    (hparams : q.params.length ≤ 253) : left.length = 255 := by
  obtain ⟨-, -, -, hfits, rfl, -⟩ := h
  have hbuff : (q.buff stack).length = 255 := length_buff hparams
  rw [← hbuff] at hfits
  exact (length_overwrite hfits).trans hbuff

/-- What comes after an acknowledgement: an answer, or -1. -/
theorem returns_awaitAnswer {left : Str} (hack : left.take ack.length = ack)
    (hleft : left.length = 255)
    (h : Returns (pn532.awaitAnswer stack left q.command response q.responseLength q.timeout) s
      (n, r) s') :
    (n = -1 ∧ r = response) ∨
      ∃ payload, Answered pn532 stack q s payload s' ∧ q.responseLength ≤ 253 ∧
        (handedOn q payload left).length ≤ response.length ∧ n = payload.length ∧
        r = overwrite (handedOn q payload left) response := by
  rw [awaitAnswer, returns_bind] at h
  obtain ⟨ready, s₁, hready, h⟩ := h
  split_ifs at h with hok
  · subst hok
    rw [returns_bind] at h
    obtain ⟨⟨frameLen, buff⟩, s₂, hread, h⟩ := h
    rcases returns_readFrame hread with
      ⟨status, bytes, data, hanswered, hbytes, hparse, rfl, hdata, rfl⟩ | ⟨-, rfl⟩
    · rcases returns_takeAnswer h with ⟨hanswer, hinside, hresponse, rfl, rfl, rfl⟩ | ⟨-, hfail⟩
      · obtain ⟨code, payload, rfl, hcode⟩ := exists_payload_of_isAnswer hack hanswer
        rw [handedOn_eq] at hresponse ⊢
        rw [length_overwrite hdata, hleft] at hinside
        rw [hleft, List.length_cons, List.length_cons] at hdata
        refine Or.inr ⟨payload, ⟨hready, hanswered, hbytes, hparse, by omega, hcode⟩, by omega,
          hresponse, ?_, rfl⟩
        simp only [List.length_cons]
        omega
      · exact Or.inl hfail
    · -- a failed read leaves the acknowledgement in the buffer
      rcases returns_takeAnswer h with ⟨hanswer, -⟩ | ⟨-, hfail⟩
      · exact absurd hanswer (not_isAnswer_of_ack hack)
      · exact Or.inl hfail
  · exact Or.inl (returns_failed h)

/-- What comes of a request that has been written: an acknowledgement, or -1. -/
theorem returns_awaitAck {s₀ : σ}
    (hwritten : Returns (pn532.writeData (frame (hostToPN532 :: q.command :: q.params))) s₀ 0 s)
    (hparams : q.params.length ≤ 253)
    (h : Returns (pn532.awaitAck stack (q.buff stack) q.command response q.responseLength q.timeout)
      s (n, r) s') :
    (n = -1 ∧ r = response) ∨
      ∃ left s₁, Acknowledged pn532 stack q s₀ left s₁ ∧
        Returns (pn532.awaitAnswer stack left q.command response q.responseLength q.timeout) s₁
          (n, r) s' := by
  rw [awaitAck, returns_bind] at h
  obtain ⟨ready, s₁, hready, h⟩ := h
  split_ifs at h with hok
  · subst hok
    rw [returns_bind] at h
    obtain ⟨⟨status, bytes⟩, s₂, hread, h⟩ := h
    rw [returns_bind] at h
    obtain ⟨left, s₃, hstore, h⟩ := h
    obtain ⟨hfits, rfl, rfl⟩ := returns_store.mp hstore
    rw [length_buff hparams] at hfits
    split_ifs at h with hack
    · exact Or.inl (returns_logged h)
    · exact Or.inr ⟨_, _, ⟨hwritten, hready, hread, hfits, rfl, not_ne_iff.mp hack⟩, h⟩
  · exact Or.inl (returns_failed h)

/-- A call fails with -1 and leaves the response as it is, or there has been an
exchange, and it returns the length of the payload. -/
theorem call_cases (h : Returns (pn532.call stack q response) s (n, r) s') :
    (n = -1 ∧ r = response) ∨
      ∃ payload left, Exchange pn532 stack q s payload left s' ∧ left.length = 255 ∧
        q.responseLength ≤ 253 ∧ (handedOn q payload left).length ≤ response.length ∧
        n = payload.length ∧ r = overwrite (handedOn q payload left) response := by
  rw [call, callFunction, returns_bind] at h
  obtain ⟨buff, s₀, hstore, h⟩ := h
  obtain ⟨hparams, hbuff, rfl⟩ := returns_store.mp hstore
  rw [stack.buff_length, List.length_cons, List.length_cons] at hparams
  obtain rfl : buff = q.buff stack := hbuff
  rw [take_buff (by omega), returns_bind] at h
  obtain ⟨status, s₁, hwrite, h⟩ := h
  split_ifs at h with hstatus
  · rw [returns_bind] at h
    obtain ⟨-, s₂, -, h⟩ := h
    exact Or.inl (returns_logged h)
  · rw [not_ne_iff.mp hstatus] at hwrite
    rcases returns_awaitAck (returns_writeFrame_zero_iff.mp hwrite).2 (by omega) h with
      hfail | ⟨left, s₂, hacknowledged, h⟩
    · exact Or.inl hfail
    · have hleft := hacknowledged.length_left (by omega)
      obtain ⟨-, -, -, -, -, hack⟩ := id hacknowledged
      rcases returns_awaitAnswer hack hleft h with hfail | ⟨payload, hanswered, hresult⟩
      · exact Or.inl hfail
      · exact Or.inr ⟨payload, left, ⟨s₂, hacknowledged, hanswered⟩, hleft, hresult⟩

/-- An acknowledged call goes on with the answer. -/
theorem Acknowledged.run_call {left : Str} {s₁ : σ} (h : Acknowledged pn532 stack q s left s₁)
    (hparams : q.params.length ≤ 253) :
    (pn532.call stack q response).run s =
      (pn532.awaitAnswer stack left q.command response q.responseLength q.timeout).run s₁ := by
  cases h with
  | @mk s₂ s₃ status bytes hwritten hready hread hbytes hleft hack =>
  subst hleft
  have hrequest : Returns (store (hostToPN532 :: q.command :: q.params) stack.buff) s
      (q.buff stack) s := returns_store.mpr ⟨by
        rw [stack.buff_length, List.length_cons, List.length_cons]
        omega, rfl, rfl⟩
  have hwrite := returns_writeFrame_zero_iff.mpr ⟨⟨by simp, by
    rw [List.length_cons, List.length_cons]
    omega⟩, hwritten⟩
  have hstore : Returns (store bytes (q.buff stack)) s₁ (overwrite bytes (q.buff stack)) s₁ :=
    returns_store.mpr ⟨by rwa [length_buff hparams], rfl, rfl⟩
  rw [call, callFunction, hrequest.run_bind, take_buff hparams, hwrite.run_bind,
    if_neg (by simp), awaitAck, hready.run_bind, if_pos rfl, hread.run_bind]
  dsimp only
  rw [hstore.run_bind, if_neg (not_ne_iff.mpr hack)]

theorem Acknowledged.call_iff {left : Str} {result : Int × Str} {s₁ : σ}
    (h : Acknowledged pn532 stack q s left s₁) (hparams : q.params.length ≤ 253) :
    Returns (pn532.call stack q response) s result s' ↔
      Returns (pn532.awaitAnswer stack left q.command response q.responseLength q.timeout) s₁
        result s' := by
  rw [Returns, h.run_call hparams, Returns]

/-- An answer makes the call return its payload. -/
theorem Answered.returns {payload left : Str} (h : Answered pn532 stack q s payload s')
    (hleft : left.length = 255) (hlength : q.responseLength ≤ 253)
    (hresponse : (handedOn q payload left).length ≤ response.length) :
    Returns (pn532.awaitAnswer stack left q.command response q.responseLength q.timeout) s
      (payload.length, overwrite (handedOn q payload left) response) s' := by
  cases h with
  | @mk s₁ status bytes code hready hread hbytes hparse hpayload hcode =>
  have hdata : (pn532ToHost :: code :: payload).length ≤ left.length := by
    rw [hleft, List.length_cons, List.length_cons]
    omega
  have hanswer : IsAnswer q.command (overwrite (pn532ToHost :: code :: payload) left) :=
    ⟨rfl, by simpa [overwrite] using hcode⟩
  have htake : Returns (pn532.takeAnswer q.command response q.responseLength
      (pn532ToHost :: code :: payload).length (overwrite (pn532ToHost :: code :: payload) left))
      s' _ s' :=
    takeAnswer_of_isAnswer hanswer (by rw [length_overwrite hdata, hleft]; omega)
      (by rwa [handedOn_eq])
  have hresult : ((pn532ToHost :: code :: payload).length : Int) - 2 = payload.length := by
    simp only [List.length_cons]
    omega
  rw [handedOn_eq, hresult] at htake
  rw [awaitAnswer]
  refine hready.bind_iff.mpr ?_
  rw [if_pos rfl]
  exact (readFrame_of_parsed hread hbytes hparse hdata).bind_iff.mpr htake

/-- An exchange makes the call return its payload. -/
theorem Exchange.returns {payload left : Str} (h : Exchange pn532 stack q s payload left s')
    (hparams : q.params.length ≤ 253) (hlength : q.responseLength ≤ 253)
    (hresponse : q.responseLength ≤ response.length) :
    Returns (pn532.call stack q response) s
      (payload.length, overwrite (handedOn q payload left) response) s' := by
  obtain ⟨s₁, hacknowledged, hanswered⟩ := h
  have hfits : (handedOn q payload left).length ≤ response.length :=
    (List.length_take_le _ _).trans hresponse
  exact (hacknowledged.call_iff hparams).mpr
    (hanswered.returns (hacknowledged.length_left hparams) hlength hfits)

/-- **A call succeeds exactly after an exchange**, whatever the device does otherwise. -/
theorem call_succeeds_iff (hparams : q.params.length ≤ 253) (hlength : q.responseLength ≤ 253)
    (hresponse : q.responseLength ≤ response.length) :
    Returns (pn532.call stack q response) s (n, r) s' ∧ n ≠ -1 ↔
      ∃ payload left, Exchange pn532 stack q s payload left s' ∧ n = payload.length ∧
        r = overwrite (handedOn q payload left) response := by
  constructor
  · rintro ⟨h, hn⟩
    rcases call_cases h with ⟨hfail, -⟩ | ⟨payload, left, hexchange, -, -, -, hresult⟩
    · exact absurd hfail hn
    · exact ⟨payload, left, hexchange, hresult⟩
  · rintro ⟨payload, left, hexchange, rfl, rfl⟩
    exact ⟨hexchange.returns hparams hlength hresponse, by omega⟩

/-- A bus that nothing is connected to. -/
def openBus : PN532 Unit where
  readData _ := pure (0, [])
  writeData _ := pure (-1)
  waitReady _ := pure false
  wakeup := pure ()
  log _ := pure ()

theorem call_openBus {s : Unit} (hparams : q.params.length ≤ 253) :
    Returns (openBus.call stack q response) s (-1, response) s := by
  have hstore : Returns (store (hostToPN532 :: q.command :: q.params) stack.buff) s _ s :=
    returns_store.mpr ⟨by
      rw [stack.buff_length, List.length_cons, List.length_cons]
      omega, rfl, rfl⟩
  have hwrite : ∀ data, Returns (openBus.writeFrame data) s (-1) s := by
    intro data
    rw [writeFrame]
    split_ifs
    · exact returns_pure.mpr ⟨rfl, rfl⟩
    · have hwrites : Returns (openBus.writeData (frame data)) s (-1) s :=
        returns_pure.mpr ⟨rfl, rfl⟩
      exact hwrites.bind_iff.mpr (returns_pure.mpr ⟨rfl, rfl⟩)
  exact hstore.bind_iff.mpr ((hwrite _).bind_iff.mpr (returns_pure.mpr ⟨rfl, rfl⟩))

/-! ## Devices that answer in full -/

/-- The device takes the request and acknowledges it with an acknowledgement. -/
inductive Acks (pn532 : PN532 σ) (q : Request) (s s' : σ) : Prop
  | mk {s₁ s₂ : σ} {status : Int}
      (written : Returns (pn532.writeData (frame (hostToPN532 :: q.command :: q.params))) s 0 s₁)
      (ready : Returns (pn532.waitReady q.timeout) s₁ true s₂)
      (read : Returns (pn532.readData ack.length) s₂ (status, ack) s')

theorem Acks.acknowledged (h : Acks pn532 q s s') (stack : Stack) :
    Acknowledged pn532 stack q s (ack ++ (q.buff stack).drop 6) s' := by
  obtain ⟨hwritten, hready, hread⟩ := h
  exact ⟨hwritten, hready, hread, by decide, rfl, rfl⟩

/-- After the acknowledgement the device answers with a whole frame. -/
inductive Answers (pn532 : PN532 σ) (q : Request) (s : σ) (payload : Str) (s' : σ) : Prop
  | mk {s₁ s₂ : σ} {status : Int} {rest : Str} (acks : Acks pn532 q s s₁)
      (ready : Returns (pn532.waitReady q.timeout) s₁ true s₂)
      (read : Returns (pn532.readData (q.responseLength + 9)) s₂
        (status, frame (pn532ToHost :: (q.command + 1) :: payload) ++ rest) s')
      (fits : payload.length + rest.length ≤ 253)

theorem length_frame_cons_cons (direction code : Byte) (payload : Str) :
    (frame (direction :: code :: payload)).length = payload.length + 9 := by
  rw [length_frame, List.length_cons, List.length_cons]

/-- What a full answer leaves in the buffer behind it is from before the call. -/
theorem Answers.exchange {payload : Str} (h : Answers pn532 q s payload s')
    (hcommand : q.command ≠ 0xFF) (hlength : q.responseLength ≤ 245)
    (hpayload : payload.length ≤ 252)
    (stack : Stack) :
    Exchange pn532 stack q s payload (ack ++ (q.buff stack).drop 6) s' := by
  cases h with
  | @mk s₁ s₂ status rest hacks hready hread hfits =>
  have hcode : (q.command + 1).toNat = q.command.toNat + 1 := by
    have hlt := q.command.toNat_lt
    have hne : q.command.toNat ≠ 255 := fun h => hcommand (UInt8.toNat_inj.mp h)
    rw [UInt8.toNat_add]
    exact Nat.mod_eq_of_lt (show q.command.toNat + 1 < 256 by omega)
  have hcount : uint16 (uint16 (q.responseLength + 2) + 7) = q.responseLength + 9 := by
    rw [uint16_of_lt (show q.responseLength + 2 < 65536 by omega), uint16_of_lt (by omega)]
  refine ⟨s₁, hacks.acknowledged stack, hready, hcount ▸ hread, ?_, ?_, by omega, hcode⟩
  · rw [List.length_append, length_frame_cons_cons]
    omega
  · rw [uint16_of_lt (by omega), overwrite, List.append_assoc]
    exact (parseFrame_eq_ok_iff (by omega) _ _).mpr (holds_frame (k := 0) (by
      rw [List.length_cons, List.length_cons]
      omega) (by omega) _)

end Call

end PN532

end AsyncNFCServer
