import AsyncNFCServer.PN532.Target
import AsyncNFCServer.PN532.Simulated

/-!
# Reading and writing cards

The functions for the blocks of a card send its commands through `InDataExchange`.  None
of them looks at the result of `PN532_CallFunction`; they take the status from the buffer
for the answer.  The authentication sets its buffer to 0xFF, and so it
reports success exactly after an answer that begins with 0 (`authenticates_iff`).  The
buffers of the others are not initialized, and what they report of a call that has
failed is what was on the stack (`readBlock_succeeds_iff`, `writeBlock_succeeds_iff`).

Over a bus to a chip with a card the functions are the memory of the card: what is read
is what was written last under a number with the same low byte (`blocks_refine`).
-/

namespace AsyncNFCServer

namespace PN532

open Returning

variable {σ γ : Type}

def commandInDataExchange : Byte := 0x40

def mifareCmdRead : Byte := 0x30

def mifareCmdWrite : Byte := 0xA0

def mifareUltralightCmdWrite : Byte := 0xA2

def mifareBlockLength : Nat := 16

def mifareKeyLength : Nat := 6

def mifareUidMaxLength : Nat := 10

def ntag2xxBlockLength : Nat := 4

/-! ## The functions -/

/-- The arrays on the stack of a function with an array of `n` bytes of its own. -/
structure ArrayStack (n : Nat) extends Stack where
  array : Str
  array_length : array.length = n

/-- The byte of a buffer at an index. -/
def byteAt (buffer : Str) (i : Nat) : Driver σ Byte :=
  match buffer[i]? with
  | none => throw .overrun
  | some b => pure b

/-- `PN532_MifareClassicAuthenticateBlock`; its own array is `params`. -/
def mifareClassicAuthenticateBlock (pn532 : PN532 σ)
    (stack : ArrayStack (3 + mifareUidMaxLength + mifareKeyLength)) (uid : Str) (uidLength : Byte)
    (blockNumber keyNumber : UInt16) (key : Str) : Driver σ Byte := do
  let key ← load key 0 mifareKeyLength
  let uid ← load uid 0 uidLength.toNat
  let params ← store ([0x01, keyNumber.toUInt8, blockNumber.toUInt8] ++ key ++ uid) stack.array
  let (_, response) ← pn532.callFunction stack.toStack commandInDataExchange [0xFF] 1
    (params.take (3 + mifareKeyLength + uidLength.toNat)) defaultTimeout
  byteAt response 0

/-- How a kind of card is written, and how many bytes of a block are for the caller. -/
structure BlockFormat where
  writeCommand : Byte
  length : Nat
  length_le : length ≤ mifareBlockLength

def mifareClassic : BlockFormat := ⟨mifareCmdWrite, mifareBlockLength, Nat.le_refl _⟩

def ntag2xx : BlockFormat := ⟨mifareUltralightCmdWrite, ntag2xxBlockLength, by decide⟩

variable (format : BlockFormat) (pn532 : PN532 σ)

/-- The end of a function that reads a block, with an answer in `buff`. -/
def takeBlock (response buff : Str) : Driver σ (Byte × Str) := do
  let status ← byteAt buff 0
  if status ≠ 0 then pure (status, response)
  else do
    let data ← load buff 1 format.length
    let response ← store data response
    pure (status, response)

/-- The functions that read a block; their own array is `buff`. -/
def readBlock (stack : ArrayStack (mifareBlockLength + 1)) (response : Str)
    (blockNumber : UInt16) : Driver σ (Byte × Str) := do
  let (_, buff) ← pn532.callFunction stack.toStack commandInDataExchange stack.array
    (mifareBlockLength + 1) [0x01, mifareCmdRead, blockNumber.toUInt8] defaultTimeout
  takeBlock format response buff

/-- The functions that write a block; their own array is `response`. -/
def writeBlock (stack : ArrayStack 1) (data : Str) (blockNumber : UInt16) : Driver σ Byte := do
  let data ← load data 0 format.length
  let (_, response) ← pn532.callFunction stack.toStack commandInDataExchange stack.array 1
    ([0x01, format.writeCommand, blockNumber.toUInt8] ++ data) defaultTimeout
  byteAt response 0

/-- `PN532_MifareClassicReadBlock`. -/
def mifareClassicReadBlock : ArrayStack (mifareBlockLength + 1) → Str → UInt16 →
    Driver σ (Byte × Str) := readBlock mifareClassic pn532

/-- `PN532_MifareClassicWriteBlock`. -/
def mifareClassicWriteBlock : ArrayStack 1 → Str → UInt16 → Driver σ Byte :=
  writeBlock mifareClassic pn532

/-- `PN532_Ntag2xxReadBlock`. -/
def ntag2xxReadBlock : ArrayStack (mifareBlockLength + 1) → Str → UInt16 →
    Driver σ (Byte × Str) := readBlock ntag2xx pn532

/-- `PN532_Ntag2xxWriteBlock`. -/
def ntag2xxWriteBlock : ArrayStack 1 → Str → UInt16 → Driver σ Byte := writeBlock ntag2xx pn532

/-! ## The requests -/

def authenticateRequest (uid : Str) (uidLength : Byte) (blockNumber keyNumber : UInt16)
    (key : Str) : Request where
  command := commandInDataExchange
  params := [0x01, keyNumber.toUInt8, blockNumber.toUInt8] ++ key.take mifareKeyLength ++
    uid.take uidLength.toNat
  responseLength := 1
  timeout := defaultTimeout

def readRequest (blockNumber : UInt16) : Request :=
  ⟨commandInDataExchange, [0x01, mifareCmdRead, blockNumber.toUInt8], mifareBlockLength + 1,
    defaultTimeout⟩

def writeRequest (data : Str) (blockNumber : UInt16) : Request :=
  ⟨commandInDataExchange, [0x01, format.writeCommand, blockNumber.toUInt8] ++
    data.take format.length, 1, defaultTimeout⟩

variable {format pn532}

/-! ## Buses -/

/-- A chip with a card that lies on it. -/
def cardChip (format : BlockFormat) : Chip (Byte → Str) where
  respond memory command params :=
    match params with
    | target :: cardCommand :: b :: data =>
        if command ≠ commandInDataExchange ∨ target ≠ 0x01 then (memory, none)
        else if cardCommand = mifareCmdRead then
          (memory, some (0x00 :: padTo format.length (memory b)))
        else if cardCommand = format.writeCommand then
          (Function.update memory b data, some [0x00])
        else (memory, some [0x01])
    | _ => (memory, none)

/-- The bus to a MIFARE Classic card. -/
def classicBus : PN532 (Sim (Byte → Str)) :=
  I2c.pn532 (I2c.simulated (cardChip mifareClassic)) fun n => List.replicate n 0

/-- The stack of a function with an array of `n` bytes, all of them `b`. -/
def filled (n : Nat) (b : Byte) : ArrayStack n :=
  ⟨.filled b, List.replicate n b, List.length_replicate⟩

/-! ## Calls for a status -/

section Status

variable {stack : Stack} {q : Request} {s s' : σ} {buffer array r : Str} {b status : Byte} {i : Nat}

theorem returns_byteAt : Returns (byteAt buffer i) s b s' ↔ buffer[i]? = some b ∧ s' = s := by
  rw [byteAt]
  cases hbyte : buffer[i]? with
  | none => simp
  | some c => simp [eq_comm]

theorem Exchange.left_take {payload left : Str} (h : Exchange pn532 stack q s payload left s') :
    left.take 6 = ack := by
  obtain ⟨s₁, ⟨-, -, -, -, -, hack⟩, -⟩ := h
  exact hack

/-- A buffer that the call fills completely. -/
theorem overwrite_handedOn {payload left : Str} (hleft : left.length = 255)
    (hlength : q.responseLength ≤ 253) (harray : array.length = q.responseLength) :
    overwrite (handedOn q payload left) array = handedOn q payload left := by
  rw [overwrite, length_handedOn hleft hlength, ← harray, List.drop_length, List.append_nil]

theorem length_of_call {n : Int} (h : Returns (pn532.call stack q array) s (n, r) s')
    (harray : array.length = q.responseLength) : r.length = q.responseLength := by
  rcases call_cases h with ⟨-, rfl⟩ | ⟨payload, left, -, -, -, hfits, -, rfl⟩
  · exact harray
  · exact (length_overwrite hfits).trans harray

/-- What is in the buffer after a call whose result nobody looks at. -/
theorem call_array_iff (hparams : q.params.length ≤ 253) (hlength : q.responseLength ≤ 253)
    (harray : array.length = q.responseLength) :
    (∃ n, Returns (pn532.call stack q array) s (n, r) s') ↔
      (Returns (pn532.call stack q array) s (-1, array) s' ∧ r = array) ∨
        ∃ payload left, Exchange pn532 stack q s payload left s' ∧ r = handedOn q payload left := by
  constructor
  · rintro ⟨n, h⟩
    rcases call_cases h with ⟨rfl, rfl⟩ | ⟨payload, left, hexchange, hleft, -, -, -, hr⟩
    · exact Or.inl ⟨h, rfl⟩
    · exact Or.inr ⟨payload, left, hexchange, hr.trans (overwrite_handedOn hleft hlength harray)⟩
  · rintro (⟨h, rfl⟩ | ⟨payload, left, hexchange, rfl⟩)
    · exact ⟨-1, h⟩
    · have hleft : left.length = 255 := by
        obtain ⟨s₁, hacknowledged, -⟩ := hexchange
        exact hacknowledged.length_left hparams
      have hcall := hexchange.returns hparams hlength harray.ge
      rw [overwrite_handedOn hleft hlength harray] at hcall
      exact ⟨payload.length, hcall⟩

/-- An answer without a payload leaves a byte of the acknowledgement for the status. -/
theorem head_handedOn {payload left : Str} (hack : left.take 6 = ack)
    (hlength : 1 ≤ q.responseLength) :
    (handedOn q payload left)[0]? = some (payload.head?.getD 0xFF) := by
  rw [handedOn, List.getElem?_take_of_lt (by omega)]
  cases payload with
  | nil =>
      have hthird : left[2]? = some 0xFF := by
        rw [← List.getElem?_take_of_lt (show 2 < 6 by omega), hack]
        rfl
      rw [List.nil_append, List.getElem?_drop]
      exact hthird
  | cons b payload => rfl

/-- The status is 0 after an answer that begins with 0, or after a failed call if that
is what the array held. -/
theorem status_zero_iff (hparams : q.params.length ≤ 253) (hpos : 1 ≤ q.responseLength)
    (hlength : q.responseLength ≤ 253) (harray : array.length = q.responseLength) :
    ((∃ n, Returns (pn532.call stack q array) s (n, r) s') ∧ r[0]? = some 0) ↔
      (Returns (pn532.call stack q array) s (-1, array) s' ∧ array[0]? = some 0 ∧ r = array) ∨
        ∃ payload left, Exchange pn532 stack q s payload left s' ∧ payload[0]? = some 0 ∧
          r = handedOn q payload left := by
  rw [call_array_iff hparams hlength harray, or_and_right]
  refine or_congr ⟨?_, ?_⟩ ⟨?_, ?_⟩
  · rintro ⟨⟨h, rfl⟩, hzero⟩
    exact ⟨h, hzero, rfl⟩
  · rintro ⟨h, hzero, rfl⟩
    exact ⟨⟨h, rfl⟩, hzero⟩
  · rintro ⟨⟨payload, left, hexchange, rfl⟩, hzero⟩
    refine ⟨payload, left, hexchange, ?_, rfl⟩
    rw [head_handedOn hexchange.left_take hpos] at hzero
    cases payload with
    | nil => exact absurd hzero (by decide)
    | cons b payload => exact hzero
  · rintro ⟨payload, left, hexchange, hzero, rfl⟩
    refine ⟨⟨payload, left, hexchange, rfl⟩, ?_⟩
    rw [head_handedOn hexchange.left_take hpos]
    cases payload with
    | nil => exact absurd hzero (by simp)
    | cons b payload => exact hzero

end Status

/-! ## What the functions report -/

section Report

variable {s s' : σ} {response r data : Str} {b : Byte} {blockNumber keyNumber : UInt16}

theorem take_overwrite (bytes buffer : Str) :
    (overwrite bytes buffer).take bytes.length = bytes := by
  rw [overwrite, List.take_left]

theorem returns_load_front {bytes c : Str} {count : Nat} :
    Returns (load bytes 0 count) s c s' ↔ count ≤ bytes.length ∧ c = bytes.take count ∧ s' = s := by
  rw [returns_load, Nat.zero_add, List.drop_zero]

theorem length_authenticateParams {uid key : Str} {uidLength : Byte}
    (huid : uidLength.toNat ≤ uid.length) (hkey : mifareKeyLength ≤ key.length) :
    (authenticateRequest uid uidLength blockNumber keyNumber key).params.length =
      3 + mifareKeyLength + uidLength.toNat := by
  rw [authenticateRequest, List.length_append, List.length_append, List.length_take,
    List.length_take, Nat.min_eq_left huid, Nat.min_eq_left hkey]
  rfl

theorem returns_status_iff (stack : Stack) (q : Request) (array : Str) :
    Returns (do
        let (_, response) ← pn532.call stack q array
        byteAt response 0) s b s' ↔
      ∃ r, (∃ n, Returns (pn532.call stack q array) s (n, r) s') ∧ r[0]? = some b := by
  rw [returns_bind]
  constructor
  · rintro ⟨⟨n, r⟩, s₁, hcall, hbyte⟩
    obtain ⟨hb, rfl⟩ := returns_byteAt.mp hbyte
    exact ⟨r, ⟨n, hcall⟩, hb⟩
  · rintro ⟨r, ⟨n, hcall⟩, hb⟩
    exact ⟨(n, r), s', hcall, returns_byteAt.mpr ⟨hb, rfl⟩⟩

/-- The authentication returns the first byte that its call leaves. -/
theorem returns_authenticate {stack : ArrayStack (3 + mifareUidMaxLength + mifareKeyLength)}
    {uid key : Str} {uidLength : Byte} (huid : uidLength.toNat ≤ uid.length)
    (hmax : uidLength.toNat ≤ mifareUidMaxLength) (hkey : mifareKeyLength ≤ key.length) :
    Returns (pn532.mifareClassicAuthenticateBlock stack uid uidLength blockNumber keyNumber key) s b
        s' ↔
      ∃ r, (∃ n, Returns (pn532.call stack.toStack
          (authenticateRequest uid uidLength blockNumber keyNumber key) [0xFF]) s (n, r) s') ∧
        r[0]? = some b := by
  have hparams : (authenticateRequest uid uidLength blockNumber keyNumber key).params.length =
      3 + mifareKeyLength + uidLength.toNat := length_authenticateParams huid hkey
  have hkeyLoad : Returns (load key 0 mifareKeyLength) s (key.take mifareKeyLength) s :=
    returns_load_front.mpr ⟨hkey, rfl, rfl⟩
  have huidLoad : Returns (load uid 0 uidLength.toNat) s (uid.take uidLength.toNat) s :=
    returns_load_front.mpr ⟨huid, rfl, rfl⟩
  have hstore : Returns (store (authenticateRequest uid uidLength blockNumber keyNumber key).params
      stack.array) s _ s :=
    returns_store.mpr ⟨by
      rw [hparams, stack.array_length]
      omega, rfl, rfl⟩
  refine hkeyLoad.bind_iff.trans (huidLoad.bind_iff.trans (hstore.bind_iff.trans ?_))
  rw [← hparams, take_overwrite]
  exact returns_status_iff _ _ _

/-- **Who is authenticated has answered with 0.**  Whatever the device does, the
authentication reports success exactly after an exchange whose payload begins with 0;
no failed call and no uninitialized byte passes for one. -/
theorem authenticates_iff {stack : ArrayStack (3 + mifareUidMaxLength + mifareKeyLength)}
    {uid key : Str} {uidLength : Byte} (huid : uidLength.toNat ≤ uid.length)
    (hmax : uidLength.toNat ≤ mifareUidMaxLength) (hkey : mifareKeyLength ≤ key.length) :
    Returns (pn532.mifareClassicAuthenticateBlock stack uid uidLength blockNumber keyNumber key) s 0
        s' ↔
      ∃ payload left, Exchange pn532 stack.toStack
        (authenticateRequest uid uidLength blockNumber keyNumber key) s payload left s' ∧
          payload[0]? = some 0 := by
  have hparams :
      (authenticateRequest uid uidLength blockNumber keyNumber key).params.length ≤ 253 := by
    rw [length_authenticateParams huid hkey]
    simp only [mifareKeyLength, mifareUidMaxLength] at hmax ⊢
    omega
  rw [returns_authenticate huid hmax hkey]
  constructor
  · rintro ⟨r, hr⟩
    rcases (status_zero_iff hparams (Nat.le_refl 1) (show 1 ≤ 253 by omega) rfl).mp hr with
      ⟨-, hset, -⟩ | ⟨payload, left, hexchange, hzero, -⟩
    · exact absurd hset (by decide)
    · exact ⟨payload, left, hexchange, hzero⟩
  · rintro ⟨payload, left, hexchange, hzero⟩
    exact ⟨_, (status_zero_iff hparams (Nat.le_refl 1) (show 1 ≤ 253 by omega) rfl).mpr
      (Or.inr ⟨payload, left, hexchange, hzero, rfl⟩)⟩

theorem authenticates_iff_factory :
    Returns (classicBus.mifareClassicAuthenticateBlock (filled 19 0xAA) [1, 2, 3, 4] 4 7 0x60
        (List.replicate 6 0xFF)) ⟨⟨fun _ => [], []⟩, 0⟩ 0 ⟨⟨fun _ => [], []⟩, 0⟩ ↔
      ∃ payload left, Exchange classicBus (filled 19 0xAA).toStack
        (authenticateRequest [1, 2, 3, 4] 4 7 0x60 (List.replicate 6 0xFF)) ⟨⟨fun _ => [], []⟩, 0⟩
          payload left ⟨⟨fun _ => [], []⟩, 0⟩ ∧ payload[0]? = some 0 :=
  authenticates_iff (by decide) (by decide) (by decide)

theorem length_writeParams {format : BlockFormat} (hdata : format.length ≤ data.length) :
    (writeRequest format data blockNumber).params.length = 3 + format.length := by
  rw [writeRequest, List.length_append, List.length_take, Nat.min_eq_left hdata]
  rfl

theorem length_writeParams_le {format : BlockFormat} (hdata : format.length ≤ data.length) :
    (writeRequest format data blockNumber).params.length ≤ 253 := by
  have hlength := format.length_le
  rw [length_writeParams hdata]
  simp only [mifareBlockLength] at hlength
  omega

/-- A function that writes a block returns the first byte that its call leaves. -/
theorem returns_writeBlock {format : BlockFormat} {stack : ArrayStack 1}
    (hdata : format.length ≤ data.length) :
    Returns (writeBlock format pn532 stack data blockNumber) s b s' ↔
      ∃ r, (∃ n, Returns (pn532.call stack.toStack (writeRequest format data blockNumber)
        stack.array) s (n, r) s') ∧ r[0]? = some b := by
  have hload : Returns (load data 0 format.length) s (data.take format.length) s :=
    returns_load_front.mpr ⟨hdata, rfl, rfl⟩
  exact hload.bind_iff.trans (returns_status_iff stack.toStack
    (writeRequest format data blockNumber) stack.array)

/-- A block is written after an answer that begins with 0. -/
theorem writeBlock_of_exchange {format : BlockFormat} {stack : ArrayStack 1}
    (hdata : format.length ≤ data.length) {payload left : Str}
    (h : Exchange pn532 stack.toStack (writeRequest format data blockNumber) s payload left s')
    (hzero : payload[0]? = some 0) :
    Returns (writeBlock format pn532 stack data blockNumber) s 0 s' :=
  (returns_writeBlock hdata).mpr ⟨_, (status_zero_iff (length_writeParams_le hdata) (Nat.le_refl 1)
    (show 1 ≤ 253 by omega) stack.array_length).mpr (Or.inr ⟨payload, left, h, hzero, rfl⟩)⟩

/-- What a function that writes a block reports: success after an exchange whose payload
begins with 0, and also of a failed call if the byte on its stack was 0. -/
theorem writeBlock_succeeds_iff {format : BlockFormat} {stack : ArrayStack 1}
    (hdata : format.length ≤ data.length) :
    Returns (writeBlock format pn532 stack data blockNumber) s 0 s' ↔
      (Returns (pn532.call stack.toStack (writeRequest format data blockNumber) stack.array) s
          (-1, stack.array) s' ∧ stack.array[0]? = some 0) ∨
        ∃ payload left,
          Exchange pn532 stack.toStack (writeRequest format data blockNumber) s payload left s' ∧
            payload[0]? = some 0 := by
  have hparams : (writeRequest format data blockNumber).params.length ≤ 253 :=
    length_writeParams_le hdata
  constructor
  · intro h
    obtain ⟨r, hr⟩ := (returns_writeBlock hdata).mp h
    rcases (status_zero_iff hparams (Nat.le_refl 1) (show 1 ≤ 253 by omega)
      stack.array_length).mp hr
      with ⟨hfail, hzero, -⟩ | ⟨payload, left, hexchange, hzero, -⟩
    · exact Or.inl ⟨hfail, hzero⟩
    · exact Or.inr ⟨payload, left, hexchange, hzero⟩
  · rintro (⟨hfail, hzero⟩ | ⟨payload, left, hexchange, hzero⟩)
    · exact (returns_writeBlock hdata).mpr ⟨_, (status_zero_iff hparams (Nat.le_refl 1)
        (show 1 ≤ 253 by omega) stack.array_length).mpr (Or.inl ⟨hfail, hzero, rfl⟩)⟩
    · exact writeBlock_of_exchange hdata hexchange hzero

/-- Without a card a zero on the stack is a success. -/
theorem writeBlock_succeeds_iff_open :
    Returns (writeBlock mifareClassic openBus (filled 1 0) (List.replicate 16 7) 1) () 0 () :=
  (writeBlock_succeeds_iff (by decide)).mpr (Or.inl ⟨call_openBus (by decide), rfl⟩)

theorem returns_takeBlock_zero_iff {format : BlockFormat} {buff : Str}
    (hbuff : buff.length = mifareBlockLength + 1) (hresponse : format.length ≤ response.length) :
    Returns (takeBlock format response buff) s (0, r) s' ↔
      buff[0]? = some 0 ∧ r = overwrite ((buff.drop 1).take format.length) response ∧ s' = s := by
  have hlength := format.length_le
  have hload : Returns (load buff 1 format.length) s ((buff.drop 1).take format.length) s :=
    returns_load.mpr ⟨by omega, rfl, rfl⟩
  have hstore : Returns (store ((buff.drop 1).take format.length) response) s _ s :=
    returns_store.mpr ⟨(List.length_take_le _ _).trans hresponse, rfl, rfl⟩
  rw [takeBlock, returns_bind]
  constructor
  · rintro ⟨status, s₁, hstatus, h⟩
    obtain ⟨hbyte, rfl⟩ := returns_byteAt.mp hstatus
    split_ifs at h with hzero
    · exact absurd (Prod.mk.inj (returns_pure.mp h).1).1.symm hzero
    · obtain ⟨hresult, rfl⟩ := returns_pure.mp ((hload.bind_iff.trans hstore.bind_iff).mp h)
      obtain ⟨hstatus, rfl⟩ := Prod.mk.inj hresult
      exact ⟨hstatus ▸ hbyte, rfl, rfl⟩
  · rintro ⟨hbyte, rfl, rfl⟩
    refine ⟨0, s', returns_byteAt.mpr ⟨hbyte, rfl⟩, ?_⟩
    rw [if_neg (by simp)]
    exact (hload.bind_iff.trans hstore.bind_iff).mpr (returns_pure.mpr ⟨rfl, rfl⟩)

theorem readStatus_zero_iff (stack : ArrayStack (mifareBlockLength + 1)) (blockNumber : UInt16)
    (buff : Str) :
    ((∃ n, Returns (pn532.call stack.toStack (readRequest blockNumber) stack.array) s
      (n, buff) s') ∧ buff[0]? = some 0) ↔
      (Returns (pn532.call stack.toStack (readRequest blockNumber) stack.array) s
        (-1, stack.array) s' ∧
          stack.array[0]? = some 0 ∧ buff = stack.array) ∨
        ∃ payload left, Exchange pn532 stack.toStack (readRequest blockNumber) s payload left s' ∧
          payload[0]? = some 0 ∧ buff = handedOn (readRequest blockNumber) payload left :=
  status_zero_iff (show 3 ≤ 253 by omega) (show 1 ≤ 17 by omega) (show 17 ≤ 253 by omega)
    stack.array_length

/-- A block is taken from what the call leaves, if that begins with 0. -/
theorem returns_readBlock_zero_iff {format : BlockFormat}
    {stack : ArrayStack (mifareBlockLength + 1)} (hresponse : format.length ≤ response.length) :
    Returns (readBlock format pn532 stack response blockNumber) s (0, r) s' ↔
      ∃ buff, ((∃ n, Returns (pn532.call stack.toStack (readRequest blockNumber) stack.array) s
          (n, buff) s') ∧ buff[0]? = some 0) ∧
        r = overwrite ((buff.drop 1).take format.length) response := by
  refine returns_bind.trans ⟨?_, ?_⟩
  · rintro ⟨⟨n, buff⟩, s₁, hcall, htake⟩
    have hbuff : buff.length = mifareBlockLength + 1 :=
      length_of_call (q := readRequest blockNumber) hcall stack.array_length
    obtain ⟨hzero, rfl, rfl⟩ := (returns_takeBlock_zero_iff hbuff hresponse).mp htake
    exact ⟨buff, ⟨⟨n, hcall⟩, hzero⟩, rfl⟩
  · rintro ⟨buff, ⟨⟨n, hcall⟩, hzero⟩, rfl⟩
    have hbuff : buff.length = mifareBlockLength + 1 := length_of_call hcall stack.array_length
    exact ⟨(n, buff), s', hcall, (returns_takeBlock_zero_iff hbuff hresponse).mpr ⟨hzero, rfl, rfl⟩⟩

/-- A block is read after an answer that begins with 0. -/
theorem readBlock_of_exchange {format : BlockFormat} {stack : ArrayStack (mifareBlockLength + 1)}
    (hresponse : format.length ≤ response.length) {payload left : Str}
    (h : Exchange pn532 stack.toStack (readRequest blockNumber) s payload left s')
    (hzero : payload[0]? = some 0) :
    Returns (readBlock format pn532 stack response blockNumber) s
      (0, overwrite (((handedOn (readRequest blockNumber) payload left).drop 1).take format.length)
        response) s' :=
  (returns_readBlock_zero_iff hresponse).mpr ⟨_, (readStatus_zero_iff stack blockNumber _).mpr
    (Or.inr ⟨payload, left, h, hzero, rfl⟩), rfl⟩

/-- What a function that reads a block reports: success after an exchange whose payload
begins with 0, and also of a failed call if the first byte on its stack was 0; the block
is then what came next on the stack. -/
theorem readBlock_succeeds_iff {format : BlockFormat} {stack : ArrayStack (mifareBlockLength + 1)}
    (hresponse : format.length ≤ response.length) :
    Returns (readBlock format pn532 stack response blockNumber) s (0, r) s' ↔
      (Returns (pn532.call stack.toStack (readRequest blockNumber) stack.array) s
        (-1, stack.array) s' ∧
          stack.array[0]? = some 0 ∧
          r = overwrite ((stack.array.drop 1).take format.length) response) ∨
        ∃ payload left, Exchange pn532 stack.toStack (readRequest blockNumber) s payload left s' ∧
          payload[0]? = some 0 ∧
          r = overwrite (((handedOn (readRequest blockNumber) payload left).drop 1).take
            format.length) response := by
  constructor
  · intro h
    obtain ⟨buff, hbuff, rfl⟩ := (returns_readBlock_zero_iff hresponse).mp h
    rcases (readStatus_zero_iff stack blockNumber buff).mp hbuff with
      ⟨hfail, hset, rfl⟩ | ⟨payload, left, hexchange, hset, rfl⟩
    · exact Or.inl ⟨hfail, hset, rfl⟩
    · exact Or.inr ⟨payload, left, hexchange, hset, rfl⟩
  · rintro (⟨hfail, hset, rfl⟩ | ⟨payload, left, hexchange, hset, rfl⟩)
    · exact (returns_readBlock_zero_iff hresponse).mpr ⟨_, (readStatus_zero_iff stack blockNumber
        _).mpr (Or.inl ⟨hfail, hset, rfl⟩), rfl⟩
    · exact readBlock_of_exchange hresponse hexchange hset

/-- Without a card a block of zeros is read off such a stack. -/
theorem readBlock_succeeds_iff_open :
    Returns (readBlock mifareClassic openBus (filled 17 0) (List.replicate 16 0xFF) 1) ()
      (0, List.replicate 16 0) () :=
  (readBlock_succeeds_iff (by decide)).mpr (Or.inl ⟨call_openBus (by decide), rfl, rfl⟩)

end Report

/-! ## Cards as memories -/

/-- There is a card with the blocks `memory` at the chip.  Behind the bytes of a block that
are for the caller the card may send more.  The card is idealised: all its 256 blocks can be
read and written, and without authentication. -/
structure Stores (format : BlockFormat) (chip : Chip γ) (memory : γ → Byte → Str) : Prop where
  length (inside : γ) (b : Byte) : (memory inside b).length = format.length
  read (inside : γ) (b : Byte) : ∃ next behind,
    chip.respond inside commandInDataExchange [0x01, mifareCmdRead, b] =
        (next, some (0x00 :: (memory inside b ++ behind))) ∧
      format.length + behind.length ≤ mifareBlockLength ∧ memory next = memory inside
  write (inside : γ) (b : Byte) {data : Str} (hdata : data.length = format.length) : ∃ next,
    chip.respond inside commandInDataExchange ([0x01, format.writeCommand, b] ++ data) =
        (next, some [0x00]) ∧ memory next = Function.update (memory inside) b data

/-- A call of one of the functions, with buffers that have room for a block. -/
inductive BlockCall (format : BlockFormat)
  | read (stack : ArrayStack (mifareBlockLength + 1)) (response : Str)
      (room : response.length = format.length) (blockNumber : UInt16)
  | write (stack : ArrayStack 1) (data : Str) (full : data.length = format.length)
      (blockNumber : UInt16)

/-- Calls one after the other; a call that writes has no block to show. -/
def blockSession {format : BlockFormat} (pn532 : PN532 σ) :
    List (BlockCall format) → Driver σ (List (Byte × Str))
  | [] => pure []
  | .read stack response _ blockNumber :: calls => do
      let result ← readBlock format pn532 stack response blockNumber
      let results ← blockSession pn532 calls
      pure (result :: results)
  | .write stack data _ blockNumber :: calls => do
      let status ← writeBlock format pn532 stack data blockNumber
      let results ← blockSession pn532 calls
      pure ((status, []) :: results)

/-- The same calls of a memory with 256 blocks. -/
def memorySession {format : BlockFormat} (memory : Byte → Str) :
    List (BlockCall format) → List (Byte × Str)
  | [] => []
  | .read _ _ _ blockNumber :: calls =>
      (0x00, memory blockNumber.toUInt8) :: memorySession memory calls
  | .write _ data _ blockNumber :: calls =>
      (0x00, []) :: memorySession (Function.update memory blockNumber.toUInt8 data) calls

/-- The block is what comes behind the status. -/
theorem block_of_handedOn (format : BlockFormat) (blockNumber : UInt16) {block behind left : Str}
    (hblock : block.length = format.length) :
    ((handedOn (readRequest blockNumber) (0x00 :: (block ++ behind)) left).drop 1).take
      format.length = block :=
  calc ((handedOn (readRequest blockNumber) (0x00 :: (block ++ behind)) left).drop 1).take
        format.length
      = ((block ++ behind ++ left.drop ((0x00 :: (block ++ behind)).length + 2)).take
          mifareBlockLength).take format.length := by
        rw [handedOn, readRequest, List.cons_append, List.take_succ_cons, List.drop_succ_cons,
          List.drop_zero]
    _ = (block ++ (behind ++ left.drop ((0x00 :: (block ++ behind)).length + 2))).take
          format.length := by
        rw [List.take_take, Nat.min_eq_left format.length_le, List.append_assoc]
    _ = block := List.take_left' hblock

section Cards

variable {format : BlockFormat} {chip : Chip γ} {R : σ → Chip.State γ → Prop} {s : σ}
  {c : Chip.State γ} {memory : γ → Byte → Str}

theorem readBlock_of_stores (h : Carries pn532 chip R) (hstores : Stores format chip memory)
    (hR : R s c) (stack : ArrayStack (mifareBlockLength + 1)) {response : Str}
    (hroom : response.length = format.length) (blockNumber : UInt16) :
    ∃ s' next, Returns (readBlock format pn532 stack response blockNumber) s
        (0, memory c.inside blockNumber.toUInt8) s' ∧
      R s' ⟨next, []⟩ ∧ memory next = memory c.inside := by
  obtain ⟨next, behind, hanswer, hbehind, hsame⟩ := hstores.read c.inside blockNumber.toUInt8
  have hblock := hstores.length c.inside blockNumber.toUInt8
  have hfits : Carries.Fits (readRequest blockNumber) :=
    ⟨show 3 ≤ 245 by omega, show 17 ≤ 245 by omega, show commandInDataExchange ≠ 0xFF by decide⟩
  have hrespond : chip.respond c.inside (readRequest blockNumber).command
      (readRequest blockNumber).params = _ := hanswer
  obtain ⟨s', hanswers, hR'⟩ := h.answered hR hfits (congrArg Prod.snd hrespond) (by
    rw [List.length_cons, List.length_append, hblock]
    exact Nat.succ_le_succ hbehind)
  rw [hrespond] at hR'
  have hexchange := hanswers.exchange hfits.command hfits.response (by
    rw [List.length_cons, List.length_append, hblock]
    simp only [mifareBlockLength] at hbehind
    omega) stack.toStack
  have hread := readBlock_of_exchange hroom.ge hexchange rfl
  rw [block_of_handedOn format blockNumber hblock, overwrite, hblock, ← hroom, List.drop_length,
    List.append_nil] at hread
  exact ⟨s', next, hread, hR', hsame⟩

theorem writeBlock_of_stores (h : Carries pn532 chip R) (hstores : Stores format chip memory)
    (hR : R s c) (stack : ArrayStack 1) {data : Str} (hfull : data.length = format.length)
    (blockNumber : UInt16) :
    ∃ s' next, Returns (writeBlock format pn532 stack data blockNumber) s 0 s' ∧ R s' ⟨next, []⟩ ∧
      memory next = Function.update (memory c.inside) blockNumber.toUInt8 data := by
  obtain ⟨next, hanswer, hupdate⟩ := hstores.write c.inside blockNumber.toUInt8 hfull
  have hlength := format.length_le
  have hparams : (writeRequest format data blockNumber).params =
      [0x01, format.writeCommand, blockNumber.toUInt8] ++ data := by
    rw [writeRequest, ← hfull, List.take_length]
  have hfits : Carries.Fits (writeRequest format data blockNumber) := by
    refine ⟨?_, show 1 ≤ 245 by omega, show commandInDataExchange ≠ 0xFF by decide⟩
    rw [length_writeParams hfull.ge]
    simp only [mifareBlockLength] at hlength
    omega
  have hrespond : chip.respond c.inside (writeRequest format data blockNumber).command
      (writeRequest format data blockNumber).params = (next, some [0x00]) := by
    rw [hparams]
    exact hanswer
  obtain ⟨s', hanswers, hR'⟩ := h.answered hR hfits (congrArg Prod.snd hrespond) (Nat.le_refl 1)
  rw [hrespond] at hR'
  have hexchange := hanswers.exchange hfits.command hfits.response (show 1 ≤ 252 by omega)
    stack.toStack
  exact ⟨s', next, writeBlock_of_exchange hfull.ge hexchange rfl, hR', hupdate⟩

/-- **A card is a memory.**  Over a bus to a chip with such a card, calls that read and write
blocks all succeed, and what they read is what the same calls of a memory of 256 blocks
read: only the low byte of a block number counts. -/
theorem blocks_refine (h : Carries pn532 chip R) (hstores : Stores format chip memory) (hR : R s c)
    (calls : List (BlockCall format)) :
    ∃ s', Returns (blockSession pn532 calls) s (memorySession (memory c.inside) calls) s' := by
  induction calls generalizing s c with
  | nil => exact ⟨s, returns_pure.mpr ⟨rfl, rfl⟩⟩
  | cons call calls ih =>
      cases call with
      | read stack response room blockNumber =>
          obtain ⟨s₁, next, hread, hR₁, hsame⟩ :=
            readBlock_of_stores h hstores hR stack room blockNumber
          obtain ⟨s', hrest⟩ := ih hR₁
          rw [hsame] at hrest
          exact ⟨s', hread.bind_iff.mpr (hrest.bind_iff.mpr (returns_pure.mpr ⟨rfl, rfl⟩))⟩
      | write stack data full blockNumber =>
          obtain ⟨s₁, next, hwrite, hR₁, hupdate⟩ :=
            writeBlock_of_stores h hstores hR stack full blockNumber
          obtain ⟨s', hrest⟩ := ih hR₁
          rw [hupdate] at hrest
          exact ⟨s', hwrite.bind_iff.mpr (hrest.bind_iff.mpr (returns_pure.mpr ⟨rfl, rfl⟩))⟩

theorem cardChip_stores {format : BlockFormat} (hcommand : format.writeCommand ≠ mifareCmdRead) :
    Stores format (cardChip format) fun memory b => padTo format.length (memory b) where
  length memory b := by
    rw [padTo, List.length_append, List.length_take, List.length_replicate]
    omega
  read memory b := ⟨memory, [], by rw [List.append_nil]; rfl, format.length_le, rfl⟩
  write memory b data hdata := by
    have hrespond : (cardChip format).respond memory commandInDataExchange
        ([0x01, format.writeCommand, b] ++ data) =
          (Function.update memory b data, some [0x00]) := by
      simp only [cardChip, List.cons_append, List.nil_append]
      rw [if_neg (by decide), if_neg hcommand, if_pos trivial]
    refine ⟨_, hrespond, funext fun b' => ?_⟩
    have hpad : padTo format.length data = data := by
      rw [padTo_eq hdata.le, hdata, Nat.sub_self, List.replicate_zero, List.append_nil]
    by_cases hb : b' = b
    · rw [hb, Function.update_self, Function.update_self, hpad]
    · rw [Function.update_of_ne hb, Function.update_of_ne hb]

/-- Block 257 is block 1. -/
theorem blocks_refine_classic : ∃ s', Returns (blockSession classicBus
      ([.write (filled 1 0xAA) (List.replicate 16 7) rfl 1,
        .read (filled 17 0xAA) (List.replicate 16 0) rfl 257] : List (BlockCall mifareClassic)))
    ⟨⟨fun _ => [], []⟩, 0⟩ [(0, []), (0, List.replicate 16 7)] s' :=
  blocks_refine (i2c_carries (i2c_simulated_speaks _) _) (cardChip_stores (by decide)) rfl _

end Cards

end PN532

end AsyncNFCServer
