import AsyncNFCServer.Bytes
import AsyncNFCServer.Lib.Checksum
import Mathlib.Data.UInt

/-!
# The frames of the PN532

A frame carries 1 to 255 bytes between a start code, the length with its check
value, the check value of the data, and a final zero.  `frame` is what
`PN532_WriteFrame` builds; `parseFrame` is what `PN532_ReadFrame` does with the
buffer that it has read into.

The parser looks at memory that its caller owns: where it would go on past the end
of the buffer, or round for ever because a `uint8_t` cannot reach its bound, the
result is a `Fault`.  Bytes of the buffer that the device did not fill are stale, and
the parser does not tell them from others.

`parseFrame_eq_ok_iff` says which buffers hold a frame and `parseFrame_eq_fault_iff` on
which ones the parser fails to come back.
-/

namespace AsyncNFCServer

namespace PN532

/-- What a C function does that neither returns nor is allowed to happen. -/
inductive Fault where
  /-- an access behind the end of an array -/
  | overrun
  /-- a loop that no longer ends -/
  | endless
  deriving DecidableEq, Repr

/-- Why a buffer is not taken for a frame. -/
inductive Stop where
  | rejected (message : Str)
  | fault (f : Fault)
  deriving DecidableEq, Repr

def frameMaxLength : Nat := 255

/-- `PN532_PREAMBLE`, `PN532_STARTCODE1` and `PN532_STARTCODE2`. -/
def startBytes : Str := [0x00, 0x00, 0xFF]

def postamble : Byte := 0x00

/-- The running sum `checksum += …` of a `uint8_t` over bytes. -/
def addUp (checksum : Byte) (bytes : Str) : Byte := bytes.foldl (· + ·) checksum

/-- The frame that `PN532_WriteFrame` builds around `data`. -/
def frame (data : Str) : Str :=
  let checksum := addUp (addUp 0 startBytes) data
  startBytes ++ [data.length.toUInt8, ~~~data.length.toUInt8 + 1] ++ data ++
    [~~~checksum, postamble]

/-! ## Reading a frame -/

def noStart : Str := ascii "Response frame preamble does not contain 0x00FF!"

def noData : Str := ascii "Response contains no data!"

def lengthMismatch : Str := ascii "Response length checksum did not match length!"

def checksumMismatch : Str := ascii "Response checksum did not match expected checksum"

/-- The loop that swallows zeros, from `offset` on, where the buffer goes on with the
given bytes: the offset of the first other byte, and that byte. -/
def swallow (limit : Nat) : Nat → Str → Except Stop (Nat × Byte)
  | _, [] => .error (.fault .overrun)
  | offset, b :: bytes =>
      if b ≠ 0 then .ok (offset, b)
      -- `offset` is a `uint8_t`: it starts again at the front of the buffer
      else if offset + 1 = 256 then .error (.fault .endless)
      else if limit ≤ offset + 1 then .error (.rejected noStart)
      else swallow limit (offset + 1) bytes

/-- The checks behind the start code, and the data of the frame. -/
def checkData (frameLen lengthCheck : Byte) (body : Str) : Except Stop Str :=
  if frameLen + lengthCheck ≠ 0 then .error (.rejected lengthMismatch)
  else if body.length < frameLen.toNat + 1 then .error (.fault .overrun)
  -- the `uint8_t` of the loop stays below `frame_len + 1`
  else if frameLen = 255 then .error (.fault .endless)
  else if addUp 0 (body.take (frameLen.toNat + 1)) ≠ 0 then .error (.rejected checksumMismatch)
  else .ok (body.take frameLen.toNat)

/-- The part of the buffer behind the start code. -/
def checkBody : Str → Except Stop Str
  | frameLen :: lengthCheck :: body => checkData frameLen lengthCheck body
  | _ => .error (.fault .overrun)

/-- `PN532_ReadFrame` for a frame of at most `length` bytes, after its `read_data`. -/
def parseFrame (length : Nat) (buff : Str) : Except Stop Str :=
  match swallow (length + 8) 0 buff with
  | .error stop => .error stop
  | .ok (offset, start) =>
      if start ≠ 0xFF then .error (.rejected noStart)
      else
        let offset := (offset + 1) % 256
        if length + 8 ≤ offset then .error (.rejected noData)
        else checkBody (buff.drop offset)

/-! ## The check values -/

open scoped UInt8.CommRing

open Checksum

theorem addUp_eq (checksum : Byte) (bytes : Str) : addUp checksum bytes = checksum + bytes.sum :=
  List.foldl_eq_apply_foldr

theorem addUp_eq_zero_iff {bytes : Str} : addUp 0 bytes = 0 ↔ ZeroSum bytes := by
  rw [addUp_eq, zero_add, ZeroSum]

theorem complement_add_one (b : Byte) : ~~~b + 1 = -b := by
  rw [UInt8.not_eq_neg_sub, sub_add_cancel]

/-- The start bytes add `0xFF` to the sum, which the complement takes for -1. -/
theorem complement_addUp (data : Str) : ~~~addUp (addUp 0 startBytes) data = check data := by
  have hstart : addUp 0 startBytes = -1 := rfl
  calc ~~~addUp (addUp 0 startBytes) data
      = -(-1 + data.sum) - 1 := by rw [addUp_eq, hstart, UInt8.not_eq_neg_sub]
    _ = 1 + -data.sum - 1 := by rw [neg_add, neg_neg]
    _ = check data := by rw [check, add_sub_cancel_left]

/-- A frame is made of two balanced parts. -/
theorem frame_eq (data : Str) :
    frame data = 0 :: 0 :: 0xFF :: data.length.toUInt8 :: -data.length.toUInt8 ::
      (data ++ [check data, 0]) := by
  simp only [frame, complement_addUp, complement_add_one]
  rfl

theorem length_frame (data : Str) : (frame data).length = data.length + 7 := by
  simp [frame_eq]

/-! ## What the parser makes of a buffer -/

theorem swallow_of_ne {limit offset k : Nat} (hoffset : offset + k < limit) (hlimit : limit ≤ 255)
    {b : Byte} (hb : b ≠ 0) (rest : Str) :
    swallow limit offset (List.replicate k 0 ++ b :: rest) = .ok (offset + k, b) := by
  induction k generalizing offset with
  | zero => simp [swallow, hb]
  | succ k ih =>
      have hnext := ih (show offset + 1 + k < limit by omega)
      rw [List.replicate_succ, List.cons_append, swallow, if_neg (by simp), if_neg (by omega),
        if_neg (by omega), hnext]
      simp only [Except.ok.injEq, Prod.mk.injEq, and_true]
      omega

theorem swallow_of_zeros {limit offset k : Nat} (hoffset : offset < limit)
    (hzeros : limit ≤ offset + k) (hlimit : limit ≤ 255) (rest : Str) :
    swallow limit offset (List.replicate k 0 ++ rest) = .error (.rejected noStart) := by
  induction k generalizing offset with
  | zero => omega
  | succ k ih =>
      rw [List.replicate_succ, List.cons_append, swallow, if_neg (by simp), if_neg (by omega)]
      split_ifs with hend
      · rfl
      · exact ih (by omega) (by omega)

theorem swallow_of_end {limit offset k : Nat} (hoffset : offset + k < limit)
    (hlimit : limit ≤ 255) :
    swallow limit offset (List.replicate k 0) = .error (.fault .overrun) := by
  induction k generalizing offset with
  | zero => rfl
  | succ k ih =>
      rw [List.replicate_succ, swallow, if_neg (by simp), if_neg (by omega), if_neg (by omega)]
      exact ih (by omega)

/-- A buffer is taken apart at its first byte other than zero. -/
theorem zeros_cases (n : Nat) (bytes : Str) :
    (∃ rest, bytes = List.replicate n 0 ++ rest) ∨
      (∃ k < n, bytes = List.replicate k 0) ∨
      ∃ k < n, ∃ b rest, bytes = List.replicate k 0 ++ b :: rest ∧ b ≠ 0 := by
  induction n generalizing bytes with
  | zero => exact Or.inl ⟨bytes, rfl⟩
  | succ n ih =>
      cases bytes with
      | nil => exact Or.inr (Or.inl ⟨0, by omega, rfl⟩)
      | cons b bytes =>
          by_cases hb : b = 0
          · subst hb
            rcases ih bytes with ⟨rest, rfl⟩ | ⟨k, hk, rfl⟩ | ⟨k, hk, b, rest, rfl, hb⟩
            · exact Or.inl ⟨rest, rfl⟩
            · exact Or.inr (Or.inl ⟨k + 1, by omega, rfl⟩)
            · exact Or.inr (Or.inr ⟨k + 1, by omega, b, rest, rfl, hb⟩)
          · exact Or.inr (Or.inr ⟨0, by omega, b, bytes, rfl, hb⟩)

/-- Behind its zeros a buffer is read from the start code on. -/
theorem parseFrame_zeros {length k : Nat} (hlength : length ≤ 247) (hk : k < length + 8) {b : Byte}
    (hb : b ≠ 0) (rest : Str) :
    parseFrame length (List.replicate k 0 ++ b :: rest) =
      if b ≠ 0xFF then .error (.rejected noStart)
      else if length + 8 ≤ k + 1 then .error (.rejected noData)
      else checkBody rest := by
  have hswallow := swallow_of_ne (show 0 + k < length + 8 by omega) (by omega) hb rest
  rw [Nat.zero_add] at hswallow
  simp only [parseFrame, hswallow]
  split_ifs with hstart hmod hend hend
  · rfl
  · rfl
  · omega
  · omega
  · have hdrop : (List.replicate k (0 : Byte) ++ b :: rest).drop ((k + 1) % 256) = rest := by
      rw [Nat.mod_eq_of_lt (by omega), List.append_cons, List.drop_left' (by simp)]
    rw [hdrop]

theorem parseFrame_start {length k : Nat} (hlength : length ≤ 247) (hk : k < length + 7)
    (rest : Str) :
    parseFrame length (List.replicate k 0 ++ 0xFF :: rest) = checkBody rest := by
  rw [parseFrame_zeros hlength (by omega) (by decide), if_neg (by simp), if_neg (by omega)]

theorem parseFrame_other {length k : Nat} (hlength : length ≤ 247) (hk : k < length + 8) {b : Byte}
    (hb : b ≠ 0) (hstart : b ≠ 0xFF) (rest : Str) :
    parseFrame length (List.replicate k 0 ++ b :: rest) = .error (.rejected noStart) := by
  rw [parseFrame_zeros hlength hk hb, if_pos hstart]

theorem parseFrame_of_zeros {length : Nat} (hlength : length ≤ 247) (rest : Str) :
    parseFrame length (List.replicate (length + 8) 0 ++ rest) = .error (.rejected noStart) := by
  have hswallow := swallow_of_zeros (show 0 < length + 8 by omega)
    (show length + 8 ≤ 0 + (length + 8) by omega) (by omega) rest
  simp only [parseFrame, hswallow]

theorem parseFrame_of_end {length k : Nat} (hlength : length ≤ 247) (hk : k < length + 8) :
    parseFrame length (List.replicate k 0) = .error (.fault .overrun) := by
  have hswallow := swallow_of_end (show 0 + k < length + 8 by omega) (by omega)
  simp only [parseFrame, hswallow]

/-- A body that passes the checks is the data, its check value, and whatever follows. -/
theorem checkData_eq_ok_iff {frameLen lengthCheck : Byte} {body data : Str} :
    checkData frameLen lengthCheck body = .ok data ↔
      ZeroSum [frameLen, lengthCheck] ∧ data.length = frameLen.toNat ∧ data.length < 255 ∧
        ∃ dataCheck rest, body = data ++ dataCheck :: rest ∧ ZeroSum (data ++ [dataCheck]) := by
  have hlast : frameLen = 255 ↔ frameLen.toNat = 255 := by
    rw [← UInt8.toNat_inj]
    rfl
  have hlt := frameLen.toNat_lt
  have hpair : ZeroSum [frameLen, lengthCheck] ↔ frameLen + lengthCheck = 0 := by
    simp [ZeroSum]
  simp only [checkData, addUp_eq_zero_iff, hpair, hlast, ne_eq, ite_not]
  constructor
  · intro h
    split_ifs at h with hlength hshort hendless hsum
    obtain rfl := Except.ok.inj h
    have htake : (body.take frameLen.toNat).length = frameLen.toNat := by
      rw [List.length_take]
      omega
    refine ⟨hlength, htake, by omega, body[frameLen.toNat], body.drop (frameLen.toNat + 1), ?_, ?_⟩
    · rw [← List.drop_eq_getElem_cons, List.take_append_drop]
    · rwa [List.take_append_getElem]
  · rintro ⟨hlength, hdata, hmax, dataCheck, rest, rfl, hbalanced⟩
    have htake : (data ++ dataCheck :: rest).take (frameLen.toNat + 1) = data ++ [dataCheck] := by
      rw [List.append_cons]
      exact List.take_left' (by simp [hdata])
    rw [if_pos hlength, if_neg (by simp only [List.length_append, List.length_cons]; omega),
      if_neg (by omega), htake, if_pos hbalanced, List.take_left' hdata]

/-- A frame of `data` starts within the first `length + 7` bytes of the buffer, with
nothing but zeros before it. -/
def Holds (length : Nat) (buff data : Str) : Prop :=
  ∃ k frameLen lengthCheck dataCheck rest,
    buff = List.replicate k 0 ++ 0xFF :: frameLen :: lengthCheck :: (data ++ dataCheck :: rest) ∧
      k < length + 7 ∧ data.length = frameLen.toNat ∧ data.length < 255 ∧
      ZeroSum [frameLen, lengthCheck] ∧ ZeroSum (data ++ [dataCheck])

/-- A buffer is accepted exactly if it holds a frame. -/
theorem parseFrame_eq_ok_iff {length : Nat} (hlength : length ≤ 247) (buff data : Str) :
    parseFrame length buff = .ok data ↔ Holds length buff data := by
  constructor
  · intro h
    rcases zeros_cases (length + 8) buff with ⟨rest, rfl⟩ | ⟨k, hk, rfl⟩ | ⟨k, hk, b, rest, rfl, hb⟩
    · rw [parseFrame_of_zeros hlength] at h
      exact absurd h (by simp)
    · rw [parseFrame_of_end hlength hk] at h
      exact absurd h (by simp)
    · rw [parseFrame_zeros hlength hk hb] at h
      split_ifs at h with hstart hend
      obtain rfl := not_ne_iff.mp hstart
      match rest, h with
      | frameLen :: lengthCheck :: body, h =>
          obtain ⟨hpair, hdata, hmax, dataCheck, rest, rfl, hbody⟩ := checkData_eq_ok_iff.mp h
          exact ⟨k, frameLen, lengthCheck, dataCheck, rest, rfl, by omega, hdata, hmax, hpair,
            hbody⟩
  · rintro ⟨k, frameLen, lengthCheck, dataCheck, rest, rfl, hk, hdata, hmax, hpair, hbody⟩
    rw [parseFrame_start hlength hk, checkBody]
    exact checkData_eq_ok_iff.mpr ⟨hpair, hdata, hmax, dataCheck, rest, rfl, hbody⟩

theorem checkData_eq_fault_iff {frameLen lengthCheck : Byte} {body : Str} {f : Fault} :
    checkData frameLen lengthCheck body = .error (.fault f) ↔
      ZeroSum [frameLen, lengthCheck] ∧
        (body.length ≤ frameLen.toNat ∧ f = .overrun ∨
          frameLen.toNat < body.length ∧ frameLen = 255 ∧ f = .endless) := by
  have hpair : ZeroSum [frameLen, lengthCheck] ↔ frameLen + lengthCheck = 0 := by
    simp [ZeroSum]
  rw [checkData, hpair]
  split_ifs with hlength hshort hendless hsum
  · simp [hlength]
  · have hover : body.length ≤ frameLen.toNat := by omega
    simp [not_ne_iff.mp hlength, hover, hover.not_gt, eq_comm]
  · have hover : frameLen.toNat < body.length := by omega
    have hresult : (Except.error (.fault .endless) : Except Stop Str) = .error (.fault f) ↔
        f = .endless := by simp [eq_comm]
    rw [hresult]
    constructor
    · exact fun hf => ⟨not_ne_iff.mp hlength, Or.inr ⟨hover, hendless, hf⟩⟩
    · rintro ⟨-, ⟨hle, -⟩ | ⟨-, -, hf⟩⟩
      · omega
      · exact hf
  · have hover : ¬ body.length ≤ frameLen.toNat := by omega
    simp [hover, hendless]
  · have hover : ¬ body.length ≤ frameLen.toNat := by omega
    simp [hover, hendless]

/-- A buffer that the parser does not come back from. -/
theorem exists_of_parseFrame_fault {length : Nat} (hlength : length ≤ 247) {buff : Str}
    (hsize : length + 9 ≤ buff.length) {f : Fault}
    (h : parseFrame length buff = .error (.fault f)) :
    ∃ k frameLen lengthCheck body,
      buff = List.replicate k 0 ++ 0xFF :: frameLen :: lengthCheck :: body ∧ k < length + 7 ∧
        ZeroSum [frameLen, lengthCheck] ∧
        (body.length ≤ frameLen.toNat ∧ f = .overrun ∨
          frameLen.toNat < body.length ∧ frameLen = 255 ∧ f = .endless) := by
  rcases zeros_cases (length + 8) buff with ⟨rest, rfl⟩ | ⟨k, hk, rfl⟩ | ⟨k, hk, b, rest, rfl, hb⟩
  · rw [parseFrame_of_zeros hlength] at h
    exact absurd h (by simp)
  · rw [List.length_replicate] at hsize
    omega
  · rw [parseFrame_zeros hlength hk hb] at h
    split_ifs at h with hstart hend
    · exact absurd h (by simp)
    · exact absurd h (by simp)
    obtain rfl := not_ne_iff.mp hstart
    match rest, h with
    | frameLen :: lengthCheck :: body, h =>
        exact ⟨k, frameLen, lengthCheck, body, rfl, by omega, checkData_eq_fault_iff.mp h⟩
    | [], h =>
        simp only [List.length_append, List.length_replicate, List.length_cons,
          List.length_nil] at hsize
        omega
    | [_], h =>
        simp only [List.length_append, List.length_replicate, List.length_cons,
          List.length_nil] at hsize
        omega

/-- **The parser comes back, unless the length byte leads it out of the buffer or is
255.**  The length has passed its check then, the data has not. -/
theorem parseFrame_eq_fault_iff {length : Nat} (hlength : length ≤ 247) {buff : Str}
    (hsize : length + 9 ≤ buff.length) (f : Fault) :
    parseFrame length buff = .error (.fault f) ↔
      ∃ k frameLen lengthCheck body,
        buff = List.replicate k 0 ++ 0xFF :: frameLen :: lengthCheck :: body ∧ k < length + 7 ∧
          ZeroSum [frameLen, lengthCheck] ∧
          (body.length ≤ frameLen.toNat ∧ f = .overrun ∨
            frameLen.toNat < body.length ∧ frameLen = 255 ∧ f = .endless) := by
  constructor
  · exact exists_of_parseFrame_fault hlength hsize
  · rintro ⟨k, frameLen, lengthCheck, body, rfl, hk, hdata⟩
    rw [parseFrame_start hlength hk, checkBody]
    exact checkData_eq_fault_iff.mpr hdata

/-- The length byte 255 with its check value: `i` never reaches it. -/
theorem parseFrame_eq_fault_iff_endless :
    parseFrame 0 ([0x00, 0x00, 0xFF, 0xFF, 0x01] ++ List.replicate 256 0) =
      .error (.fault .endless) :=
  (parseFrame_eq_fault_iff (by decide)
    (by rw [List.length_append, List.length_replicate]; decide) _).mpr
    ⟨2, 0xFF, 0x01, List.replicate 256 0, rfl, by decide, by decide,
      Or.inr ⟨by rw [List.length_replicate]; decide, rfl, rfl⟩⟩

/-! ## Frames that were written -/

section Written

variable {length : Nat} {data : Str}

theorem toNat_length (hdata : data.length < 255) : data.length.toUInt8.toNat = data.length :=
  Nat.mod_eq_of_lt (by omega)

theorem holds_frame (hdata : data.length < 255) {k : Nat} (hk : k + 2 < length + 7) (rest : Str) :
    Holds length (List.replicate k 0 ++ frame data ++ rest) data := by
  refine ⟨k + 2, data.length.toUInt8, -data.length.toUInt8, check data, 0 :: rest, ?_, hk,
    (toNat_length hdata).symm, hdata, zeroSum_pair_iff.mpr rfl, zeroSum_concat_check data⟩
  have hzeros : List.replicate (k + 2) (0 : Byte) = List.replicate k 0 ++ [0, 0] :=
    List.replicate_add k 2 0
  simp [frame_eq, hzeros]

/-- **A frame is read back**, behind any number of further zeros that fits and whatever
follows, by a read of at most 247 bytes.  (A longer one can let the `uint8_t` offset wrap
around behind the zeros.) -/
theorem parseFrame_frame (hlength : length ≤ 247) (hdata : data.length < 255) {k : Nat}
    (hk : k + 2 < length + 7) (rest : Str) :
    parseFrame length (List.replicate k 0 ++ frame data ++ rest) = .ok data :=
  (parseFrame_eq_ok_iff hlength _ _).mpr (holds_frame hdata hk rest)

theorem parseFrame_frame_firmware :
    parseFrame 6 (List.replicate 3 0 ++ frame [0xD5, 0x03, 0x32, 0x01, 0x06, 0x07] ++ [0xAA]) =
      .ok [0xD5, 0x03, 0x32, 0x01, 0x06, 0x07] :=
  parseFrame_frame (by decide) (by decide) (by decide) _

/-- A length byte that does not fit its check value. -/
theorem checkData_of_ne {frameLen lengthCheck : Byte} (h : frameLen + lengthCheck ≠ 0)
    (body : Str) : checkData frameLen lengthCheck body = .error (.rejected lengthMismatch) :=
  if_pos h

/-- Data that does not fit its check value. -/
theorem checkData_of_not_zeroSum (hdata : data.length < 255) {summed : Str}
    (hlen : summed.length = data.length + 1) (hsum : ¬ ZeroSum summed) (rest : Str) :
    checkData data.length.toUInt8 (-data.length.toUInt8) (summed ++ rest) =
      .error (.rejected checksumMismatch) := by
  have hlast : data.length.toUInt8 ≠ 255 := by
    rw [ne_eq, ← UInt8.toNat_inj, toNat_length hdata]
    exact hdata.ne
  rw [checkData, if_neg (by simp), toNat_length hdata,
    if_neg (by rw [List.length_append]; omega), if_neg hlast, List.take_left' hlen,
    if_pos (by rwa [ne_eq, addUp_eq_zero_iff])]

/-- What becomes of a frame whose byte at `i` has turned into `b`. -/
def damaged (data : Str) (i : Nat) (b : Byte) : Except Stop Str :=
  if i = data.length + 6 then .ok data
  else if 5 ≤ i then .error (.rejected checksumMismatch)
  else if 3 ≤ i then .error (.rejected lengthMismatch)
  else if i = 2 ∨ b ≠ 0xFF then .error (.rejected noStart)
  -- the start code and the length have moved up by one
  else if i = 1 ∧ data.length = 1 then .error (.fault .endless)
  else .error (.rejected lengthMismatch)

theorem parseFrame_set_preamble (hlength : length ≤ 247) {b : Byte} (hb : b ≠ 0) (rest : Str) :
    parseFrame length ((frame data).set 0 b ++ rest) = damaged data 0 b := by
  by_cases hstart : b = 0xFF
  · subst hstart
    have hcheck := checkData_of_ne (show (0 : Byte) + 0xFF ≠ 0 by decide)
      (data.length.toUInt8 :: -data.length.toUInt8 :: (data ++ [check data, 0] ++ rest))
    rw [← checkBody, ← parseFrame_start (k := 0) hlength (by omega)] at hcheck
    simpa [frame_eq, damaged] using hcheck
  · have hother := parseFrame_other (k := 0) hlength (by omega) hb hstart
      ((frame data).drop 1 ++ rest)
    simpa [frame_eq, damaged, hstart] using hother

theorem parseFrame_set_startCode1 (hlength : length ≤ 247) (hdata : data.length < 255) {b : Byte}
    (hb : b ≠ 0) {rest : Str} (hsize : 260 ≤ (frame data ++ rest).length) :
    parseFrame length ((frame data).set 1 b ++ rest) = damaged data 1 b := by
  by_cases hstart : b = 0xFF
  · subst hstart
    have hparse := parseFrame_start (k := 1) hlength (by omega) (0xFF :: data.length.toUInt8 ::
      -data.length.toUInt8 :: (data ++ [check data, 0] ++ rest))
    have hbuff : (frame data).set 1 0xFF ++ rest = List.replicate 1 0 ++ 0xFF :: 0xFF ::
        data.length.toUInt8 :: -data.length.toUInt8 :: (data ++ [check data, 0] ++ rest) := by
      simp [frame_eq]
    rw [hbuff, hparse, checkBody, damaged, if_neg (by omega), if_neg (by omega),
      if_neg (by omega), if_neg (by simp)]
    by_cases hone : data.length = 1
    · rw [if_pos ⟨rfl, hone⟩]
      refine checkData_eq_fault_iff.mpr ⟨?_, Or.inr ⟨?_, rfl, rfl⟩⟩
      · rw [hone]
        decide
      · rw [List.length_append, length_frame] at hsize
        simp only [List.length_cons, List.length_append, List.length_nil]
        exact show 255 < _ by omega
    · rw [if_neg (by omega)]
      refine checkData_of_ne (fun hsum => hone ?_) _
      have hbyte : data.length.toUInt8 = 1 := by
        rw [eq_neg_of_add_eq_zero_right hsum]
        rfl
      rw [← toNat_length hdata, hbyte]
      rfl
  · have hother := parseFrame_other (k := 1) hlength (by omega) hb hstart
      ((frame data).drop 2 ++ rest)
    simpa [frame_eq, damaged, hstart] using hother

theorem parseFrame_set_startCode2 (hlength : length ≤ 247) (hpos : data ≠ [])
    (hdata : data.length < 255) {b : Byte} (hb : b ≠ 0xFF) (rest : Str) :
    parseFrame length ((frame data).set 2 b ++ rest) = damaged data 2 b := by
  rw [damaged, if_neg (by omega), if_neg (by omega), if_neg (by omega), if_pos (Or.inl rfl)]
  by_cases hzero : b = 0
  · -- the length byte is taken for the start code
    subst hzero
    have hlast : data.length.toUInt8 ≠ 0xFF := by
      rw [ne_eq, ← UInt8.toNat_inj, toNat_length hdata]
      exact hdata.ne
    have hnonzero : data.length.toUInt8 ≠ 0 := by
      rw [ne_eq, ← UInt8.toNat_inj, toNat_length hdata]
      exact (List.length_pos_iff.mpr hpos).ne'
    have hother := parseFrame_other (k := 3) hlength (by omega) hnonzero hlast
      ((frame data).drop 4 ++ rest)
    simpa [frame_eq] using hother
  · have hother := parseFrame_other (k := 2) hlength (by omega) hzero hb
      ((frame data).drop 3 ++ rest)
    simpa [frame_eq] using hother

theorem parseFrame_set_length (hlength : length ≤ 247) {i : Nat} (hi : i = 3 ∨ i = 4)
    (hpos : data ≠ []) {b : Byte} (hb : (frame data)[i]? ≠ some b) (rest : Str) :
    parseFrame length ((frame data).set i b ++ rest) = damaged data i b := by
  have hsize := List.length_pos_iff.mpr hpos
  rw [damaged, if_neg (by omega), if_neg (by omega), if_pos (by omega)]
  have hparse : ∀ frameLen lengthCheck : Byte, frameLen + lengthCheck ≠ 0 →
      parseFrame length (0 :: 0 :: 0xFF :: frameLen :: lengthCheck ::
        (data ++ [check data, 0] ++ rest)) = .error (.rejected lengthMismatch) := by
    intro frameLen lengthCheck hsum
    have hstart := parseFrame_start (k := 2) hlength (by omega) (frameLen :: lengthCheck ::
      (data ++ [check data, 0] ++ rest))
    rw [checkBody, checkData_of_ne hsum] at hstart
    exact hstart
  rcases hi with rfl | rfl
  · have hne : b + -data.length.toUInt8 ≠ 0 := by
      rw [ne_eq, add_neg_eq_zero]
      simpa [frame_eq, eq_comm] using hb
    simpa [frame_eq] using hparse b (-data.length.toUInt8) hne
  · have hne : data.length.toUInt8 + b ≠ 0 := by
      rw [ne_eq, add_comm, add_eq_zero_iff_eq_neg]
      simpa [frame_eq, eq_comm] using hb
    simpa [frame_eq] using hparse data.length.toUInt8 b hne

theorem parseFrame_set_data (hlength : length ≤ 247) (hdata : data.length < 255) {i : Nat}
    (hi : i ≤ data.length) {b : Byte} (hb : (frame data)[i + 5]? ≠ some b) (rest : Str) :
    parseFrame length ((frame data).set (i + 5) b ++ rest) = damaged data (i + 5) b := by
  rw [damaged, if_neg (by omega), if_pos (by omega)]
  have hinside : i < (data ++ [check data]).length := by
    rw [List.length_append, List.length_singleton]
    omega
  have hframe : frame data = [0, 0, 0xFF, data.length.toUInt8, -data.length.toUInt8] ++
      ((data ++ [check data]) ++ [0]) := by simp [frame_eq]
  have hchanged : b ≠ (data ++ [check data])[i] := by
    rintro rfl
    refine hb ?_
    rw [hframe, List.getElem?_append_right (by simp),
      List.getElem?_append_left (by simpa [Nat.lt_succ_iff] using hi)]
    simp
  have hcheck := checkData_of_not_zeroSum hdata
    (show ((data ++ [check data]).set i b).length = data.length + 1 by simp)
    ((zeroSum_concat_check data).not_set hinside hchanged) (0 :: rest)
  have hparse := parseFrame_start (k := 2) hlength (by omega) (data.length.toUInt8 ::
    -data.length.toUInt8 :: ((data ++ [check data]).set i b ++ 0 :: rest))
  rw [checkBody, hcheck] at hparse
  have hbuff : (frame data).set (i + 5) b ++ rest = List.replicate 2 0 ++ 0xFF ::
      data.length.toUInt8 :: -data.length.toUInt8 ::
        ((data ++ [check data]).set i b ++ 0 :: rest) := by
    rw [hframe, List.set_append_right _ _ (by simp),
      List.set_append_left _ _ (by simpa [Nat.lt_succ_iff] using hi)]
    simp
  rw [hbuff, hparse]

theorem parseFrame_set_postamble (hlength : length ≤ 247) (hdata : data.length < 255) (b : Byte)
    (rest : Str) :
    parseFrame length ((frame data).set (data.length + 6) b ++ rest) =
      damaged data (data.length + 6) b := by
  rw [damaged, if_pos rfl]
  refine (parseFrame_eq_ok_iff hlength _ _).mpr ⟨2, data.length.toUInt8, -data.length.toUInt8,
    check data, b :: rest, ?_, by omega, (toNat_length hdata).symm, hdata,
    zeroSum_pair_iff.mpr rfl, zeroSum_concat_check data⟩
  have hframe : frame data = (0 :: 0 :: 0xFF :: data.length.toUInt8 :: -data.length.toUInt8 ::
      (data ++ [check data])) ++ [0] := by simp [frame_eq]
  rw [hframe, List.set_append_right _ _ (by simp)]
  simp

theorem parseFrame_set (hlength : length ≤ 247) (hpos : data ≠ []) (hdata : data.length < 255)
    {i : Nat} (hi : i < (frame data).length) {b : Byte} (hb : (frame data)[i]? ≠ some b)
    {rest : Str} (hsize : 260 ≤ (frame data ++ rest).length) :
    parseFrame length ((frame data).set i b ++ rest) = damaged data i b := by
  rw [length_frame] at hi
  match i with
  | 0 => exact parseFrame_set_preamble hlength (by simpa [frame_eq, eq_comm] using hb) rest
  | 1 => exact parseFrame_set_startCode1 hlength hdata (by simpa [frame_eq, eq_comm] using hb) hsize
  | 2 =>
      exact parseFrame_set_startCode2 hlength hpos hdata (by simpa [frame_eq, eq_comm] using hb)
        rest
  | 3 => exact parseFrame_set_length hlength (Or.inl rfl) hpos hb rest
  | 4 => exact parseFrame_set_length hlength (Or.inr rfl) hpos hb rest
  | j + 5 =>
      rcases Nat.lt_or_ge data.length j with hlt | hle
      · have hlast : j + 5 = data.length + 6 := by omega
        rw [hlast]
        exact parseFrame_set_postamble hlength hdata b rest
      · exact parseFrame_set_data hlength hdata hle hb rest

/-- **One wrong byte in a frame of fewer than 255 bytes is noticed**, unless it is the
postamble, which nothing looks at.  It can also keep the driver in a loop for ever: that is
so exactly if the second zero of a frame of one byte is read as the start code. -/
theorem damage_noticed (hlength : length ≤ 247) (hpos : data ≠ []) (hdata : data.length < 255)
    {i : Nat} (hi : i < (frame data).length) {b : Byte} (hb : (frame data)[i]? ≠ some b)
    {rest : Str} (hsize : 260 ≤ (frame data ++ rest).length) :
    (∀ data', parseFrame length ((frame data).set i b ++ rest) = .ok data' ↔
        data' = data ∧ i = data.length + 6) ∧
      ∀ f, parseFrame length ((frame data).set i b ++ rest) = .error (.fault f) ↔
        f = .endless ∧ i = 1 ∧ b = 0xFF ∧ data.length = 1 := by
  rw [parseFrame_set hlength hpos hdata hi hb hsize, damaged]
  have hlong := List.length_pos_iff.mpr hpos
  split_ifs with hlast hbody hcheck hstart hone
  · exact ⟨by simp [hlast, eq_comm], fun f => by simp; omega⟩
  · exact ⟨by simp [hlast], fun f => by simp; omega⟩
  · exact ⟨by simp [hlast], fun f => by simp; omega⟩
  · refine ⟨by simp [hlast], fun f => ?_⟩
    rcases hstart with rfl | hb
    · simp
    · simp [hb]
  · rw [not_or, not_not] at hstart
    exact ⟨by simp [hlast], fun f => by simp [hone, hstart.2, eq_comm]⟩
  · refine ⟨by simp [hlast], fun f => ?_⟩
    rw [not_and] at hone
    simp only [reduceCtorEq, Except.error.injEq, false_iff]
    exact fun h => hone h.2.1 h.2.2.2

theorem damage_noticed_start :
    (∀ data', parseFrame 4 ((frame [0xD5]).set 1 0xFF ++ List.replicate 252 0) = .ok data' ↔
        data' = [0xD5] ∧ 1 = 1 + 6) ∧
      ∀ f, parseFrame 4 ((frame [0xD5]).set 1 0xFF ++ List.replicate 252 0) = .error (.fault f) ↔
        f = .endless ∧ 1 = 1 ∧ (0xFF : Byte) = 0xFF ∧ 1 = 1 :=
  damage_noticed (by decide) (by decide) (by decide) (by decide) (by decide) (by decide +kernel)

end Written

end PN532

end AsyncNFCServer
