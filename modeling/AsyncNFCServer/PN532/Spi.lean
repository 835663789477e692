import AsyncNFCServer.PN532.Chip
import AsyncNFCServer.PN532.Wait

/-!
# The SPI bus

Over SPI the chip takes the least significant bit of a byte first and the Raspberry Pi
sends the most significant one first, so the functions of `pn532_rpi.c` turn every byte
round on its way.  What is sent and what comes back share an array, and the counters
are `uint8_t`.

Each transfer starts with a byte that says what it is.  `Speaks` says how the chip answers
these transfers, and then the bus carries frames (`spi_carries`), though not the longest
ones that the driver would write: 248 bytes of data are not sent at all, and from 249 on
`PN532_SPI_WriteData` does not return (`spi_writeFrame`).
-/

namespace AsyncNFCServer

namespace PN532

variable {σ γ : Type}

/-- What the functions for the SPI bus call. -/
structure SpiBus (σ : Type) where
  /-- `wiringPiSPIDataRW`: the bytes that come back for those that are sent -/
  transfer : Str → Driver σ Str
  digitalWrite : Nat → Bool → Driver σ Unit
  timer : Timer σ
  log : Str → Driver σ Unit

namespace Spi

def statRead : Byte := 0x02

def dataWrite : Byte := 0x01

def dataRead : Byte := 0x03

/-- `_SPI_READY`. -/
def ready : Byte := 0x01

/-- `_NSS_PIN`. -/
def nssPin : Nat := 4

/-- The loop of `reverse_bit` with so many rounds to go. -/
def reverseBitFrom : Nat → Byte → Byte → Byte
  | 0, result, _ => result
  | i + 1, result, num => reverseBitFrom i ((result <<< 1) + (num &&& 1)) (num >>> 1)

/-- `reverse_bit`. -/
def reverseBit (num : Byte) : Byte := reverseBitFrom 8 0 num

variable (bus : SpiBus σ)

/-- `rpi_spi_rw`; the array as it leaves it. -/
def rpiSpiRw (data : Str) (count : Nat) : Driver σ Str := do
  bus.digitalWrite nssPin false
  bus.timer.delay 1
  let sent := (data.take count).map reverseBit
  let received ← bus.transfer sent
  let back := (overwrite received sent).map reverseBit
  bus.timer.delay 1
  bus.digitalWrite nssPin true
  pure (back ++ data.drop count)

/-- `PN532_SPI_ReadData`; `stale n` is what an array of `n` bytes holds before it is
written. -/
def readData (stale : Nat → Str) (count : Nat) : Driver σ (Int × Str) := do
  bus.timer.delay 5
  let frame ← rpiSpiRw bus (overwrite [dataRead] (stale (count + 1))) ((count + 1) % 256)
  if 256 ≤ count then throw .endless
  else pure (0, (frame.drop 1).take count)

/-- `PN532_SPI_WriteData`. -/
def writeData (data : Str) : Driver σ Int :=
  if 256 ≤ data.length then throw .endless
  else do
    let _ ← rpiSpiRw bus (dataWrite :: data) ((data.length + 1) % 256)
    pure 0

/-- A question of `PN532_SPI_WaitReady`.  The next one sends what this one has
received. -/
def pollStatus (status : Str) : Driver σ (Bool × Str) := do
  bus.timer.delay 10
  let status ← rpiSpiRw bus status 2
  pure (decide (status[1]? = some ready), status)

/-- `PN532_SPI_WaitReady`. -/
def waitReady (timeout : Nat) : Driver σ Bool :=
  waitReadyBy bus.timer (pollStatus bus) 5 timeout [statRead, 0x00]

/-- `PN532_SPI_Wakeup`. -/
def wakeup : Driver σ Unit := do
  bus.timer.delay 1000
  bus.digitalWrite nssPin false
  bus.timer.delay 2
  let _ ← rpiSpiRw bus [0x00] 1
  bus.timer.delay 1000

/-- The table that `PN532_SPI_Init` fills in. -/
def pn532 (stale : Nat → Str) : PN532 σ where
  readData := readData bus stale
  writeData := writeData bus
  waitReady := waitReady bus
  wakeup := wakeup bus
  log := bus.log

end Spi

/-! ## The order of the bits -/

/-- What a device that takes the least significant bit first makes of a byte that is
sent to it with the most significant bit first. -/
def lsbFirst (b : Byte) : Byte := ⟨b.toBitVec.reverse⟩

theorem lsbFirst_lsbFirst (b : Byte) : lsbFirst (lsbFirst b) = b := by
  rw [lsbFirst, lsbFirst, BitVec.reverse_reverse_eq]

/-- The loop of `reverse_bit` puts the bits in the other order. -/
theorem reverseBit_eq (b : Byte) : Spi.reverseBit b = lsbFirst b := by
  have hall : ∀ n < 256, Spi.reverseBit (UInt8.ofNat n) = lsbFirst (UInt8.ofNat n) := by
    decide +kernel
  have hbyte := hall b.toNat b.toNat_lt
  rwa [UInt8.ofNat_toNat] at hbyte

theorem map_reverseBit (bytes : Str) :
    (bytes.map lsbFirst).map Spi.reverseBit = bytes := by
  rw [List.map_map]
  have hid : Spi.reverseBit ∘ lsbFirst = id := by
    funext b
    rw [Function.comp_apply, reverseBit_eq, lsbFirst_lsbFirst, id]
  rw [hid, List.map_id]

/-! ## Transfers -/

open Returning

/-- How a chip behaves on the SPI bus, byte by byte in its own order of bits.  The frames
that a command gives rise to are ready at the first question; a later one would send what
came back at the one before, which need not be a status request. -/
structure SpiBus.Speaks (bus : SpiBus σ) (chip : Chip γ) (R : σ → Chip.State γ → Prop)
    (time : σ → Nat) : Prop where
  /-- a status request tells whether a frame is ready -/
  status {s : σ} {c : Chip.State γ} (h : R s c) (filler : Byte) :
    ∃ first s', Returns (bus.transfer ([Spi.statRead, filler].map lsbFirst)) s
      ([first, statusByte c].map lsbFirst) s' ∧ R s' c ∧ time s ≤ time s'
  /-- without a frame nothing looks like a positive answer to a status request -/
  quiet {s : σ} {inside : γ} (h : R s ⟨inside, []⟩) (first second : Byte) :
    ∃ b b' s', Returns (bus.transfer ([first, second].map lsbFirst)) s ([b, b'].map lsbFirst) s' ∧
      b' ≠ Spi.ready ∧ R s' ⟨inside, []⟩ ∧ time s ≤ time s'
  /-- a read brings the oldest frame -/
  frame {s : σ} {inside : γ} {f : Str} {out : List Str} (h : R s ⟨inside, f :: out⟩) {filler : Str}
    (hfits : f.length ≤ filler.length) :
    ∃ first pad s', Returns (bus.transfer ((Spi.dataRead :: filler).map lsbFirst)) s
      ((first :: (f ++ pad)).map lsbFirst) s' ∧ f.length + pad.length = filler.length ∧
      R s' ⟨inside, out⟩ ∧ time s ≤ time s'
  /-- what is written is a command -/
  command {s : σ} {c : Chip.State γ} (h : R s c) (command : Byte) {params : Str}
    (hparams : params.length ≤ 245) :
    ∃ received s', Returns (bus.transfer
        ((Spi.dataWrite :: PN532.frame (hostToPN532 :: command :: params)).map lsbFirst)) s
        received s' ∧
      R s' (chip.accept c command params) ∧ time s ≤ time s'
  pin {s : σ} {c : Chip.State γ} (h : R s c) (pin : Nat) (level : Bool) :
    ∃ s', Returns (bus.digitalWrite pin level) s () s' ∧ R s' c ∧ time s ≤ time s'
  timer (c : Chip.State γ) : bus.timer.Runs time fun s => R s c

section Speaks

variable {bus : SpiBus σ} {chip : Chip γ} {R : σ → Chip.State γ → Prop} {time : σ → Nat} {s : σ}
  {c c' : Chip.State γ} {stale : Nat → Str}

/-- What comes back through `rpi_spi_rw` is what the chip has sent. -/
theorem Spi.exists_rpiSpiRw (h : bus.Speaks chip R time) (hR : R s c) (bytes : Str) :
    ∃ s₁, R s₁ c ∧ time s ≤ time s₁ ∧
      ∀ {received : Str} {s₂ : σ} {c' : Chip.State γ},
        Returns (bus.transfer (bytes.map lsbFirst)) s₁ received s₂ → R s₂ c' →
        ∃ s', Returns (Spi.rpiSpiRw bus bytes bytes.length) s
            ((overwrite received (bytes.map lsbFirst)).map Spi.reverseBit) s' ∧
          R s' c' ∧ time s₂ ≤ time s' := by
  obtain ⟨s₁, hselect, hR₁, htime₁⟩ := h.pin hR Spi.nssPin false
  obtain ⟨s₂, hdelay, hR₂, htime₂⟩ := (h.timer c).delay hR₁ 1
  refine ⟨s₂, hR₂, by omega, fun {received s₃ c'} htransfer hR₃ => ?_⟩
  obtain ⟨s₄, hdelay', hR₄, htime₄⟩ := (h.timer c').delay hR₃ 1
  obtain ⟨s', hdeselect, hR', htime'⟩ := h.pin hR₄ Spi.nssPin true
  have hsent : (bytes.take bytes.length).map Spi.reverseBit = bytes.map lsbFirst := by
    rw [List.take_length]
    exact List.map_congr_left fun b _ => reverseBit_eq b
  refine ⟨s', ?_, hR', by omega⟩
  rw [Spi.rpiSpiRw]
  refine hselect.bind_iff.mpr (hdelay.bind_iff.mpr ?_)
  dsimp only
  rw [hsent]
  refine htransfer.bind_iff.mpr (hdelay'.bind_iff.mpr (hdeselect.bind_iff.mpr ?_))
  refine returns_pure.mpr ⟨?_, rfl⟩
  rw [List.drop_length, List.append_nil]

/-- Turned round twice, as many bytes as were sent come back as the chip meant them. -/
theorem back_eq {bytes received : Str} (h : received.length = bytes.length) :
    (overwrite (received.map lsbFirst) (bytes.map lsbFirst)).map Spi.reverseBit = received := by
  rw [overwrite, List.drop_of_length_le (by simp [h]), List.append_nil, map_reverseBit]

theorem Spi.returns_readData (h : bus.Speaks chip R time) (hstale : ∀ n, (stale n).length = n)
    {inside : γ} {f : Str} {out : List Str} (hR : R s ⟨inside, f :: out⟩) {count : Nat}
    (hfits : f.length ≤ count) (hcount : count ≤ 254) :
    ∃ pad s', Returns (Spi.readData bus stale count) s (0, f ++ pad) s' ∧
      f.length + pad.length = count ∧ R s' ⟨inside, out⟩ := by
  have hfiller : ((stale (count + 1)).drop 1).length = count := by
    rw [List.length_drop, hstale, Nat.add_sub_cancel]
  obtain ⟨s₁, hdelay, hR₁, -⟩ := (h.timer _).delay hR 5
  obtain ⟨s₂, hR₂, -, hrw⟩ :=
    Spi.exists_rpiSpiRw h hR₁ (Spi.dataRead :: (stale (count + 1)).drop 1)
  obtain ⟨first, pad, s₃, htransfer, hlength, hR₃, -⟩ :=
    h.frame hR₂ (show f.length ≤ ((stale (count + 1)).drop 1).length by rwa [hfiller])
  obtain ⟨s', hread, hR', -⟩ := hrw htransfer hR₃
  rw [hfiller] at hlength
  have hall : (f ++ pad).length = count := by rw [List.length_append, hlength]
  rw [back_eq (by rw [List.length_cons, List.length_cons, hall, hfiller]), List.length_cons,
    hfiller] at hread
  refine ⟨pad, s', hdelay.bind_iff.mpr ?_, hlength, hR'⟩
  rw [Nat.mod_eq_of_lt (by omega)]
  refine Returns.bind_iff (a := first :: (f ++ pad)) hread |>.mpr ?_
  rw [if_neg (by omega), List.drop_succ_cons, List.drop_zero, List.take_of_length_le hall.le]
  exact returns_pure.mpr ⟨rfl, rfl⟩

theorem Spi.returns_writeData (h : bus.Speaks chip R time) (hR : R s c) (command : Byte)
    {params : Str} (hparams : params.length ≤ 245) :
    ∃ s', Returns (Spi.writeData bus (PN532.frame (hostToPN532 :: command :: params))) s 0 s' ∧
      R s' (chip.accept c command params) := by
  have hlength : (PN532.frame (hostToPN532 :: command :: params)).length = params.length + 9 :=
    length_frame_cons_cons _ _ _
  obtain ⟨s₁, hR₁, -, hrw⟩ := Spi.exists_rpiSpiRw h hR
    (Spi.dataWrite :: PN532.frame (hostToPN532 :: command :: params))
  obtain ⟨received, s₂, htransfer, hR₂, -⟩ := h.command hR₁ command hparams
  obtain ⟨s', hwrite, hR', -⟩ := hrw htransfer hR₂
  rw [List.length_cons] at hwrite
  refine ⟨s', ?_, hR'⟩
  rw [Spi.writeData, if_neg (by omega), Nat.mod_eq_of_lt (by omega)]
  exact hwrite.bind_iff.mpr (returns_pure.mpr ⟨rfl, rfl⟩)

theorem Spi.returns_waitReady (h : bus.Speaks chip R time) (hR : R s c) (timeout : Nat) :
    ∃ s', Returns (Spi.waitReady bus timeout) s (!c.out.isEmpty) s' ∧ R s' c := by
  obtain ⟨inside, out⟩ := c
  cases out with
  | nil =>
      refine waitReadyBy_of_quiet (A := fun status : Str => ∃ b b', status = [b, b'])
        (h.timer _) (by omega) ?_ hR ⟨_, _, rfl⟩
      rintro s - hR ⟨b, b', rfl⟩
      obtain ⟨s₁, hdelay, hR₁, htime₁⟩ := (h.timer _).delay hR 10
      obtain ⟨s₂, hR₂, htime₂, hrw⟩ := Spi.exists_rpiSpiRw h hR₁ [b, b']
      obtain ⟨first, second, s₃, htransfer, hsecond, hR₃, htime₃⟩ := h.quiet hR₂ b b'
      obtain ⟨s', hstatus, hR', htime'⟩ := hrw htransfer hR₃
      rw [back_eq (show [first, second].length = [b, b'].length from rfl)] at hstatus
      refine ⟨[first, second], s', ?_, ⟨first, second, rfl⟩, hR', by omega⟩
      refine hdelay.bind_iff.mpr (Returns.bind_iff (a := [first, second]) hstatus |>.mpr ?_)
      exact returns_pure.mpr ⟨by simp [hsecond], rfl⟩
  | cons f out =>
      refine waitReadyBy_of_ready (h.timer _) hR fun s hR => ?_
      obtain ⟨s₁, hdelay, hR₁, -⟩ := (h.timer _).delay hR 10
      obtain ⟨s₂, hR₂, -, hrw⟩ := Spi.exists_rpiSpiRw h hR₁ [Spi.statRead, 0x00]
      obtain ⟨first, s₃, htransfer, hR₃, -⟩ := h.status hR₂ 0x00
      obtain ⟨s', hstatus, hR', -⟩ := hrw htransfer hR₃
      have hsame : [first, statusByte (⟨inside, f :: out⟩ : Chip.State γ)].length =
          [Spi.statRead, 0x00].length := rfl
      rw [back_eq hsame] at hstatus
      refine ⟨[first, 0x01], s', ?_, hR'⟩
      refine hdelay.bind_iff.mpr (Returns.bind_iff (a := [first, 0x01]) hstatus |>.mpr ?_)
      exact returns_pure.mpr ⟨rfl, rfl⟩

/-- The SPI bus carries frames, whatever the arrays of its functions hold before. -/
theorem spi_carries (h : bus.Speaks chip R time) (hstale : ∀ n, (stale n).length = n) :
    Carries (Spi.pn532 bus stale) chip R where
  writes hR command params hparams := Spi.returns_writeData h hR command hparams
  waits hR timeout := Spi.returns_waitReady h hR timeout
  acks hR := by
    obtain ⟨pad, s', hread, hlength, hR'⟩ := Spi.returns_readData h hstale hR
      (show 6 ≤ 6 by omega) (by omega)
    rw [eq_nil_of_ack hlength, List.append_nil] at hread
    exact ⟨0, s', hread, hR'⟩
  answers hR count _ hfits hcount := by
    rw [← length_frame] at hfits ⊢
    obtain ⟨pad, s', hread, hlength, hR'⟩ := Spi.returns_readData h hstale hR hfits hcount
    exact ⟨0, pad, s', hread, hlength.le, hR'⟩

/-- **Over SPI a session is a run of the chip**, if no answer is longer than its call
expects. -/
theorem spi_session (h : bus.Speaks chip R time) (hstale : ∀ n, (stale n).length = n) (hR : R s c)
    {calls : List Call} (hbrief : Brief chip calls) :
    ∃ s' out, Returns ((Spi.pn532 bus stale).session calls) s
        (outcomes calls (chip.run c.inside (calls.map Call.request)).2) s' ∧
      R s' ⟨(chip.run c.inside (calls.map Call.request)).1, out⟩ :=
  session_respond (spi_carries h hstale) hR hbrief

end Speaks

/-! ## Frames that are too long for the counters -/

section AnyBus

variable {bus : SpiBus σ} {s s' : σ} {stale : Nat → Str} {data bytes b : Str} {count : Nat}

/-- Between the two states the bytes are transferred, with the chip selected. -/
def SpiBus.Transfers (bus : SpiBus σ) (bytes : Str) (s s' : σ) : Prop :=
  ∃ s₁ s₂ received s₃ s₄, Returns (bus.digitalWrite Spi.nssPin false) s () s₁ ∧
    Returns (bus.timer.delay 1) s₁ () s₂ ∧ Returns (bus.transfer bytes) s₂ received s₃ ∧
    Returns (bus.timer.delay 1) s₃ () s₄ ∧ Returns (bus.digitalWrite Spi.nssPin true) s₄ () s'

/-- All that `rpi_spi_rw` does is a transfer, of as many bytes as it is told. -/
theorem Spi.transfers_of_returns_rpiSpiRw (h : Returns (Spi.rpiSpiRw bus bytes count) s b s') :
    bus.Transfers ((bytes.take count).map lsbFirst) s s' := by
  rw [Spi.rpiSpiRw, returns_bind] at h
  obtain ⟨⟨⟩, s₁, hselect, h⟩ := h
  rw [returns_bind] at h
  obtain ⟨⟨⟩, s₂, hdelay, h⟩ := h
  rw [returns_bind] at h
  obtain ⟨received, s₃, htransfer, h⟩ := h
  rw [returns_bind] at h
  obtain ⟨⟨⟩, s₄, hdelay', h⟩ := h
  rw [returns_bind] at h
  obtain ⟨⟨⟩, s₅, hdeselect, h⟩ := h
  obtain rfl : s' = s₅ := (returns_pure.mp h).2
  have hsent : (bytes.take count).map Spi.reverseBit = (bytes.take count).map lsbFirst :=
    List.map_congr_left fun b _ => reverseBit_eq b
  exact ⟨s₁, s₂, received, s₃, s₄, hselect, hdelay, hsent ▸ htransfer, hdelay', hdeselect⟩

/-- **What is written over SPI.**  A frame is reported as written only if it has at most 248
bytes of data and all that the call has done is to transfer it, and with just 248 of them
nothing; of longer ones `PN532_WriteFrame` does not come back. -/
theorem spi_writeFrame (bus : SpiBus σ) (stale : Nat → Str) (data : Str) (s : σ) :
    (∀ s', Returns ((Spi.pn532 bus stale).writeFrame data) s 0 s' →
      data.length ≤ 248 ∧ bus.Transfers (if data.length = 248 then []
        else (Spi.dataWrite :: frame data).map lsbFirst) s s') ∧
      (249 ≤ data.length → data.length ≤ 255 →
        ((Spi.pn532 bus stale).writeFrame data).run s = .error .endless) := by
  have hlength := length_frame data
  constructor
  · intro s' h
    obtain ⟨-, hwrite⟩ := returns_writeFrame_zero_iff.mp h
    have hdata : Returns (Spi.writeData bus (frame data)) s 0 s' := hwrite
    rw [Spi.writeData] at hdata
    split_ifs at hdata with hlong
    · exact absurd hdata not_returns_throw
    · rw [returns_bind] at hdata
      obtain ⟨b, s₁, hrw, hlast⟩ := hdata
      obtain rfl : s' = s₁ := (returns_pure.mp hlast).2
      have htransfer := Spi.transfers_of_returns_rpiSpiRw hrw
      refine ⟨by omega, ?_⟩
      split_ifs with hlast
      · -- the count has become zero
        have hzero : ((frame data).length + 1) % 256 = 0 := by omega
        rwa [hzero, List.take_zero] at htransfer
      · have hall : (Spi.dataWrite :: frame data).length ≤ ((frame data).length + 1) % 256 := by
          rw [List.length_cons]
          omega
        rwa [List.take_of_length_le hall] at htransfer
  · intro hlong hmax
    have hdata : Spi.writeData bus (frame data) = throw .endless := if_pos (by omega)
    rw [writeFrame, if_neg (by simp only [frameMaxLength]; omega)]
    have hwrite : (Spi.pn532 bus stale).writeData (frame data) = throw .endless := hdata
    rw [hwrite]
    rfl

end AnyBus

end PN532

end AsyncNFCServer
