import AsyncNFCServer.PN532.Chip
import AsyncNFCServer.PN532.Wait

/-!
# The I2C bus

`init_pn532` uses the chip over I2C.  Whatever is read from there starts with a status
byte, and a frame is only given away if the host reads on behind it.  The functions of
`pn532_rpi.c` are given over `read` and `write` on the device; `Speaks` says how the chip
answers these, and then the bus carries frames (`i2c_carries`).
-/

namespace AsyncNFCServer

namespace PN532

variable {σ γ : Type}

/-- What the functions for the I2C bus call. -/
structure I2cBus (σ : Type) where
  /-- `read(fd, buffer, n)`: the bytes that it stores -/
  read : Nat → Driver σ Str
  /-- `write(fd, data, count)` -/
  write : Str → Driver σ Unit
  digitalWrite : Nat → Bool → Driver σ Unit
  timer : Timer σ
  log : Str → Driver σ Unit

namespace I2c

/-- `_I2C_READY`. -/
def ready : Byte := 0x01

/-- `_REQ_PIN`. -/
def reqPin : Nat := 16

variable (bus : I2cBus σ)

/-- `PN532_I2C_ReadData`; `stale n` is what an array of `n` bytes holds before it is
written. -/
def readData (stale : Nat → Str) (count : Nat) : Driver σ (Int × Str) := do
  let bytes ← bus.read 1
  if (overwrite bytes [0x00])[0]? ≠ some ready then pure (-1, [])
  else do
    let bytes ← bus.read (count + 1)
    let frame := overwrite bytes (stale (count + 1))
    -- the counter of the loop is a `uint8_t`
    if 256 ≤ count then throw .endless
    else pure (0, (frame.drop 1).take count)

/-- `PN532_I2C_WriteData`. -/
def writeData (data : Str) : Driver σ Int := do
  bus.write data
  pure 0

/-- A question of `PN532_I2C_WaitReady`. -/
def pollStatus (status : Str) : Driver σ (Bool × Str) := do
  let bytes ← bus.read 1
  pure (decide ((overwrite bytes status)[0]? = some ready), overwrite bytes status)

/-- `PN532_I2C_WaitReady`. -/
def waitReady (timeout : Nat) : Driver σ Bool :=
  waitReadyBy bus.timer (pollStatus bus) 5 timeout [0x00]

/-- `PN532_I2C_Wakeup`. -/
def wakeup : Driver σ Unit := do
  bus.digitalWrite reqPin true
  bus.timer.delay 100
  bus.digitalWrite reqPin false
  bus.timer.delay 100
  bus.digitalWrite reqPin true
  bus.timer.delay 500

/-- The table that `PN532_I2C_Init` fills in. -/
def pn532 (stale : Nat → Str) : PN532 σ where
  readData := readData bus stale
  writeData := writeData bus
  waitReady := waitReady bus
  wakeup := wakeup bus
  log := bus.log

end I2c

open Returning

/-- How a chip behaves on the I2C bus: a read brings the status byte and, if it is longer
than that, the oldest frame; what is written is a command.  The frames that a command gives
rise to are ready at once. -/
structure I2cBus.Speaks (bus : I2cBus σ) (chip : Chip γ) (R : σ → Chip.State γ → Prop)
    (time : σ → Nat) : Prop where
  status {s : σ} {c : Chip.State γ} (h : R s c) :
    ∃ s', Returns (bus.read 1) s [statusByte c] s' ∧ R s' c ∧ time s ≤ time s'
  frame {s : σ} {inside : γ} {f : Str} {out : List Str} (h : R s ⟨inside, f :: out⟩) {count : Nat}
    (hpos : 0 < count) (hfits : f.length ≤ count) :
    ∃ pad s', Returns (bus.read (count + 1)) s (0x01 :: (f ++ pad)) s' ∧
      f.length + pad.length = count ∧ R s' ⟨inside, out⟩
  command {s : σ} {c : Chip.State γ} (h : R s c) (command : Byte) {params : Str}
    (hparams : params.length ≤ 245) :
    ∃ s', Returns (bus.write (PN532.frame (hostToPN532 :: command :: params))) s () s' ∧
      R s' (chip.accept c command params)
  timer (c : Chip.State γ) : bus.timer.Runs time fun s => R s c

section Speaks

variable {bus : I2cBus σ} {chip : Chip γ} {R : σ → Chip.State γ → Prop} {time : σ → Nat} {s : σ}
  {stale : Nat → Str}

theorem I2c.returns_readData (stale : Nat → Str) (h : bus.Speaks chip R time) {inside : γ} {f : Str}
    {out : List Str} (hR : R s ⟨inside, f :: out⟩) {count : Nat} (hpos : 0 < count)
    (hfits : f.length ≤ count) (hcount : count ≤ 254) :
    ∃ pad s', Returns (I2c.readData bus stale count) s (0, f ++ pad) s' ∧
      f.length + pad.length = count ∧ R s' ⟨inside, out⟩ := by
  obtain ⟨s₁, hstatus, hR₁, -⟩ := h.status hR
  obtain ⟨pad, s', hframe, hlength, hR'⟩ := h.frame hR₁ hpos hfits
  refine ⟨pad, s', ?_, hlength, hR'⟩
  have hdata : ((overwrite (0x01 :: (f ++ pad)) (stale (count + 1))).drop 1).take count =
      f ++ pad := by
    have hall : (f ++ pad).length = count := by rw [List.length_append, hlength]
    rw [overwrite, List.cons_append, List.drop_succ_cons, List.drop_zero,
      List.take_left' hall]
  rw [I2c.readData]
  refine hstatus.bind_iff.mpr ?_
  rw [if_neg (by simp [overwrite, statusByte, I2c.ready])]
  refine hframe.bind_iff.mpr ?_
  dsimp only
  rw [if_neg (by omega), hdata]
  exact returns_pure.mpr ⟨rfl, rfl⟩

theorem I2c.returns_pollStatus (h : bus.Speaks chip R time) {c : Chip.State γ} (hR : R s c)
    (status : Str) :
    ∃ status' s', Returns (I2c.pollStatus bus status) s (!c.out.isEmpty, status') s' ∧ R s' c ∧
      time s ≤ time s' := by
  obtain ⟨s', hread, hR', htime⟩ := h.status hR
  refine ⟨overwrite [statusByte c] status, s', hread.bind_iff.mpr (returns_pure.mpr ⟨?_, rfl⟩), hR',
    htime⟩
  cases hout : c.out.isEmpty <;> simp [overwrite, statusByte, hout, I2c.ready]

theorem I2c.returns_waitReady (h : bus.Speaks chip R time) {c : Chip.State γ} (hR : R s c)
    (timeout : Nat) :
    ∃ s', Returns (I2c.waitReady bus timeout) s (!c.out.isEmpty) s' ∧ R s' c := by
  have hpoll := fun (s : σ) (status : Str) (hR : R s c) => I2c.returns_pollStatus h hR status
  cases hout : c.out.isEmpty with
  | true =>
      rw [hout] at hpoll
      refine waitReadyBy_of_quiet (A := fun _ => True) (h.timer c) (by omega) ?_ hR trivial
      intro s status hR _
      obtain ⟨status', s', hquiet, hR', htime⟩ := hpoll s status hR
      exact ⟨status', s', hquiet, trivial, hR', htime⟩
  | false =>
      rw [hout] at hpoll
      refine waitReadyBy_of_ready (h.timer c) hR fun s hR => ?_
      obtain ⟨status', s', hready, hR', -⟩ := hpoll s [0x00] hR
      exact ⟨status', s', hready, hR'⟩

/-- The I2C bus carries frames, whatever the arrays of its functions hold before. -/
theorem i2c_carries (h : bus.Speaks chip R time) (stale : Nat → Str) :
    Carries (I2c.pn532 bus stale) chip R where
  writes hR command params hparams := by
    obtain ⟨s', hwrite, hR'⟩ := h.command hR command hparams
    exact ⟨s', hwrite.bind_iff.mpr (returns_pure.mpr ⟨rfl, rfl⟩), hR'⟩
  waits hR timeout := I2c.returns_waitReady h hR timeout
  acks hR := by
    obtain ⟨pad, s', hread, hlength, hR'⟩ := I2c.returns_readData stale h hR (by omega)
      (show 6 ≤ 6 by omega) (by omega)
    rw [eq_nil_of_ack hlength, List.append_nil] at hread
    exact ⟨0, s', hread, hR'⟩
  answers hR count _ hfits hcount := by
    have hpos : 0 < count := by omega
    rw [← length_frame] at hfits ⊢
    obtain ⟨pad, s', hread, hlength, hR'⟩ :=
      I2c.returns_readData stale h hR hpos hfits hcount
    exact ⟨0, pad, s', hread, hlength.le, hR'⟩

/-- **Over I2C a session is a run of the chip**, if no answer is longer than its call expects:
every call gets the answer to its own request and no other, and nothing of it is left for a
later one. -/
theorem i2c_session (h : bus.Speaks chip R time) (stale : Nat → Str) {c : Chip.State γ} (hR : R s c)
    {calls : List Call} (hbrief : Brief chip calls) :
    ∃ s' out, Returns ((I2c.pn532 bus stale).session calls) s
        (outcomes calls (chip.run c.inside (calls.map Call.request)).2) s' ∧
      R s' ⟨(chip.run c.inside (calls.map Call.request)).1, out⟩ :=
  session_respond (i2c_carries h stale) hR hbrief

end Speaks

end PN532

end AsyncNFCServer
