import AsyncNFCServer.PN532.Chip
import AsyncNFCServer.PN532.Wait

/-!
# The serial line

A serial line has no frames of its own: the bytes of the chip come one after the other.
`PN532_UART_ReadData` finds the end of a frame in its length byte, and asks for as many
bytes as it was told only if that byte is zero, as it is in an acknowledgement.  So it
takes one frame at a time off the line, whatever length its caller expects
(`reads_frames`).

The loops over `serialDataAvail` have no bound of their own: one waits until there is a
byte, another goes on as long as there is one.  Here a loop has as many passes as the bus
says when it starts, and one that needs more does not end.

`Speaks` says what the chip does on the line, and then the line carries frames
(`uart_carries`).
-/

namespace AsyncNFCServer

namespace PN532

variable {σ γ : Type}

/-- What the functions for the serial line call. -/
structure UartBus (σ : Type) where
  /-- `serialDataAvail` -/
  dataAvail : Driver σ Int
  /-- `serialGetchar`, as it is stored in a byte -/
  getchar : Driver σ Byte
  write : Str → Driver σ Unit
  timer : Timer σ
  log : Str → Driver σ Unit
  /-- the passes of a loop that starts in the state -/
  passes : σ → Nat

namespace Uart

variable (bus : UartBus σ)

/-- The next byte, with a pause as long as there is none. -/
def receive : Nat → Driver σ Byte
  | 0 => throw .endless
  | passes + 1 => do
      let avail ← bus.dataAvail
      if avail ≠ 0 then bus.getchar
      else do
        bus.timer.delay 5
        receive passes

/-- So many bytes, as they come. -/
def receiveMany : Nat → Driver σ Str
  | 0 => pure []
  | n + 1 => do
      let b ← receive bus (bus.passes (← get))
      let bytes ← receiveMany n
      pure (b :: bytes)

/-- The `length` of `PN532_UART_ReadData`, with the first four bytes in `data`. -/
def frameLength (data : Str) (count : Nat) : Nat :=
  match data[3]? with
  | some b => if b ≠ 0 then b.toNat + 7 else count
  | none => count

/-- `PN532_UART_ReadData`. -/
def readData (count : Nat) : Driver σ (Int × Str) := do
  let front ← receiveMany bus 4
  let rest ← receiveMany bus (frameLength front count - 4)
  pure (0, front ++ rest)

/-- The loop of `PN532_UART_WriteData`: what nobody has read is thrown away. -/
def drain : Nat → Driver σ Unit
  | 0 => throw .endless
  | passes + 1 => do
      let avail ← bus.dataAvail
      if avail ≠ 0 then do
        let _ ← bus.getchar
        drain passes
      else pure ()

/-- `PN532_UART_WriteData`. -/
def writeData (data : Str) : Driver σ Int := do
  drain bus (bus.passes (← get))
  bus.write data
  pure 0

/-- A question of `PN532_UART_WaitReady`. -/
def pollAvailable (_ : Unit) : Driver σ (Bool × Unit) := do
  let avail ← bus.dataAvail
  pure (decide (0 < avail), ())

/-- `PN532_UART_WaitReady`. -/
def waitReady (timeout : Nat) : Driver σ Bool :=
  waitReadyBy bus.timer (pollAvailable bus) 50 timeout ()

/-- What `PN532_UART_Wakeup` sends. -/
def wakeupBytes : Str :=
  [0x55, 0x55, 0x00, 0x00, 0x00, 0x00, 0x00, 0x00, 0x00, 0x00, 0x00, 0x00, 0x00, 0x00, 0x00, 0x00,
    0xFF, 0x03, 0xFD, 0xD4, 0x14, 0x01, 0x17, 0x00]

/-- `PN532_UART_Wakeup`. -/
def wakeup : Driver σ Unit := do
  bus.write wakeupBytes
  bus.timer.delay 50

/-- The table that `PN532_UART_Init` fills in. -/
def pn532 : PN532 σ where
  readData := readData bus
  writeData := writeData bus
  waitReady := waitReady bus
  wakeup := wakeup bus
  log := bus.log

end Uart

open Returning

/-- How a chip behaves on the line; `R` tells what the chip has sent and nobody has
read.  The frames that a command gives rise to are on the line at once, and a loop has
more passes than there are bytes. -/
structure UartBus.Speaks (bus : UartBus σ) (chip : Chip γ) (R : σ → γ → Str → Prop)
    (time : σ → Nat) : Prop where
  dataAvail {s : σ} {inside : γ} {bytes : Str} (h : R s inside bytes) :
    ∃ s', Returns bus.dataAvail s bytes.length s' ∧ R s' inside bytes ∧ time s ≤ time s'
  getchar {s : σ} {inside : γ} {b : Byte} {bytes : Str} (h : R s inside (b :: bytes)) :
    ∃ s', Returns bus.getchar s b s' ∧ R s' inside bytes
  passes {s : σ} {inside : γ} {bytes : Str} (h : R s inside bytes) : bytes.length < bus.passes s
  command {s : σ} {inside : γ} (h : R s inside []) (command : Byte) {params : Str}
    (hparams : params.length ≤ 245) :
    ∃ s', Returns (bus.write (frame (hostToPN532 :: command :: params))) s () s' ∧
      R s' (chip.respond inside command params).1
        (chip.accept ⟨inside, []⟩ command params).out.flatten
  timer (inside : γ) (bytes : Str) : bus.timer.Runs time fun s => R s inside bytes

section Speaks

variable {bus : UartBus σ} {chip : Chip γ} {R : σ → γ → Str → Prop} {time : σ → Nat} {s : σ}
  {inside : γ}

/-- A byte that is there is read without a pause. -/
theorem Uart.returns_receive (h : bus.Speaks chip R time) {b : Byte} {bytes : Str}
    (hR : R s inside (b :: bytes)) {passes : Nat} (hpasses : 0 < passes) :
    ∃ s', Returns (Uart.receive bus passes) s b s' ∧ R s' inside bytes := by
  obtain ⟨passes, rfl⟩ := Nat.exists_eq_succ_of_ne_zero hpasses.ne'
  obtain ⟨s₁, havail, hR₁, -⟩ := h.dataAvail hR
  obtain ⟨s', hgetchar, hR'⟩ := h.getchar hR₁
  refine ⟨s', havail.bind_iff.mpr ?_, hR'⟩
  rw [if_pos (by simp only [List.length_cons]; omega)]
  exact hgetchar

/-- As many passes as there are bytes, and one more, leave nothing on the line. -/
theorem Uart.returns_drain (h : bus.Speaks chip R time) {passes : Nat} {bytes : Str}
    (hpasses : bytes.length < passes) (hR : R s inside bytes) :
    ∃ s', Returns (Uart.drain bus passes) s () s' ∧ R s' inside [] := by
  induction passes generalizing s bytes with
  | zero => exact absurd hpasses (Nat.not_lt_zero _)
  | succ passes ih =>
      obtain ⟨s₁, havail, hR₁, -⟩ := h.dataAvail hR
      cases bytes with
      | nil => exact ⟨s₁, havail.bind_iff.mpr (returns_pure.mpr ⟨rfl, rfl⟩), hR₁⟩
      | cons b bytes =>
          rw [List.length_cons] at hpasses
          obtain ⟨s₂, hgetchar, hR₂⟩ := h.getchar hR₁
          obtain ⟨s', hdrain, hR'⟩ := ih (Nat.lt_of_succ_lt_succ hpasses) hR₂
          refine ⟨s', havail.bind_iff.mpr ?_, hR'⟩
          rw [if_pos (by simp only [List.length_cons]; omega)]
          exact hgetchar.bind_iff.mpr hdrain

theorem Uart.returns_receiveMany (h : bus.Speaks chip R time) (bytes : Str) {rest : Str}
    (hR : R s inside (bytes ++ rest)) :
    ∃ s', Returns (Uart.receiveMany bus bytes.length) s bytes s' ∧ R s' inside rest := by
  induction bytes generalizing s with
  | nil => exact ⟨s, returns_pure.mpr ⟨rfl, rfl⟩, hR⟩
  | cons b bytes ih =>
      obtain ⟨s₁, hfirst, hR₁⟩ := Uart.returns_receive h hR (Nat.zero_lt_of_lt (h.passes hR))
      obtain ⟨s', hmany, hR'⟩ := ih hR₁
      refine ⟨s', returns_get.bind_iff.mpr (hfirst.bind_iff.mpr ?_), hR'⟩
      exact hmany.bind_iff.mpr (returns_pure.mpr ⟨rfl, rfl⟩)

/-- A read of as many bytes as their first four announce. -/
theorem Uart.returns_readData (h : bus.Speaks chip R time) {bytes rest : Str} {count : Nat}
    (hlong : 4 ≤ bytes.length) (hlength : Uart.frameLength (bytes.take 4) count = bytes.length)
    (hR : R s inside (bytes ++ rest)) :
    ∃ s', Returns (Uart.readData bus count) s (0, bytes) s' ∧ R s' inside rest := by
  have hsplit : bytes ++ rest = bytes.take 4 ++ (bytes.drop 4 ++ rest) := by
    rw [← List.append_assoc, List.take_append_drop]
  have hfour : (bytes.take 4).length = 4 := by
    rw [List.length_take]
    omega
  rw [hsplit] at hR
  obtain ⟨s₁, hfront, hR₁⟩ := Uart.returns_receiveMany h (bytes.take 4) hR
  obtain ⟨s', hrest, hR'⟩ := Uart.returns_receiveMany h (bytes.drop 4) hR₁
  rw [hfour] at hfront
  rw [List.length_drop, ← hlength] at hrest
  refine ⟨s', hfront.bind_iff.mpr (hrest.bind_iff.mpr (returns_pure.mpr ⟨?_, rfl⟩)), hR'⟩
  rw [List.take_append_drop]

theorem Uart.frameLength_frame {data : Str} (hpos : data ≠ []) (hmax : data.length ≤ 255)
    (count : Nat) : Uart.frameLength ((frame data).take 4) count = (frame data).length := by
  have hbyte : data.length.toUInt8.toNat = data.length := Nat.mod_eq_of_lt (by omega)
  have hne : data.length.toUInt8 ≠ 0 := by
    rw [ne_eq, ← UInt8.toNat_inj, hbyte]
    exact (List.length_pos_iff.mpr hpos).ne'
  rw [length_frame, frame_eq]
  simp [Uart.frameLength, hne, hbyte]

/-- A frame is taken off the line, and no more than that. -/
theorem Uart.returns_readData_frame (h : bus.Speaks chip R time) {data rest : Str}
    (hpos : data ≠ []) (hmax : data.length ≤ 255) (hR : R s inside (frame data ++ rest))
    (count : Nat) :
    ∃ s', Returns (Uart.readData bus count) s (0, frame data) s' ∧ R s' inside rest :=
  Uart.returns_readData h (by
    rw [length_frame]
    omega) (Uart.frameLength_frame hpos hmax count) hR

/-- Reads one after the other. -/
def Uart.readAll (bus : UartBus σ) : List Nat → Driver σ (List Str)
  | [] => pure []
  | count :: counts => do
      let (_, bytes) ← Uart.readData bus count
      let frames ← Uart.readAll bus counts
      pure (bytes :: frames)

/-- **Frame by frame.**  Frames that stand one behind the other on the line are read one by
one, in order and whole, whatever lengths are asked for, and nothing behind them is
touched. -/
theorem reads_frames (h : bus.Speaks chip R time) {datas : List Str}
    (hdatas : ∀ data ∈ datas, data ≠ [] ∧ data.length ≤ 255) {counts : List Nat}
    (hcounts : counts.length = datas.length) {rest : Str}
    (hR : R s inside ((datas.map frame).flatten ++ rest)) :
    ∃ s', Returns (Uart.readAll bus counts) s (datas.map frame) s' ∧ R s' inside rest := by
  induction datas generalizing s counts with
  | nil =>
      rw [List.length_eq_zero_iff.mp hcounts]
      exact ⟨s, returns_pure.mpr ⟨rfl, rfl⟩, hR⟩
  | cons data datas ih =>
      cases counts with
      | nil => exact absurd hcounts (by simp)
      | cons count counts =>
          obtain ⟨hpos, hmax⟩ := hdatas data (by simp)
          rw [List.map_cons, List.flatten_cons, List.append_assoc] at hR
          obtain ⟨s₁, hread, hR₁⟩ := Uart.returns_readData_frame h hpos hmax hR count
          obtain ⟨s', hall, hR'⟩ := ih (fun later hlater => hdatas later (by simp [hlater]))
            (by simpa using hcounts) hR₁
          exact ⟨s', hread.bind_iff.mpr (hall.bind_iff.mpr (returns_pure.mpr ⟨rfl, rfl⟩)), hR'⟩

/-- The frames that the chip has ready are what is on the line. -/
def OnLine (R : σ → γ → Str → Prop) (s : σ) (c : Chip.State γ) : Prop :=
  (∀ f ∈ c.out, f ≠ []) ∧ R s c.inside c.out.flatten

/-- The chip is found ready exactly if there is a byte. -/
theorem Uart.returns_pollAvailable (h : bus.Speaks chip R time) {bytes : Str}
    (hR : R s inside bytes) :
    ∃ s', Returns (Uart.pollAvailable bus ()) s (!bytes.isEmpty, ()) s' ∧ R s' inside bytes ∧
      time s ≤ time s' := by
  obtain ⟨s', havail, hR', htime⟩ := h.dataAvail hR
  refine ⟨s', havail.bind_iff.mpr (returns_pure.mpr ⟨?_, rfl⟩), hR', htime⟩
  cases bytes <;> simp

theorem Uart.returns_waitReady (h : bus.Speaks chip R time) {bytes : Str} (hR : R s inside bytes)
    (timeout : Nat) :
    ∃ s', Returns (Uart.waitReady bus timeout) s (!bytes.isEmpty) s' ∧ R s' inside bytes := by
  cases bytes with
  | nil =>
      refine waitReadyBy_of_quiet (A := fun _ => True) (h.timer inside []) (by omega) ?_ hR trivial
      intro s _ hR _
      obtain ⟨s', hpoll, hR', htime⟩ := Uart.returns_pollAvailable h hR
      exact ⟨(), s', hpoll, trivial, hR', htime⟩
  | cons b bytes =>
      refine waitReadyBy_of_ready (h.timer inside (b :: bytes)) hR fun s hR => ?_
      obtain ⟨s', hpoll, hR', -⟩ := Uart.returns_pollAvailable h hR
      exact ⟨(), s', hpoll, hR'⟩

/-- The serial line carries frames. -/
theorem uart_carries (h : bus.Speaks chip R time) : Carries (Uart.pn532 bus) chip (OnLine R) where
  writes {s c} hR command params hparams := by
    obtain ⟨s₁, hdrain, hR₁⟩ := Uart.returns_drain h (h.passes hR.2) hR.2
    obtain ⟨s', hwrite, hR'⟩ := h.command hR₁ command hparams
    refine ⟨s', returns_get.bind_iff.mpr (hdrain.bind_iff.mpr (hwrite.bind_iff.mpr
      (returns_pure.mpr ⟨rfl, rfl⟩))), ?_, hR'⟩
    intro f hf
    rcases List.mem_cons.mp hf with rfl | hanswer
    · exact List.cons_ne_nil _ _
    · rw [Option.mem_toList, Option.map_eq_some_iff] at hanswer
      obtain ⟨payload, -, rfl⟩ := hanswer
      exact List.cons_ne_nil _ _
  waits {s c} hR timeout := by
    obtain ⟨s', hwait, hR'⟩ := Uart.returns_waitReady h hR.2 timeout
    have hempty : c.out.flatten.isEmpty = c.out.isEmpty := by
      rw [Bool.eq_iff_iff, List.isEmpty_iff, List.isEmpty_iff, List.flatten_eq_nil_iff]
      constructor
      · intro hall
        exact List.eq_nil_iff_forall_not_mem.mpr fun f hf => hR.1 f hf (hall f hf)
      · rintro hnil f hf
        exact absurd hf (by simp [hnil])
    rw [hempty] at hwait
    exact ⟨s', hwait, hR.1, hR'⟩
  acks {s inside out} hR := by
    obtain ⟨hall, hline⟩ := hR
    have hsix : Uart.frameLength (ack.take 4) 6 = ack.length := rfl
    obtain ⟨s', hread, hR'⟩ := Uart.returns_readData h (by decide) hsix hline
    exact ⟨0, s', hread, fun f hf => hall f (List.mem_cons_of_mem _ hf), hR'⟩
  answers {s inside data out} hR count hdata hfits hcount := by
    obtain ⟨hall, hline⟩ := hR
    obtain ⟨s', hread, hR'⟩ := Uart.returns_readData_frame h hdata (by omega) hline count
    refine ⟨0, [], s', by rwa [List.append_nil], ?_, fun f hf => hall f (List.mem_cons_of_mem _ hf),
      hR'⟩
    rw [List.length_nil]
    omega

/-- **Over the serial line a session is a run of the chip**, whatever is still unread when it
starts, if no answer is longer than its call expects. -/
theorem uart_session (h : bus.Speaks chip R time) {c : Chip.State γ} (hR : OnLine R s c)
    {calls : List Call} (hbrief : Brief chip calls) :
    ∃ s' out, Returns ((Uart.pn532 bus).session calls) s
        (outcomes calls (chip.run c.inside (calls.map Call.request)).2) s' ∧
      OnLine R s' ⟨(chip.run c.inside (calls.map Call.request)).1, out⟩ :=
  session_respond (uart_carries h) hR hbrief

end Speaks

end PN532

end AsyncNFCServer
