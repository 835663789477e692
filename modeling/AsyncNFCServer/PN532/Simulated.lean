import AsyncNFCServer.PN532.I2c
import AsyncNFCServer.PN532.Spi
import AsyncNFCServer.PN532.Uart

/-!
# Buses in software

For every chip there is a bus of each kind to it: one that keeps the chip and the time in
its state.  So what `Speaks` asks of the hardware can be had, whatever the chip is.
-/

namespace AsyncNFCServer

namespace PN532

open Returning

variable {σ γ : Type}

/-- A call that always returns. -/
def act {α : Type} (f : σ → α × σ) : Driver σ α := fun s => .ok (f s)

theorem returns_act {α : Type} {f : σ → α × σ} {s s' : σ} {a : α} (h : f s = (a, s')) :
    Returns (act f) s a s' := congrArg Except.ok h

/-- Bytes made as many as asked for. -/
def padTo (n : Nat) (bytes : Str) : Str := bytes.take n ++ List.replicate (n - bytes.length) 0

theorem padTo_eq {n : Nat} {bytes : Str} (h : bytes.length ≤ n) :
    padTo n bytes = bytes ++ List.replicate (n - bytes.length) 0 := by
  rw [padTo, List.take_of_length_le h]

/-- What a chip makes of bytes that are written to it. -/
def Chip.receive (chip : Chip γ) (c : Chip.State γ) (bytes : Str) : Chip.State γ :=
  match parseFrame 247 bytes with
  | .ok (direction :: command :: params) =>
      if direction = hostToPN532 then chip.accept c command params else c
  | _ => c

theorem Chip.receive_frame (chip : Chip γ) (c : Chip.State γ) (command : Byte) {params : Str}
    (hparams : params.length ≤ 245) :
    chip.receive c (frame (hostToPN532 :: command :: params)) = chip.accept c command params := by
  have hdata : (hostToPN532 :: command :: params).length < 255 := by
    rw [List.length_cons, List.length_cons]
    omega
  have hparse := (parseFrame_eq_ok_iff (show 247 ≤ 247 by omega) _ _).mpr
    (holds_frame hdata (show 0 + 2 < 247 + 7 by omega) [])
  rw [List.append_nil, List.replicate_zero, List.nil_append] at hparse
  rw [receive, hparse]
  exact if_pos rfl

/-- A single byte is not a frame. -/
theorem Chip.receive_singleton (chip : Chip γ) (c : Chip.State γ) (b : Byte) :
    chip.receive c [b] = c := by
  have hparse : ∀ data, parseFrame 247 [b] ≠ .ok data := by
    intro data h
    obtain ⟨k, frameLen, lengthCheck, dataCheck, rest, hbuff, -⟩ :=
      (parseFrame_eq_ok_iff (by omega) _ _).mp h
    have hlength := congrArg List.length hbuff
    simp only [List.length_append, List.length_cons, List.length_nil] at hlength
    omega
  rw [receive]
  split
  · rename_i h
    exact absurd h (hparse _)
  · rfl

/-! ## Time -/

def Timespec.ofTotal (n : Nat) : Timespec :=
  ⟨n / 1000000000, n % 1000000000, Nat.mod_lt _ (by omega)⟩

theorem Timespec.total_ofTotal (n : Nat) : (ofTotal n).total = n := by
  rw [total, ofTotal, Nat.div_add_mod']

/-- A timer over a state with the time in it. -/
def timerOf (time : σ → Nat) (setTime : Nat → σ → σ) : Timer σ where
  now := act fun s => (.ofTotal (time s), s)
  delay n := act fun s => ((), setTime (time s + n * 1000000) s)

theorem timerOf_runs {time : σ → Nat} {setTime : Nat → σ → σ} {J : σ → Prop}
    (htime : ∀ n s, time (setTime n s) = n) (hJ : ∀ n s, J s → J (setTime n s)) :
    (timerOf time setTime).Runs time J where
  now h := ⟨_, _, returns_act rfl, h, (Timespec.total_ofTotal _).ge, (Timespec.total_ofTotal _).le⟩
  delay h _ := ⟨_, returns_act rfl, hJ _ _ h, (htime _ _).ge⟩

/-- A chip, and the time in nanoseconds. -/
structure Sim (γ : Type) where
  chip : Chip.State γ
  time : Nat

def Sim.timer : Timer (Sim γ) := timerOf Sim.time fun n s => { s with time := n }

theorem Sim.timer_runs (c : Chip.State γ) : Sim.timer.Runs Sim.time fun s : Sim γ => s.chip = c :=
  timerOf_runs (fun _ _ => rfl) fun _ _ h => h

/-- The chip without the frame that it has given away. -/
def Sim.pop (s : Sim γ) (out : List Str) : Sim γ := { s with chip := ⟨s.chip.inside, out⟩ }

/-! ## The buses -/

def I2c.simulated (chip : Chip γ) : I2cBus (Sim γ) where
  read := fun n => act fun s =>
    if n ≤ 1 then ([statusByte s.chip], s)
    else
      match s.chip.out with
      | [] => (padTo n [statusByte s.chip], s)
      | f :: out => (0x01 :: padTo (n - 1) f, s.pop out)
  write bytes := act fun s => ((), { s with chip := chip.receive s.chip bytes })
  digitalWrite _ _ := pure ()
  timer := Sim.timer
  log _ := pure ()

theorem i2c_simulated_speaks (chip : Chip γ) :
    (I2c.simulated chip).Speaks chip (fun s c => s.chip = c) Sim.time where
  status {s c} h := ⟨s, returns_act (by rw [if_pos (by omega), h]), h, Nat.le_refl _⟩
  frame {s inside f out} h {count} hpos hfits := by
    refine ⟨List.replicate (count - f.length) 0, s.pop out, returns_act ?_, ?_, ?_⟩
    · rw [← padTo_eq hfits, if_neg (by omega), h, Nat.add_sub_cancel]
    · rw [List.length_replicate]
      omega
    · rw [Sim.pop, h]
  command {s c} h command params hparams :=
    ⟨_, returns_act rfl, by rw [h]; exact chip.receive_frame c command hparams⟩
  timer c := Sim.timer_runs c

/-- What the chip makes of a transfer, in its own order of bits. -/
def Spi.answer (chip : Chip γ) (s : Sim γ) : Str → Str × Sim γ
  | first :: rest =>
      if first = statRead then (0x00 :: padTo rest.length [statusByte s.chip], s)
      else if first = dataWrite then
        (List.replicate (rest.length + 1) 0, { s with chip := chip.receive s.chip rest })
      else if first = dataRead then
        match s.chip.out with
        | [] => (List.replicate (rest.length + 1) 0, s)
        | f :: out => (0x00 :: padTo rest.length f, s.pop out)
      else (List.replicate (rest.length + 1) 0, s)
  | [] => ([], s)

def Spi.simulated (chip : Chip γ) : SpiBus (Sim γ) where
  transfer bytes := act fun s =>
    ((Spi.answer chip s (bytes.map lsbFirst)).1.map lsbFirst,
      (Spi.answer chip s (bytes.map lsbFirst)).2)
  digitalWrite _ _ := pure ()
  timer := Sim.timer
  log _ := pure ()

theorem map_lsbFirst_map (bytes : Str) : (bytes.map lsbFirst).map lsbFirst = bytes := by
  rw [List.map_map, show lsbFirst ∘ lsbFirst = id from funext lsbFirst_lsbFirst, List.map_id]

theorem Spi.returns_transfer {chip : Chip γ} {s s' : Sim γ} {bytes received : Str}
    (h : Spi.answer chip s bytes = (received, s')) :
    Returns ((Spi.simulated chip).transfer (bytes.map lsbFirst)) s (received.map lsbFirst) s' := by
  refine returns_act ?_
  rw [map_lsbFirst_map, h]

theorem spi_simulated_speaks (chip : Chip γ) :
    (Spi.simulated chip).Speaks chip (fun s c => s.chip = c) Sim.time where
  status {s c} h filler := ⟨0x00, s, Spi.returns_transfer (by rw [← h]; rfl), h, Nat.le_refl _⟩
  quiet {s inside} h first second := by
    obtain ⟨c, time⟩ := s
    obtain rfl : c = ⟨inside, []⟩ := h
    have hanswer : ∃ b', Spi.answer chip ⟨⟨inside, []⟩, time⟩ [first, second] =
        ([0x00, b'], ⟨⟨inside, []⟩, time⟩) ∧ b' ≠ Spi.ready := by
      rw [Spi.answer]
      split_ifs with hstatus hwrite hread
      · exact ⟨0x00, rfl, by decide⟩
      · rw [chip.receive_singleton]
        exact ⟨0x00, rfl, by decide⟩
      · exact ⟨0x00, rfl, by decide⟩
      · exact ⟨0x00, rfl, by decide⟩
    obtain ⟨b', hanswer, hnot⟩ := hanswer
    exact ⟨0x00, b', _, Spi.returns_transfer hanswer, hnot, rfl, Nat.le_refl _⟩
  frame {s inside f out} h filler hfits := by
    refine ⟨0x00, List.replicate (filler.length - f.length) 0, s.pop out,
      Spi.returns_transfer ?_, ?_, ?_, Nat.le_refl _⟩
    · rw [← padTo_eq hfits, Spi.answer, if_neg (by decide), if_neg (by decide), if_pos rfl, h]
    · rw [List.length_replicate]
      omega
    · rw [Sim.pop, h]
  command {s c} h command params hparams := by
    refine ⟨_, _, Spi.returns_transfer rfl, ?_, Nat.le_refl _⟩
    rw [← h]
    exact chip.receive_frame s.chip command hparams
  pin {s c} h pin level := ⟨s, returns_pure.mpr ⟨rfl, rfl⟩, h, Nat.le_refl _⟩
  timer c := Sim.timer_runs c

/-- A chip, what it has sent that nobody has read, and the time in nanoseconds. -/
structure Line (γ : Type) where
  inside : γ
  unread : Str
  time : Nat

def Line.timer : Timer (Line γ) := timerOf Line.time fun n s => { s with time := n }

theorem Line.timer_runs (inside : γ) (bytes : Str) :
    Line.timer.Runs Line.time fun s : Line γ => s.inside = inside ∧ s.unread = bytes :=
  timerOf_runs (fun _ _ => rfl) fun _ _ h => h

/-- The line after bytes that are written to it. -/
def Line.write (chip : Chip γ) (s : Line γ) (bytes : Str) : Line γ where
  inside := (chip.receive ⟨s.inside, []⟩ bytes).inside
  unread := s.unread ++ (chip.receive ⟨s.inside, []⟩ bytes).out.flatten
  time := s.time

def Uart.simulated (chip : Chip γ) : UartBus (Line γ) where
  dataAvail := act fun s => (s.unread.length, s)
  getchar := act fun s => (s.unread.headD 0xFF, { s with unread := s.unread.tail })
  write bytes := act fun s => ((), s.write chip bytes)
  timer := Line.timer
  log _ := pure ()
  passes s := s.unread.length + 1

theorem uart_simulated_speaks (chip : Chip γ) :
    (Uart.simulated chip).Speaks chip (fun s inside bytes => s.inside = inside ∧ s.unread = bytes)
      Line.time where
  dataAvail {s inside bytes} h := ⟨s, returns_act (by rw [h.2]), h, Nat.le_refl _⟩
  getchar {s inside b bytes} h :=
    ⟨{ s with unread := bytes }, returns_act (by rw [h.2]; rfl), h.1, rfl⟩
  passes {s inside bytes} h := by
    rw [← h.2]
    exact Nat.lt_succ_self _
  command {s inside} h command params hparams := by
    refine ⟨_, returns_act rfl, ?_, ?_⟩
    · simp only [Line.write, h.1, chip.receive_frame _ command hparams]
      rfl
    · simp only [Line.write, h.1, h.2, chip.receive_frame _ command hparams]
      rfl
  timer inside bytes := Line.timer_runs inside bytes

/-! ## A chip that counts -/

/-- A chip that answers every command with the number of commands before it. -/
def countingChip : Chip Nat where
  respond n _ _ := (n + 1, some [n.toUInt8])

/-- Arrays that hold zeros. -/
def zeros (n : Nat) : Str := List.replicate n 0

/-- Two frames on the line, read for lengths that are not theirs. -/
theorem reads_frames_two : ∃ s', Returns (Uart.readAll (Uart.simulated countingChip) [0, 300])
      ⟨0, frame [0xD5, 0x03] ++ (frame [0xD5, 0x15, 0x07] ++ [0xAA]), 0⟩
      [frame [0xD5, 0x03], frame [0xD5, 0x15, 0x07]] s' ∧ s'.inside = 0 ∧ s'.unread = [0xAA] :=
  reads_frames (uart_simulated_speaks countingChip)
    (show ∀ data ∈ ([[0xD5, 0x03], [0xD5, 0x15, 0x07]] : List Str), data ≠ [] ∧ data.length ≤ 255 by
      decide) rfl ⟨rfl, rfl⟩

/-- A chip that is never ready is waited for, for 30 milliseconds. -/
theorem not_given_up_early_simulated : ∃ s' : Sim Nat,
    Returns (waitReadyBy Sim.timer (fun _ => pure (false, ())) 5 30 ()) ⟨⟨0, []⟩, 0⟩ false s' ∧
      0 + 30 * 1000000 < s'.time := by
  have hquiet : ∃ s', Returns (waitReadyBy Sim.timer (fun _ => pure (false, ())) 5 30 ())
      (⟨⟨0, []⟩, 0⟩ : Sim Nat) false s' ∧ s'.chip = ⟨0, []⟩ :=
    waitReadyBy_of_quiet (A := fun _ => True) (Sim.timer_runs ⟨0, []⟩) (by omega)
      (fun s _ hJ _ => ⟨(), s, returns_pure.mpr ⟨rfl, rfl⟩, trivial, hJ, Nat.le_refl _⟩) rfl trivial
  obtain ⟨s', hwait, -⟩ := hquiet
  exact ⟨s', hwait, not_given_up_early (Sim.timer_runs ⟨0, []⟩)
    (fun s a r s' hJ h => (returns_pure.mp h).2 ▸ hJ) rfl hwait⟩

/-- A request without parameters that expects one byte. -/
def countingCall (command : Byte) (hcommand : command ≠ 0xFF) : Call where
  stack := .filled 0
  request := ⟨command, [], 1, 1000⟩
  response := [0xAA]
  fits := ⟨Nat.zero_le _, show 1 ≤ 245 by omega, hcommand⟩
  room := Nat.le_refl _

/-- The first command is answered with 0. -/
theorem call_succeeds_iff_counting : ∃ s' payload left,
    Exchange (I2c.pn532 (I2c.simulated countingChip) zeros) (.filled 0) ⟨0x02, [], 1, 1000⟩
        ⟨⟨0, []⟩, 0⟩ payload left s' ∧ (1 : Int) = payload.length ∧
      [0x00] = overwrite (handedOn ⟨0x02, [], 1, 1000⟩ payload left) [0xAA] := by
  obtain ⟨s', hcall, -⟩ := (i2c_carries (i2c_simulated_speaks countingChip) zeros).call_respond
    (s := ⟨⟨0, []⟩, 0⟩) (c := ⟨0, []⟩) (q := ⟨0x02, [], 1, 1000⟩) [0xAA] rfl
    ⟨by decide, by decide, by decide⟩
    (fun payload hpayload => (congrArg List.length (Option.some.inj hpayload)).ge) (by decide)
    (.filled 0)
  exact ⟨s', (call_succeeds_iff (by decide) (by decide) (by decide)).mp ⟨hcall, by decide⟩⟩

theorem brief_counting (calls : List Call) (h : ∀ call ∈ calls, call.request.responseLength = 1) :
    Brief countingChip calls := by
  intro call hcall n payload hpayload
  rw [h call hcall, ← Option.some.inj hpayload]
  exact Nat.le_refl 1

def twoCalls : List Call := [countingCall 0x02 (by decide), countingCall 0x14 (by decide)]

theorem brief_twoCalls : Brief countingChip twoCalls := brief_counting _ (by decide)

/-- The second call gets the second answer. -/
theorem i2c_session_counting : ∃ s' out,
    Returns ((I2c.pn532 (I2c.simulated countingChip) zeros).session twoCalls) ⟨⟨0, []⟩, 0⟩
      [(1, [0x00]), (1, [0x01])] s' ∧ s'.chip = ⟨2, out⟩ :=
  i2c_session (i2c_simulated_speaks countingChip) zeros rfl brief_twoCalls

theorem spi_session_counting : ∃ s' out,
    Returns ((Spi.pn532 (Spi.simulated countingChip) zeros).session twoCalls) ⟨⟨0, []⟩, 0⟩
      [(1, [0x00]), (1, [0x01])] s' ∧ s'.chip = ⟨2, out⟩ :=
  spi_session (spi_simulated_speaks countingChip) (fun _ => List.length_replicate) rfl
    brief_twoCalls

/-- Two bytes that nobody has read are thrown away. -/
theorem uart_session_counting : ∃ s' out,
    Returns ((Uart.pn532 (Uart.simulated countingChip)).session twoCalls) ⟨0, [0xAA, 0x55], 0⟩
      [(1, [0x00]), (1, [0x01])] s' ∧
      OnLine (fun s inside bytes => s.inside = inside ∧ s.unread = bytes) s' ⟨2, out⟩ :=
  uart_session (uart_simulated_speaks countingChip)
    (show OnLine _ (⟨0, [0xAA, 0x55], 0⟩ : Line Nat) ⟨0, [[0xAA, 0x55]]⟩ from ⟨by simp, rfl, rfl⟩)
    brief_twoCalls

/-- The same over SPI and over the serial line. -/
theorem session_agrees_counting : ∃ results s' t',
    Returns ((Spi.pn532 (Spi.simulated countingChip) zeros).session twoCalls) ⟨⟨0, []⟩, 0⟩ results
        s' ∧
      Returns ((Uart.pn532 (Uart.simulated countingChip)).session twoCalls) ⟨0, [], 0⟩ results t' :=
  session_agrees (spi_carries (spi_simulated_speaks countingChip) fun _ => List.length_replicate)
    (uart_carries (uart_simulated_speaks countingChip)) rfl
    (show OnLine _ (⟨0, [], 0⟩ : Line Nat) ⟨0, []⟩ from ⟨by simp, rfl, rfl⟩) rfl brief_twoCalls

end PN532

end AsyncNFCServer
