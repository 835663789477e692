import AsyncNFCServer.PN532.Blocks

/-!
# Pins of the chip

The pins are bits of three ports, which `PN532_ReadGpioP` and `PN532_ReadGpioI` read and
`PN532_WriteGpio` sets.  Over a bus to a chip with such ports these functions are the
ports: what is read of a pin is what was written last, if the pin can be written
(`pins_refine`).

`PN532_WriteGpioP` first reads the pins with `PN532_ReadGpio`, which stores the three bytes
of the chip's answer, into an array of two (`writeGpioP_overruns_iff`).  What the program
does after such a store is not modelled.
-/

namespace AsyncNFCServer

namespace PN532

open Returning

variable {σ γ : Type}

def commandReadGpio : Byte := 0x0C

def commandWriteGpio : Byte := 0x0E

/-! ## The functions -/

/-- `PN532_ReadGpio`; its result and the buffer `pins_state`. -/
def readGpio (pn532 : PN532 σ) (stack : Stack) (pinsState : Str) : Driver σ (Int × Str) :=
  pn532.callFunction stack commandReadGpio pinsState 3 [] defaultTimeout

/-- A bit of a port. -/
def pinLevel (port bit : Byte) : Bool := decide ((port >>> bit) &&& 1 ≠ 0)

/-- Where `PN532_ReadGpioP` looks for a pin: the byte of the answer, and the bit. -/
def portPin (pinNumber : Byte) : Option (Nat × Byte) :=
  if 30 ≤ pinNumber ∧ pinNumber ≤ 37 then some (0, pinNumber - 30)
  else if 70 ≤ pinNumber ∧ pinNumber ≤ 77 then some (1, pinNumber - 70)
  else none

/-- Where `PN532_ReadGpioI` looks for a pin. -/
def inputPin (pinNumber : Byte) : Option (Nat × Byte) :=
  if pinNumber ≤ 7 then some (2, pinNumber) else none

def takePin (place : Option (Nat × Byte)) (pinsState : Str) : Driver σ Bool :=
  match place with
  | none => pure false
  | some (port, bit) => do
      let port ← byteAt pinsState port
      pure (pinLevel port bit)

/-- The functions that read a pin; their own array is `pins_state`, and the result of the
call is not looked at. -/
def readPin (pn532 : PN532 σ) (stack : ArrayStack 3) (place : Option (Nat × Byte)) :
    Driver σ Bool := do
  let (_, pinsState) ←
    pn532.callFunction stack.toStack commandReadGpio stack.array 3 [] defaultTimeout
  takePin place pinsState

/-- `PN532_ReadGpioP`. -/
def readGpioP (pn532 : PN532 σ) (stack : ArrayStack 3) (pinNumber : Byte) : Driver σ Bool :=
  readPin pn532 stack (portPin pinNumber)

/-- `PN532_ReadGpioI`. -/
def readGpioI (pn532 : PN532 σ) (stack : ArrayStack 3) (pinNumber : Byte) : Driver σ Bool :=
  readPin pn532 stack (inputPin pinNumber)

/-- `PN532_WriteGpio`. -/
def writeGpio (pn532 : PN532 σ) (stack : Stack) (pinsState : Str) : Driver σ Int := do
  let p3 ← byteAt pinsState 0
  let p7 ← byteAt pinsState 1
  let (n, _) ← pn532.callFunction stack commandWriteGpio [] 0 [0x80 ||| p3, 0x80 ||| p7]
    defaultTimeout
  pure n

/-- The byte of a port with one of its pins set to a state, to be validated. -/
def setPin (port bit : Byte) (pinState : Bool) : Byte :=
  if pinState then 0x80 ||| port ||| (1 : Byte) <<< bit
  else (0x80 ||| port) &&& ~~~((1 : Byte) <<< bit)

/-- The parameters of `PN532_WriteGpioP`; a pin number that is not one of a port leaves
the array as it is. -/
def gpioParams (pinsState params : Str) (pinNumber : Byte) (pinState : Bool) : Driver σ Str :=
  if 30 ≤ pinNumber ∧ pinNumber ≤ 37 then do
    let port ← byteAt pinsState 0
    pure [setPin port (pinNumber - 30) pinState, 0x00]
  else if 70 ≤ pinNumber ∧ pinNumber ≤ 77 then do
    let port ← byteAt pinsState 1
    pure [0x00, setPin port (pinNumber - 70) pinState]
  else pure params

/-- `PN532_WriteGpioP`; each of its two calls finds a stack. -/
def writeGpioP (pn532 : PN532 σ) (readStack writeStack : Stack) (pinsState params : Str)
    (pinNumber : Byte) (pinState : Bool) : Driver σ Int := do
  let (n, pinsState) ← pn532.readGpio readStack pinsState
  if n = -1 then pure (-1)
  else do
    let params ← gpioParams pinsState params pinNumber pinState
    let (n, _) ← pn532.callFunction writeStack commandWriteGpio [] 0 params defaultTimeout
    pure n

/-! ## An array that is too short -/

section Short

variable {pn532 : PN532 σ} {stack : Stack} {q : Request} {s s' : σ} {response : Str}

/-- A call that is answered stores outside a buffer that has no room for the answer. -/
theorem Answers.overruns {payload : Str} (h : Answers pn532 q s payload s')
    (hcommand : q.command ≠ 0xFF) (hlength : q.responseLength ≤ 245)
    (hparams : q.params.length ≤ 253) (hpayload : payload.length ≤ 252)
    (hshort : response.length < q.responseLength) :
    (pn532.call stack q response).run s = .error .overrun := by
  obtain ⟨s₁, hacknowledged, hanswered⟩ := h.exchange hcommand hlength hpayload stack
  have hleft := hacknowledged.length_left hparams
  cases hanswered with
  | @mk s₂ status bytes code hready hread hbytes hparse hlong hcode =>
  have hdata : (pn532ToHost :: code :: payload).length ≤
      (ack ++ (q.buff stack).drop 6).length := by
    rw [hleft, List.length_cons, List.length_cons]
    omega
  have hanswer : IsAnswer q.command
      (overwrite (pn532ToHost :: code :: payload) (ack ++ (q.buff stack).drop 6)) :=
    ⟨rfl, by simpa [overwrite] using hcode⟩
  have hload : Returns (load (overwrite (pn532ToHost :: code :: payload)
      (ack ++ (q.buff stack).drop 6)) 2 q.responseLength) s'
      (handedOn q payload (ack ++ (q.buff stack).drop 6)) s' :=
    returns_load.mpr ⟨by rw [length_overwrite hdata, hleft]; omega, handedOn_eq.symm, rfl⟩
  have hroom : response.length < (handedOn q payload (ack ++ (q.buff stack).drop 6)).length := by
    rwa [length_handedOn hleft (by omega)]
  rw [hacknowledged.run_call hparams, awaitAnswer, hready.run_bind, if_pos rfl,
    (readFrame_of_parsed hread hbytes hparse hdata).run_bind]
  dsimp only
  rw [takeAnswer, if_pos hanswer, hload.run_bind, store, if_neg (not_le.mpr hroom)]
  rfl

end Short

/-! ## Writing a pin -/

section Pins

variable {pn532 : PN532 σ} {readStack writeStack : Stack} {pinsState params : Str}
  {pinNumber : Byte} {pinState : Bool} {s s' : σ}

def gpioRequest : Request := ⟨commandReadGpio, [], 3, defaultTimeout⟩

theorem fits_gpioRequest : Carries.Fits gpioRequest :=
  ⟨show 0 ≤ 245 by omega, show 3 ≤ 245 by omega, show commandReadGpio ≠ 0xFF by decide⟩

/-- **`pins_state` is too short.**  Over a bus to a chip `PN532_WriteGpioP` stores outside its
array exactly if the chip answers the request for the pins, and returns -1 if it does
not. -/
theorem writeGpioP_overruns_iff {chip : Chip γ} {R : σ → Chip.State γ → Prop} {c : Chip.State γ}
    (h : Carries pn532 chip R) (hR : R s c) (hsize : pinsState.length = 2)
    (hpayload : ∀ payload, (chip.respond c.inside commandReadGpio []).2 = some payload →
      payload.length ≤ 3) :
    ((pn532.writeGpioP readStack writeStack pinsState params pinNumber pinState).run s =
        .error .overrun ↔ (chip.respond c.inside commandReadGpio []).2 ≠ none) ∧
      ((chip.respond c.inside commandReadGpio []).2 = none → ∃ s',
        Returns (pn532.writeGpioP readStack writeStack pinsState params pinNumber pinState) s (-1)
          s') := by
  cases hanswer : (chip.respond c.inside commandReadGpio []).2 with
  | none =>
      obtain ⟨s', hread, -⟩ :=
        h.silent (q := gpioRequest) pinsState hR fits_gpioRequest hanswer readStack
      have hwrite : Returns
          (pn532.writeGpioP readStack writeStack pinsState params pinNumber pinState) s (-1) s' :=
        (Returns.bind_iff (a := (-1, pinsState)) hread).mpr (returns_pure.mpr ⟨rfl, rfl⟩)
      refine ⟨iff_of_false (fun hfails => ?_) (by simp), fun _ => ⟨s', hwrite⟩⟩
      rw [Returns] at hwrite
      rw [hwrite] at hfails
      cases hfails
  | some payload =>
      have hlength := hpayload payload hanswer
      obtain ⟨s₁, hanswers, -⟩ := h.answered (q := gpioRequest) hR fits_gpioRequest hanswer hlength
      have hread : (pn532.readGpio readStack pinsState).run s = .error .overrun :=
        hanswers.overruns fits_gpioRequest.command fits_gpioRequest.response
          (show 0 ≤ 253 by omega) (by omega) (show pinsState.length < 3 by omega)
      refine ⟨iff_of_true ?_ (by simp), fun hsilent => by simp at hsilent⟩
      exact run_bind_of_error hread

/-- A chip that answers the request for its pins, and no other. -/
def pinsChip : Chip Unit where
  respond _ command _ := ((), if command = commandReadGpio then some [0x3F, 0x06, 0x01] else none)

theorem writeGpioP_overruns_iff_pins : ((I2c.pn532 (I2c.simulated pinsChip) zeros).writeGpioP
    (.filled 0) (.filled 0) [0, 0] [0, 0] 30 true).run ⟨⟨(), []⟩, 0⟩ = .error .overrun :=
  (writeGpioP_overruns_iff (i2c_carries (i2c_simulated_speaks pinsChip) zeros) rfl rfl
    fun _ hanswer => (congrArg List.length (Option.some.inj hanswer)).ge).1.mpr
      (Option.some_ne_none _)

end Pins

/-! ## Ports -/

/-- The three ports of a chip, as it sends them. -/
structure Ports where
  p3 : Byte
  p7 : Byte
  i : Byte

namespace Ports

def bytes (p : Ports) : Str := [p.p3, p.p7, p.i]

def level (p : Ports) (place : Option (Nat × Byte)) : Bool :=
  match place with
  | none => false
  | some (port, bit) => pinLevel (p.bytes.getD port 0) bit

/-- The pins P30 to P35, P71 and P72 are set, and no other. -/
def set (p : Ports) (v3 v7 : Byte) : Ports := { p with p3 := v3 &&& 0x3F, p7 := v7 &&& 0x06 }

/-- What a chip makes of a byte for a port with the given pins: nothing, if the byte is not
validated. -/
def drive (pins port value : Byte) : Byte := if value &&& 0x80 = 0 then port else value &&& pins

def write (p : Ports) (v3 v7 : Byte) : Ports :=
  { p with p3 := drive 0x3F p.p3 v3, p7 := drive 0x06 p.p7 v7 }

theorem drive_validated (port value : Byte) {pins : Byte} (hpins : pins &&& 0x80 = 0) :
    drive pins port (0x80 ||| value) = value &&& pins := by
  have hvalid : (0x80 ||| value) &&& 0x80 ≠ 0 := by
    have hall : ∀ n < 256, (0x80 ||| UInt8.ofNat n) &&& 0x80 ≠ 0 := by decide +kernel
    simpa only [UInt8.ofNat_toNat] using hall value.toNat value.toNat_lt
  have hsplit : (0x80 ||| value) &&& pins = (0x80 &&& pins) ||| (value &&& pins) :=
    UInt8.eq_of_toBitVec_eq BitVec.and_or_distrib_right
  rw [drive, if_neg hvalid, hsplit, UInt8.and_comm, hpins, UInt8.zero_or]

/-- `PN532_WriteGpio` validates both ports. -/
theorem write_validated (p : Ports) (v3 v7 : Byte) :
    p.write (0x80 ||| v3) (0x80 ||| v7) = p.set v3 v7 := by
  rw [write, set, drive_validated _ _ (by decide), drive_validated _ _ (by decide)]

end Ports

/-- The chip has the ports, and answers for them. -/
structure Drives (chip : Chip γ) (ports : γ → Ports) : Prop where
  read (inside : γ) : ∃ next, chip.respond inside commandReadGpio [] =
    (next, some (ports inside).bytes) ∧ ports next = ports inside
  write (inside : γ) (v3 v7 : Byte) : ∃ next, chip.respond inside commandWriteGpio [v3, v7] =
    (next, some []) ∧ ports next = (ports inside).write v3 v7

/-- A call of one of the functions. -/
inductive PinCall
  | readP (stack : ArrayStack 3) (pinNumber : Byte)
  | readI (stack : ArrayStack 3) (pinNumber : Byte)
  | write (stack : Stack) (v3 v7 : Byte)

/-- Calls one after the other, with what they return. -/
def pinSession (pn532 : PN532 σ) : List PinCall → Driver σ (List (Int ⊕ Bool))
  | [] => pure []
  | .readP stack pinNumber :: calls => do
      let level ← pn532.readGpioP stack pinNumber
      let results ← pinSession pn532 calls
      pure (.inr level :: results)
  | .readI stack pinNumber :: calls => do
      let level ← pn532.readGpioI stack pinNumber
      let results ← pinSession pn532 calls
      pure (.inr level :: results)
  | .write stack v3 v7 :: calls => do
      let n ← pn532.writeGpio stack [v3, v7]
      let results ← pinSession pn532 calls
      pure (.inl n :: results)

/-- The same calls of ports. -/
def portsSession (p : Ports) : List PinCall → List (Int ⊕ Bool)
  | [] => []
  | .readP _ pinNumber :: calls => .inr (p.level (portPin pinNumber)) :: portsSession p calls
  | .readI _ pinNumber :: calls => .inr (p.level (inputPin pinNumber)) :: portsSession p calls
  | .write _ v3 v7 :: calls => .inl 0 :: portsSession (p.set v3 v7) calls

/-- The answer fills the array. -/
theorem Ports.overwrite_bytes (p : Ports) (left : Str) {array : Str} (harray : array.length = 3) :
    overwrite (handedOn gpioRequest p.bytes left) array = p.bytes := by
  have hthree : p.bytes.length = array.length := harray.symm
  calc overwrite (handedOn gpioRequest p.bytes left) array
      = overwrite p.bytes array := congrArg (overwrite · array) (List.take_left' rfl)
    _ = p.bytes := by rw [overwrite, hthree, List.drop_length, List.append_nil]

section Refinement

variable {pn532 : PN532 σ} {chip : Chip γ} {R : σ → Chip.State γ → Prop} {s : σ}
  {c : Chip.State γ} {ports : γ → Ports}

/-- Both functions look inside the answer. -/
theorem place_lt {pinNumber bit : Byte} {place : Option (Nat × Byte)}
    (h : place = portPin pinNumber ∨ place = inputPin pinNumber) {k : Nat}
    (hplace : place = some (k, bit)) : k < 3 := by
  rcases h with rfl | rfl
  · rw [portPin] at hplace
    split_ifs at hplace
    · obtain ⟨rfl, -⟩ := Prod.mk.inj (Option.some.inj hplace)
      omega
    · obtain ⟨rfl, -⟩ := Prod.mk.inj (Option.some.inj hplace)
      omega
  · rw [inputPin] at hplace
    split_ifs at hplace
    obtain ⟨rfl, -⟩ := Prod.mk.inj (Option.some.inj hplace)
    omega

theorem returns_takePin (p : Ports) {place : Option (Nat × Byte)}
    (hplace : ∀ k bit, place = some (k, bit) → k < 3) :
    Returns (takePin place p.bytes) s (p.level place) s := by
  cases place with
  | none => exact returns_pure.mpr ⟨rfl, rfl⟩
  | some pair =>
      obtain ⟨k, bit⟩ := pair
      have hinside : k < p.bytes.length := hplace k bit rfl
      have hbyte : Returns (byteAt p.bytes k) s (p.bytes.getD k 0) s :=
        returns_byteAt.mpr ⟨by
          rw [List.getD_eq_getElem?_getD, List.getElem?_eq_getElem hinside, Option.getD_some], rfl⟩
      exact hbyte.bind_iff.mpr (returns_pure.mpr ⟨rfl, rfl⟩)

/-- A pin is read off the ports of the chip. -/
theorem readPin_of_drives (h : Carries pn532 chip R) (hports : Drives chip ports) (hR : R s c)
    (stack : ArrayStack 3) {place : Option (Nat × Byte)}
    (hplace : ∀ k bit, place = some (k, bit) → k < 3) :
    ∃ s' next, Returns (readPin pn532 stack place) s ((ports c.inside).level place) s' ∧
      R s' ⟨next, []⟩ ∧ ports next = ports c.inside := by
  obtain ⟨next, hanswer, hsame⟩ := hports.read c.inside
  have hrespond : chip.respond c.inside gpioRequest.command gpioRequest.params = _ := hanswer
  obtain ⟨s', hcall, hR'⟩ := h.call_respond (q := gpioRequest) stack.array hR fits_gpioRequest
    (fun payload hpayload => by
      rw [hrespond] at hpayload
      rw [← Option.some.inj hpayload]
      exact Nat.le_refl 3) stack.array_length.ge stack.toStack
  rw [hrespond] at hcall hR'
  rw [outcome, Ports.overwrite_bytes _ _ stack.array_length] at hcall
  exact ⟨s', next, hcall.bind_iff.mpr (returns_takePin _ hplace), hR', hsame⟩

theorem writeGpio_of_drives (h : Carries pn532 chip R) (hports : Drives chip ports) (hR : R s c)
    (stack : Stack) (v3 v7 : Byte) :
    ∃ s' next, Returns (pn532.writeGpio stack [v3, v7]) s 0 s' ∧ R s' ⟨next, []⟩ ∧
      ports next = (ports c.inside).set v3 v7 := by
  obtain ⟨next, hanswer, hset⟩ := hports.write c.inside (0x80 ||| v3) (0x80 ||| v7)
  rw [Ports.write_validated] at hset
  have hfits : Carries.Fits (⟨commandWriteGpio, [0x80 ||| v3, 0x80 ||| v7], 0, defaultTimeout⟩ :
      Request) :=
    ⟨show 2 ≤ 245 by omega, show 0 ≤ 245 by omega, show commandWriteGpio ≠ 0xFF by decide⟩
  obtain ⟨s', hcall, hR'⟩ := h.call_respond [] hR hfits
    (fun payload hpayload => by
      rw [hanswer] at hpayload
      rw [← Option.some.inj hpayload]
      exact Nat.le_refl 0) (Nat.zero_le _) stack
  rw [hanswer] at hcall hR'
  have hthird : Returns (byteAt [v3, v7] 0) s v3 s := returns_byteAt.mpr ⟨rfl, rfl⟩
  have hseventh : Returns (byteAt [v3, v7] 1) s v7 s := returns_byteAt.mpr ⟨rfl, rfl⟩
  exact ⟨s', next, hthird.bind_iff.mpr (hseventh.bind_iff.mpr
    (hcall.bind_iff.mpr (returns_pure.mpr ⟨rfl, rfl⟩))), hR', hset⟩

/-- **The pins are ports.**  Over a bus to a chip with ports, calls that read pins and set
ports return what the same calls of the ports return: a write takes effect on P30 to P35,
P71 and P72, all at once, and on no other pin. -/
theorem pins_refine (h : Carries pn532 chip R) (hports : Drives chip ports) (hR : R s c)
    (calls : List PinCall) :
    ∃ s', Returns (pinSession pn532 calls) s (portsSession (ports c.inside) calls) s' := by
  induction calls generalizing s c with
  | nil => exact ⟨s, returns_pure.mpr ⟨rfl, rfl⟩⟩
  | cons call calls ih =>
      cases call with
      | readP stack pinNumber =>
          obtain ⟨s₁, next, hread, hR₁, hsame⟩ := readPin_of_drives h hports hR stack
            fun k bit => place_lt (Or.inl rfl)
          obtain ⟨s', hrest⟩ := ih hR₁
          rw [hsame] at hrest
          exact ⟨s', hread.bind_iff.mpr (hrest.bind_iff.mpr (returns_pure.mpr ⟨rfl, rfl⟩))⟩
      | readI stack pinNumber =>
          obtain ⟨s₁, next, hread, hR₁, hsame⟩ := readPin_of_drives h hports hR stack
            fun k bit => place_lt (Or.inr rfl)
          obtain ⟨s', hrest⟩ := ih hR₁
          rw [hsame] at hrest
          exact ⟨s', hread.bind_iff.mpr (hrest.bind_iff.mpr (returns_pure.mpr ⟨rfl, rfl⟩))⟩
      | write stack v3 v7 =>
          obtain ⟨s₁, next, hwrite, hR₁, hset⟩ := writeGpio_of_drives h hports hR stack v3 v7
          obtain ⟨s', hrest⟩ := ih hR₁
          rw [hset] at hrest
          exact ⟨s', hwrite.bind_iff.mpr (hrest.bind_iff.mpr (returns_pure.mpr ⟨rfl, rfl⟩))⟩

/-- A chip that has ports. -/
def portsChip : Chip Ports where
  respond p command params :=
    if command = commandReadGpio then (p, some p.bytes)
    else
      match params with
      | [v3, v7] => (p.write v3 v7, some [])
      | _ => (p, none)

theorem drives_portsChip : Drives portsChip id where
  read p := ⟨p, rfl, rfl⟩
  write p v3 v7 := ⟨p.write v3 v7, rfl, rfl⟩

/-- P31 is high after it is written, and P36 is not. -/
theorem pins_refine_ports : ∃ s', Returns (pinSession
      (I2c.pn532 (I2c.simulated portsChip) fun n => List.replicate n 0)
      [.readP (filled 3 0xAA) 31, .write (.filled 0xAA) 0xFF 0x00, .readP (filled 3 0xAA) 31,
        .readP (filled 3 0xAA) 36])
    ⟨⟨⟨0, 0, 0⟩, []⟩, 0⟩ [.inr false, .inl 0, .inr true, .inr false] s' :=
  pins_refine (i2c_carries (i2c_simulated_speaks portsChip) _) drives_portsChip rfl _

end Refinement

end PN532

end AsyncNFCServer
