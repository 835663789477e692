import AsyncNFCServer.PN532.Driver

/-!
# The chip behind the bus

What the chip itself does is documented, and not part of the program.  Here it is
a function: `Chip.respond` says what a command does to the chip and what the chip
answers, if it does.  A command is first acknowledged; the frames that the chip has
ready, the answer at once behind the acknowledgement, wait until the host reads them, and a
new command discards those that are left.

`Carries` is what the driver needs of a bus to such a chip: a frame that is written
arrives, `wait_ready` tells whether a frame is waiting, and reading brings the oldest
one, with anything behind it.  Over a bus like that `PN532_CallFunction` is a call of
`respond` (`call_respond`), and a session of calls is a run of the chip
(`session_respond`).
-/

namespace AsyncNFCServer

namespace PN532

variable {σ γ : Type}

/-- A chip with the inside state `γ`. -/
structure Chip (γ : Type) where
  /-- what a command with its parameters does, and the payload of the answer -/
  respond : γ → Byte → Str → γ × Option Str

namespace Chip

/-- The chip and the frames that it has ready. -/
structure State (γ : Type) where
  inside : γ
  out : List Str

variable (chip : Chip γ)

/-- The frame of an answer. -/
def answerFrame (command : Byte) (payload : Str) : Str :=
  frame (pn532ToHost :: (command + 1) :: payload)

/-- A command frame arrives. -/
def accept (c : State γ) (command : Byte) (params : Str) : State γ where
  inside := (chip.respond c.inside command params).1
  out := ack :: ((chip.respond c.inside command params).2.map (answerFrame command)).toList

end Chip

/-- The status byte that the chip sends on request. -/
def statusByte (c : Chip.State γ) : Byte := if c.out.isEmpty then 0x00 else 0x01

open Returning

/-- The functions of the table carry frames between the host and the chip, while `R`
holds between the bus and the chip.  As `wait_ready` tells at once whether a frame is
waiting, a chip that takes its time over an answer is not covered. -/
structure Carries (pn532 : PN532 σ) (chip : Chip γ) (R : σ → Chip.State γ → Prop) : Prop where
  writes {s : σ} {c : Chip.State γ} (h : R s c) (command : Byte) {params : Str}
    (hparams : params.length ≤ 245) :
    ∃ s', Returns (pn532.writeData (frame (hostToPN532 :: command :: params))) s 0 s' ∧
      R s' (chip.accept c command params)
  waits {s : σ} {c : Chip.State γ} (h : R s c) (timeout : Nat) :
    ∃ s', Returns (pn532.waitReady timeout) s (!c.out.isEmpty) s' ∧ R s' c
  acks {s : σ} {inside : γ} {out : List Str} (h : R s ⟨inside, ack :: out⟩) :
    ∃ status s', Returns (pn532.readData 6) s (status, ack) s' ∧ R s' ⟨inside, out⟩
  answers {s : σ} {inside : γ} {data : Str} {out : List Str} (h : R s ⟨inside, frame data :: out⟩)
    {count : Nat} (hdata : data ≠ []) (hfits : data.length + 7 ≤ count) (hcount : count ≤ 254) :
    ∃ status rest s', Returns (pn532.readData count) s (status, frame data ++ rest) s' ∧
      data.length + 7 + rest.length ≤ count ∧ R s' ⟨inside, out⟩

/-- What a call returns for the answer of the chip; behind the answer come the bytes that
the buffer held before. -/
def outcome (stack : Stack) (q : Request) (response : Str) : Option Str → Int × Str
  | none => (-1, response)
  | some payload =>
      (payload.length, overwrite (handedOn q payload (ack ++ (q.buff stack).drop 6)) response)

/-- A read that is as long as the acknowledgement brings nothing else. -/
theorem eq_nil_of_ack {pad : Str} (h : ack.length + pad.length = 6) : pad = [] := by
  have hack : ack.length = 6 := rfl
  exact List.length_eq_zero_iff.mp (by omega)

namespace Carries

variable {pn532 : PN532 σ} {chip : Chip γ} {R : σ → Chip.State γ → Prop} {s : σ}
  {c : Chip.State γ} {q : Request} {payload response : Str}

/-- A request that the bus can carry. -/
structure Fits (q : Request) : Prop where
  params : q.params.length ≤ 245
  response : q.responseLength ≤ 245
  command : q.command ≠ 0xFF

/-- The acknowledgement of a request is read, and then only the answer is left. -/
theorem acknowledged (h : Carries pn532 chip R) (hR : R s c) (hq : Fits q) :
    ∃ s₁, Acks pn532 q s s₁ ∧ R s₁ ⟨(chip.respond c.inside q.command q.params).1,
      ((chip.respond c.inside q.command q.params).2.map (Chip.answerFrame q.command)).toList⟩ := by
  obtain ⟨s₁, hwrite, hR₁⟩ := h.writes hR q.command hq.params
  obtain ⟨s₂, hwait, hR₂⟩ := h.waits hR₁ q.timeout
  obtain ⟨status, s₃, hack, hR₃⟩ := h.acks hR₂
  exact ⟨s₃, ⟨hwrite, hwait, hack⟩, hR₃⟩

/-- A chip that answers is heard. -/
theorem answered (h : Carries pn532 chip R) (hR : R s c) (hq : Fits q)
    (hanswer : (chip.respond c.inside q.command q.params).2 = some payload)
    (hpayload : payload.length ≤ q.responseLength) :
    ∃ s', Answers pn532 q s payload s' ∧
      R s' ⟨(chip.respond c.inside q.command q.params).1, []⟩ := by
  obtain ⟨s₁, hacks, hR₁⟩ := h.acknowledged hR hq
  rw [hanswer] at hR₁
  obtain ⟨s₂, hwait, hR₂⟩ := h.waits hR₁ q.timeout
  have hlength := hq.response
  obtain ⟨status, rest, s', hread, hfits, hR'⟩ := h.answers hR₂ (by simp) (by
    rw [List.length_cons, List.length_cons]
    omega) (show q.responseLength + 9 ≤ 254 by omega)
  rw [List.length_cons, List.length_cons] at hfits
  exact ⟨s', ⟨hacks, hwait, hread, by omega⟩, hR'⟩

/-- A call of a chip that does not answer fails. -/
theorem silent (response : Str) (h : Carries pn532 chip R) (hR : R s c) (hq : Fits q)
    (hsilent : (chip.respond c.inside q.command q.params).2 = none) (stack : Stack) :
    ∃ s', Returns (pn532.call stack q response) s (-1, response) s' ∧
      R s' ⟨(chip.respond c.inside q.command q.params).1, []⟩ := by
  obtain ⟨s₁, hacks, hR₁⟩ := h.acknowledged hR hq
  rw [hsilent] at hR₁
  obtain ⟨s', hwait, hR'⟩ := h.waits hR₁ q.timeout
  have hparams := hq.params
  refine ⟨s', ((hacks.acknowledged stack).call_iff (by omega)).mpr ?_, hR'⟩
  rw [awaitAnswer]
  refine hwait.bind_iff.mpr ?_
  rw [if_neg (by simp)]
  exact returns_pure.mpr ⟨rfl, rfl⟩

/-- A call over the bus is a call of the chip.  It returns what the chip answers, or -1
if the chip does not, and leaves nothing behind that a later call could read. -/
theorem call_respond (response : Str) (h : Carries pn532 chip R) (hR : R s c) (hq : Fits q)
    (hpayload : ∀ payload, (chip.respond c.inside q.command q.params).2 = some payload →
      payload.length ≤ q.responseLength)
    (hresponse : q.responseLength ≤ response.length) (stack : Stack) :
    ∃ s', Returns (pn532.call stack q response) s
        (outcome stack q response (chip.respond c.inside q.command q.params).2) s' ∧
      R s' ⟨(chip.respond c.inside q.command q.params).1, []⟩ := by
  cases hanswer : (chip.respond c.inside q.command q.params).2 with
  | none => exact h.silent response hR hq hanswer stack
  | some payload =>
      have hshort := hpayload payload hanswer
      have hlength := hq.response
      have hparams := hq.params
      obtain ⟨s', hanswers, hR'⟩ := h.answered hR hq hanswer hshort
      have hexchange := hanswers.exchange hq.command hlength (by omega) stack
      exact ⟨s', hexchange.returns (by omega) (by omega) hresponse, hR'⟩

end Carries

/-! ## Sessions -/

/-- A call of `PN532_CallFunction` that the bus can carry and whose buffer has room. -/
structure Call where
  stack : Stack
  request : Request
  response : Str
  fits : Carries.Fits request
  room : request.responseLength ≤ response.length

/-- Calls one after the other. -/
def session (pn532 : PN532 σ) : List Call → Driver σ (List (Int × Str))
  | [] => pure []
  | call :: calls => do
      let result ← pn532.call call.stack call.request call.response
      let results ← session pn532 calls
      pure (result :: results)

/-- The chip after requests one after the other, and its answers. -/
def Chip.run (chip : Chip γ) : γ → List Request → γ × List (Option Str)
  | inside, [] => (inside, [])
  | inside, q :: qs =>
      let (next, answer) := chip.respond inside q.command q.params
      ((Chip.run chip next qs).1, answer :: (Chip.run chip next qs).2)

/-- What calls return for the answers of a chip. -/
def outcomes (calls : List Call) (answers : List (Option Str)) : List (Int × Str) :=
  List.zipWith (fun call => outcome call.stack call.request call.response) calls answers

/-- The answers of the chip are not longer than the calls expect. -/
def Brief (chip : Chip γ) (calls : List Call) : Prop :=
  ∀ call ∈ calls, ∀ inside payload,
    (chip.respond inside call.request.command call.request.params).2 = some payload →
      payload.length ≤ call.request.responseLength

section Session

variable {pn532 : PN532 σ} {chip : Chip γ} {R : σ → Chip.State γ → Prop} {s : σ}
  {calls : List Call}

/-- A session is a run of the chip: whatever came before, every call gets the answer to
its own request and no other. -/
theorem session_respond (h : Carries pn532 chip R) {c : Chip.State γ} (hR : R s c)
    (hbrief : Brief chip calls) :
    ∃ s' out, Returns (pn532.session calls) s
        (outcomes calls (chip.run c.inside (calls.map Call.request)).2) s' ∧
      R s' ⟨(chip.run c.inside (calls.map Call.request)).1, out⟩ := by
  induction calls generalizing s c with
  | nil => exact ⟨s, c.out, returns_pure.mpr ⟨rfl, rfl⟩, hR⟩
  | cons call calls ih =>
      obtain ⟨s₁, hcall, hR₁⟩ := h.call_respond call.response hR call.fits
        (hbrief call (by simp) c.inside) call.room call.stack
      obtain ⟨s', out, hrest, hR'⟩ := ih hR₁ (fun later hlater => hbrief later (by simp [hlater]))
      exact ⟨s', out, hcall.bind_iff.mpr (hrest.bind_iff.mpr (returns_pure.mpr ⟨rfl, rfl⟩)), hR'⟩

/-- **The bus makes no difference.**  Over any two buses to the same chip a session whose
answers are not longer than expected returns the same results, down to the bytes behind the
answers. -/
theorem session_agrees {τ : Type} {pn532' : PN532 τ} {R' : τ → Chip.State γ → Prop} {t : τ}
    (h : Carries pn532 chip R) (h' : Carries pn532' chip R') {c c' : Chip.State γ} (hR : R s c)
    (hR' : R' t c') (hinside : c.inside = c'.inside) (hbrief : Brief chip calls) :
    ∃ results s' t', Returns (pn532.session calls) s results s' ∧
      Returns (pn532'.session calls) t results t' := by
  obtain ⟨s', -, hsession, -⟩ := session_respond h hR hbrief
  obtain ⟨t', -, hsession', -⟩ := session_respond h' hR' hbrief
  rw [← hinside] at hsession'
  exact ⟨_, s', t', hsession, hsession'⟩

end Session

end PN532

end AsyncNFCServer
