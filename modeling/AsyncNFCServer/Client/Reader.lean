import AsyncNFCServer.Bytes
import Mathlib.Data.List.TakeWhile

/-!
# The reader client

The functions of `rpi_get_uid.cpp` that a card goes through: its UID is printed
into a buffer (`get_uid`), sent (`send_data`), and the answer is read into
another buffer (`recieve_data`) and compared with two fixed words
(`io_feedback`).  A buffer is a list of bytes that keeps its length; what it
holds before the first write to it is arbitrary.
-/

namespace AsyncNFCServer

namespace Client

/-- The string a `char*` points to: the bytes before the first NUL.  Without one in
the buffer the program reads on behind it. -/
def cString (buffer : Str) : Str := buffer.takeWhile (· ≠ 0)

/-! ## Sending the UID -/

def hexDigit (n : Nat) : Byte := if n < 10 then 48 + n.toUInt8 else 87 + n.toUInt8

/-- `"%02x"`. -/
def hexPair (b : Byte) : Str := [hexDigit (b.toNat / 16), hexDigit (b.toNat % 16)]

/-- The two-digit lowercase hex encoding of a UID. -/
def hexString (uid : List Byte) : Str := uid.flatMap hexPair

/-- `sprintf(buffer + offset, "%02x", b)`: two digits and a NUL, or no result
when they overrun the buffer. -/
def sprintfHex (buffer : Str) (offset : Nat) (b : Byte) : Option Str :=
  if offset + 3 ≤ buffer.length then
    some (buffer.take offset ++ hexPair b ++ 0 :: buffer.drop (offset + 3))
  else none

/-- The loop of `get_uid` over the bytes of the UID from `i` on. -/
def printUid (uidString : Str) : Nat → List Byte → Option Str
  | _, [] => some uidString
  | i, b :: uid =>
      match sprintfHex uidString (i * 2) b with
      | none => none
      | some uidString => printUid uidString (i + 1) uid

/-- `get_uid`, once a card is found; polls without a card are repeated and
change nothing. -/
def getUid (uidString : Str) (uid : List Byte) : Option Str := printUid uidString 0 uid

/-- The bytes `send_data` writes to the socket. -/
def sendData (bufferSend : Str) : Str := cString (cString bufferSend ++ [newline])

/-! ## Receiving the answer -/

/-- The result of `read(sockfd, buffer_receive + total, 1)`. -/
inductive ReadResult where
  | byte (b : Byte)
  /-- the peer has closed the connection: 0 -/
  | closed
  /-- -1 -/
  | error
  deriving DecidableEq, Repr

/-- A call of `recieve_data`: it has returned, with the buffer and the read
results it left, or it waits for another one. -/
inductive Received where
  | returned (ok : Bool) (buffer : Str) (reads : List ReadResult)
  | waiting
  deriving DecidableEq, Repr

def carriageReturn : Byte := 13

/-- The loop of `recieve_data`, with `total` bytes received.  The byte at `total`
is checked after every read that does not fail, whether it was written or not. -/
def recieveFrom : Nat → Str → List ReadResult → Received
  | total, buffer, reads =>
      if total < buffer.length - 1 then
        match reads with
        | [] => .waiting
        | .error :: reads => .returned false buffer reads
        | .closed :: reads =>
            if buffer[total]? = some newline ∨ buffer[total]? = some carriageReturn then
              .returned true (buffer.set total 0) reads
            else recieveFrom total buffer reads
        | .byte b :: reads =>
            if b = newline ∨ b = carriageReturn then .returned true (buffer.set total 0) reads
            else recieveFrom (total + 1) (buffer.set total b) reads
      else .returned true (buffer.set total 0) reads

/-- `recieve_data`. -/
def recieveData (buffer : Str) (reads : List ReadResult) : Received := recieveFrom 0 buffer reads

/-- What `io_feedback` tells the user. -/
inductive Feedback where
  | granted
  | refused
  | nothing
  deriving DecidableEq, Repr

/-- `io_feedback`. -/
def ioFeedback (response : Str) : Feedback :=
  if cString response = ascii "Godkendt" then .granted
  else if cString response = ascii "Afvist" then .refused
  else .nothing

/-! ## What is sent -/

theorem hexDigit_spec : ∀ n < 16, hexDigit n ≠ 0 ∧ hexDigit n ≠ 58 ∧ hexDigit n ≠ newline := by
  decide

/-- A hex string holds none of the bytes with a meaning of their own. -/
theorem mem_hexString {uid : List Byte} {c : Byte} (h : c ∈ hexString uid) :
    c ≠ 0 ∧ c ≠ 58 ∧ c ≠ newline := by
  obtain ⟨b, -, hc⟩ := List.mem_flatMap.mp h
  have hlt := b.toNat_lt
  simp only [hexPair, List.mem_cons, List.not_mem_nil, or_false] at hc
  rcases hc with rfl | rfl
  · exact hexDigit_spec _ (by omega)
  · exact hexDigit_spec _ (by omega)

theorem length_hexString (uid : List Byte) : (hexString uid).length = 2 * uid.length := by
  induction uid with
  | nil => rfl
  | cons b uid ih =>
      rw [hexString, List.flatMap_cons, List.length_append, ← hexString, ih]
      simp only [hexPair, List.length_cons, List.length_nil]
      omega

theorem cString_append_nul {text : Str} (h : ∀ c ∈ text, c ≠ 0) (rest : Str) :
    cString (text ++ 0 :: rest) = text := by
  rw [cString, List.takeWhile_append_of_pos (by simpa using h)]
  simp

theorem sprintfHex_append {front : Str} {offset : Nat} (hfront : front.length = offset)
    {rest : Str} (hfits : 3 ≤ rest.length) (b : Byte) :
    sprintfHex (front ++ rest) offset b = some (front ++ hexPair b ++ 0 :: rest.drop 3) := by
  rw [sprintfHex, if_pos (by rw [List.length_append]; omega), ← hfront, List.take_left,
    List.drop_append, List.drop_of_length_le (by omega), Nat.add_sub_cancel_left, List.nil_append]

/-- The loop prints the hex string behind what is there already, and ends it
with a NUL. -/
theorem printUid_append {uid : List Byte} (huid : uid ≠ []) (front : Str) {i : Nat}
    (hfront : front.length = i * 2) (rest : Str) (hfits : 2 * uid.length + 1 ≤ rest.length) :
    printUid (front ++ rest) i uid =
      some (front ++ hexString uid ++ 0 :: rest.drop (2 * uid.length + 1)) := by
  induction uid generalizing front i rest with
  | nil => exact absurd rfl huid
  | cons b uid ih =>
      rw [List.length_cons] at hfits
      rw [printUid, sprintfHex_append hfront (by omega) b]
      cases uid with
      | nil => simp [printUid, hexString]
      | cons c uid =>
          have hhead : (front ++ hexPair b).length = (i + 1) * 2 := by
            simp only [List.length_append, hfront, hexPair, List.length_cons, List.length_nil]
            omega
          -- the next `sprintf` overwrites the NUL of this one
          have hnext := ih (by simp) (front ++ hexPair b) hhead (0 :: rest.drop 3)
            (by simp only [List.length_cons, List.length_drop] at hfits ⊢; omega)
          have hdrop : 3 + 2 * (c :: uid).length = 2 * (b :: c :: uid).length + 1 := by
            simp only [List.length_cons]
            omega
          simp only [hnext, List.drop_succ_cons, List.drop_drop, hdrop, Option.some.injEq]
          simp [hexString]

/-- **The UID is sent as its hex string**, if it is not empty and fits. -/
theorem getUid_eq {uid : List Byte} (huid : uid ≠ []) {uidString : Str}
    (hfits : 2 * uid.length + 1 ≤ uidString.length) :
    ∃ buffer, getUid uidString uid = some buffer ∧ buffer.length = uidString.length ∧
      sendData buffer = hexString uid ++ [newline] := by
  have hprint := printUid_append huid [] (Nat.zero_mul 2).symm uidString hfits
  refine ⟨_, hprint, ?_, ?_⟩
  · simp only [List.nil_append, List.length_append, length_hexString, List.length_cons,
      List.length_drop]
    omega
  · have hhex : ∀ c ∈ hexString uid, c ≠ 0 := fun c hc => (mem_hexString hc).1
    rw [sendData, List.nil_append, cString_append_nul hhex]
    refine List.takeWhile_eq_self_iff.mpr fun c hc => ?_
    rcases List.mem_append.mp hc with hc | hc
    · simpa using hhex c hc
    · rw [List.mem_singleton.mp hc]
      decide

/-! ## What is received -/

/-- A line that fits is received as a string; the reads behind it are left. -/
theorem recieveFrom_line {line : Str} (hline : ∀ c ∈ line, c ≠ newline ∧ c ≠ carriageReturn)
    (front rest : Str) (hfits : line.length + 2 ≤ rest.length) (reads : List ReadResult) :
    recieveFrom front.length (front ++ rest) ((wireLine line).map .byte ++ reads) =
      .returned true (front ++ line ++ 0 :: rest.drop (line.length + 1)) reads := by
  induction line generalizing front rest with
  | nil =>
      cases rest with
      | nil => exact absurd hfits (by simp)
      | cons x rest =>
          have hlt : front.length < (front ++ x :: rest).length - 1 := by
            simp only [List.length_append, List.length_cons, List.length_nil] at hfits ⊢
            omega
          -- the newline is not stored: the NUL takes its place
          rw [wireLine, List.nil_append, List.map_cons, List.cons_append, recieveFrom, if_pos hlt]
          simp
  | cons c line ih =>
      cases rest with
      | nil => exact absurd hfits (by simp)
      | cons x rest =>
          have hlt : front.length < (front ++ x :: rest).length - 1 := by
            simp only [List.length_append, List.length_cons] at hfits ⊢
            omega
          have hc := hline c (by simp)
          have hset : (front ++ x :: rest).set front.length c = front ++ [c] ++ rest := by
            simp
          have hnext := ih (fun d hd => hline d (by simp [hd])) (front ++ [c]) rest
            (by simp only [List.length_cons] at hfits; omega)
          rw [List.length_append, List.length_singleton] at hnext
          have hreads : wireLine (c :: line) = c :: wireLine line := rfl
          rw [hreads, List.map_cons, List.cons_append, recieveFrom, if_pos hlt]
          simp only [hc.1, hc.2, or_self, if_false, hset, hnext]
          simp

/-- A line of the peer that fits in the buffer is what `io_feedback` gets. -/
theorem recieveData_line {line : Str}
    (hline : ∀ c ∈ line, c ≠ newline ∧ c ≠ carriageReturn ∧ c ≠ 0) {buffer : Str}
    (hfits : line.length + 2 ≤ buffer.length) (reads : List ReadResult) :
    ∃ received, recieveData buffer ((wireLine line).map .byte ++ reads) =
        .returned true received reads ∧ cString received = line := by
  refine ⟨_, recieveFrom_line (fun c hc => ⟨(hline c hc).1, (hline c hc).2.1⟩) [] buffer
    hfits reads, ?_⟩
  exact cString_append_nul (fun c hc => (hline c hc).2.2) _

end Client

end AsyncNFCServer
