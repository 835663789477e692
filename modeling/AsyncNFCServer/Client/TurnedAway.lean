import AsyncNFCServer.Client.Polls
import AsyncNFCServer.Client.Protocol
import AsyncNFCServer.TCP.Clients
import AsyncNFCServer.TCP.Framing
import AsyncNFCServer.ReaderHandler.Revocation

/-!
# The reader at the server

What the client scans and sends against the whole server: a device that does what it likes,
the bytes on the socket in chunks of any size, a server in any state.  If `uid_string`, which
is not initialized, holds no colon, there is none in what the client sends, so no line of it
is a package, whatever comes out of the framing.  The first line that is handled is answered
with the syntax error, which tells the client neither way, and closes the connection
(`reader_turned_away`).
-/

namespace AsyncNFCServer

namespace Client

open PN532 Returning

/-! ## What the scanner sends -/

theorem notMem_hexPair (b : Byte) : colon ∉ hexPair b := by
  intro h
  have hmem : colon ∈ hexString [b] := by simpa [hexString] using h
  exact (mem_hexString hmem).2.1 rfl

theorem notMem_printUid {uidString buffer : Str} {i : Nat} {uid : List Byte}
    (h : printUid uidString i uid = some buffer) (hcolon : colon ∉ uidString) : colon ∉ buffer := by
  induction uid generalizing uidString i with
  | nil => exact Option.some.inj h ▸ hcolon
  | cons b uid ih =>
      rw [printUid, sprintfHex] at h
      split_ifs at h with hfits
      refine ih h ?_
      have htake : colon ∉ uidString.take (i * 2) := fun hmem => hcolon (List.mem_of_mem_take hmem)
      have hdrop : colon ∉ uidString.drop (i * 2 + 3) :=
        fun hmem => hcolon (List.mem_of_mem_drop hmem)
      simp only [List.mem_append, List.mem_cons, not_or]
      exact ⟨⟨htake, notMem_hexPair b⟩, by decide, hdrop⟩

theorem notMem_sendData {buffer : Str} (hcolon : colon ∉ buffer) : colon ∉ sendData buffer := by
  intro h
  rcases List.mem_append.mp ((List.takeWhile_sublist _).mem h) with hbuffer | hnewline
  · exact hcolon ((List.takeWhile_sublist _).mem hbuffer)
  · exact absurd (List.mem_singleton.mp hnewline) (by decide)

/-- No scan puts a colon on the wire. -/
theorem notMem_sent (uid : Str) {uidString : Str} (hcolon : colon ∉ uidString) (polls : List Poll) :
    colon ∉ (Scanner.run uid uidString polls).sent.flatten := by
  have hrun : colon ∉ (Scanner.run uid uidString polls).uidString ∧
      colon ∉ (Scanner.run uid uidString polls).sent.flatten := by
    refine Runs.invariant_final_of_forall
      (J := fun s : Scanner => colon ∉ s.uidString ∧ colon ∉ s.sent.flatten) ?_
      ⟨hcolon, List.not_mem_nil⟩ polls
    rintro s poll ⟨hstring, hsent⟩
    cases poll with
    | error uid => exact ⟨hstring, hsent⟩
    | target found =>
        rw [Scanner.poll]
        split
        · exact ⟨hstring, hsent⟩
        · rename_i uidString' hprint
          have hnew := notMem_printUid hprint hstring
          refine ⟨hnew, ?_⟩
          rw [List.flatten_append, List.flatten_singleton, List.mem_append, not_or]
          exact ⟨hsent, notMem_sendData hnew⟩
  exact hrun.2

/-! ## What the server makes of it -/

/-- A string that the handler gets is made of bytes that have come in. -/
theorem mem_of_mem_delivered {buffer line : Str} {chunks : List Str}
    (hline : line ∈ delivered buffer chunks) {c : Byte} (hc : c ∈ line) :
    c ∈ buffer ∨ c ∈ chunks.flatten := by
  induction chunks generalizing buffer with
  | nil => exact absurd hline List.not_mem_nil
  | cons chunk chunks ih =>
      rw [List.flatten_cons, List.mem_append, ← or_assoc, ← List.mem_append]
      rw [delivered] at hline
      split_ifs at hline
      · rcases List.mem_cons.mp hline with rfl | hlater
        · exact Or.inl ((List.takeWhile_sublist _).mem hc)
        · exact Or.inr ((ih hlater).resolve_left List.not_mem_nil)
      · exact ih hline

def syntaxError : Str := ascii "Invalid Client Package Syntax - Connection Closed"

/-- A line without a colon closes the connection of a door client, and does nothing else. -/
theorem turned_away {p : Process} {k : Nat} {line : Str} (hcolon : colon ∉ line)
    (hclient : p.reader? k = some .client) (renames : Bool) :
    (p.replies (.line k line renames) = [] ∨ p.replies (.line k line renames) = [syntaxError]) ∧
      (p.step (.line k line renames)).store = p.store ∧
      (p.step (.line k line renames)).handler? k = none := by
  have hparse := parsePackage_eq_none_of_notMem hcolon
  rw [Process.replies, Process.step]
  cases hhandler : p.handler? k with
  | none => exact ⟨Or.inl rfl, rfl, hhandler⟩
  | some handler =>
      obtain ⟨hrunning, rest, hc⟩ := Process.exists_of_handler? hhandler
      rw [Process.reader?_eq hc, List.head?_cons, Option.some.injEq] at hclient
      subst hclient
      have hrun : ReadHandler.client.run renames line p.store =
          ⟨p.store, [syntaxError], [], .closed⟩ := by
        rw [ReadHandler.run, handleClient, hparse]
        rfl
      simp only [hrun]
      refine ⟨Or.inr trivial, trivial, ?_⟩
      have hclosed : (p.connections.modify k (·.receive ⟨line, p.store, renames⟩))[k]? =
          some ⟨rest ++ [] ++ [.client], .closed⟩ := by
        rw [List.getElem?_modify_eq, hc]
        simp only [Option.map_eq_map, Option.map_some, Connection.receive, hrun]
      rw [Process.handler?_eq hclosed]
      exact if_neg (by simp)

/-- The syntax error is neither of the words that the client knows. -/
theorem feedback_syntaxError {bufferReceive : Str} (hbuffer : bufferReceive.length = 256) :
    feedback bufferReceive [syntaxError] = some .nothing := by
  obtain ⟨received, hreceived, hstring⟩ := recieveData_line
    (show ∀ c ∈ syntaxError, c ≠ newline ∧ c ≠ carriageReturn ∧ c ≠ 0 by decide +kernel)
    (show syntaxError.length + 2 ≤ bufferReceive.length by rw [hbuffer]; decide) []
  rw [List.append_nil] at hreceived
  have hwire : [syntaxError].flatMap wireLine = wireLine syntaxError := by simp
  rw [feedback, hwire, hreceived]
  dsimp only
  rw [ioFeedback, hstring, if_neg (by decide), if_neg (by decide)]

theorem feedback_nil {bufferReceive : Str} (hbuffer : bufferReceive.length = 256) :
    feedback bufferReceive [] = none := by
  have hwaiting : recieveData bufferReceive [] = .waiting := by
    rw [recieveData, recieveFrom, if_pos (by omega)]
  rw [feedback, List.flatMap_nil, List.map_nil, hwaiting]

/-! ## The two together -/

section Together

variable {σ : Type} {pn532 : PN532 σ} {stack samStack : Stack} {s s' : σ}
  {buff uid uidString : Str} {ready : Bool} {sc : Scanner} {passes : List TargetStack}

/-- **The reader is turned away.**  Unless there is a colon in `uid_string` before it is
written to: whatever the device does, whatever cards it sees, however the stream of the
program is cut into chunks and whatever the server is doing, a line of the stream that a
door client's handler gets is answered with the syntax error or not at all, changes nothing
in the store, and closes the connection; and the client tells its user neither that he is
let in nor that he is not. -/
theorem reader_turned_away
    (h : Returns (initAndPoll pn532 stack samStack buff uid uidString passes) s (ready, sc) s')
    (hcolon : colon ∉ uidString) {chunks : List Str} (hchunks : chunks.flatten <+: sc.sent.flatten)
    {line : Str} (hline : line ∈ delivered [] chunks) {p : Process} {k : Nat}
    (hclient : p.reader? k = some .client) (renames : Bool) {bufferReceive : Str}
    (hbuffer : bufferReceive.length = 256) :
    (p.replies (.line k line renames) = [] ∨ p.replies (.line k line renames) = [syntaxError]) ∧
      (p.step (.line k line renames)).store = p.store ∧
      (p.step (.line k line renames)).handler? k = none ∧
      feedback bufferReceive (p.replies (.line k line renames)) ≠ some .granted ∧
      feedback bufferReceive (p.replies (.line k line renames)) ≠ some .refused := by
  have hsent : colon ∉ sc.sent.flatten := by
    obtain ⟨polls, rfl⟩ := exists_run h
    exact notMem_sent uid hcolon polls
  have hnot : colon ∉ line := fun hmem =>
    hsent (hchunks.subset ((mem_of_mem_delivered hline hmem).resolve_left List.not_mem_nil))
  obtain ⟨hreplies, hstore, hclosed⟩ := turned_away hnot hclient renames
  have hfeedback : feedback bufferReceive (p.replies (.line k line renames)) = none ∨
      feedback bufferReceive (p.replies (.line k line renames)) = some .nothing := by
    rcases hreplies with hreplies | hreplies
    · exact Or.inl (hreplies ▸ feedback_nil hbuffer)
    · exact Or.inr (hreplies ▸ feedback_syntaxError hbuffer)
  refine ⟨hreplies, hstore, hclosed, ?_, ?_⟩
  · rcases hfeedback with heq | heq <;> simp [heq]
  · rcases hfeedback with heq | heq <;> simp [heq]

end Together

/-- A server without doors, to which a reader has connected. -/
def waiting : Process := Process.startEmpty.step (.connect .clientServer)

/-- The card of the desk, at a server that waits for it. -/
theorem reader_turned_away_desk :
    (waiting.replies (.line 0 (ascii "04a1b2c3") true) = [] ∨
      waiting.replies (.line 0 (ascii "04a1b2c3") true) = [syntaxError]) ∧
    (waiting.step (.line 0 (ascii "04a1b2c3") true)).store = waiting.store ∧
    (waiting.step (.line 0 (ascii "04a1b2c3") true)).handler? 0 = none ∧
    feedback (List.replicate 256 0) (waiting.replies (.line 0 (ascii "04a1b2c3") true)) ≠
      some .granted ∧
    feedback (List.replicate 256 0) (waiting.replies (.line 0 (ascii "04a1b2c3") true)) ≠
      some .refused := by
  obtain ⟨sc, s', hmain, hsent⟩ := initAndPoll_sends deskBus_carries sees_deskChip
    (s := ⟨⟨[some deskTag], []⟩, 0⟩) rfl (setsUp_deskChip [some deskTag]) (.filled 0xAA)
    (.filled 0xAA) (List.length_replicate (n := 255) (a := 0))
    (List.length_replicate (n := 10) (a := 0)) (List.length_replicate (n := 32) (a := 0))
    [fill 0xAA]
  have hfirst : EmptyFirst (List.replicate 32 0) [[0x04, 0xa1, 0xb2, 0xc3]] := Or.inl (by simp)
  have hwire : sc.sent = [wireLine (ascii "04a1b2c3")] := hsent.mpr hfirst
  have hchunks : [wireLine (ascii "04a1b2c3")].flatten <+: sc.sent.flatten := by
    rw [hwire]
  have hline : ascii "04a1b2c3" ∈ delivered [] [wireLine (ascii "04a1b2c3")] := by
    decide +kernel
  exact reader_turned_away hmain (by simp [colon]) hchunks hline rfl true List.length_replicate

end Client

end AsyncNFCServer
