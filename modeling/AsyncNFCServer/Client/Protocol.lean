import AsyncNFCServer.Client.Reader
import AsyncNFCServer.ReaderHandler.Handlers

/-!
# The client and the server on the wire

The reader client sends the hex string of a UID and waits for `Godkendt` or
`Afvist`.  `handleClient` expects a door name, a colon and a UID, and answers
`Approved` or `Denied`.  A hex string has no colon, and neither answer is one of
the words the client knows: no card and no state of the server make the two
sides agree.
-/

namespace AsyncNFCServer

/-- The decision of `handleClient` on a package, if it comes to one. -/
def decision (s : Store) (pkg : Str) : Option Bool :=
  match parsePackage pkg with
  | none => none
  | some (name, uid) => (s.doors name).map (authorized s uid)

/-- A decision is answered `Approved` or `Denied`. -/
theorem replies_of_decision {s : Store} {pkg : Str} {approved : Bool}
    (h : decision s pkg = some approved) :
    (handleClient pkg s).replies = [if approved then ascii "Approved" else ascii "Denied"] := by
  unfold decision at h
  cases hpkg : parsePackage pkg with
  | none => simp [hpkg] at h
  | some fields =>
      simp only [hpkg, Option.map_eq_some_iff] at h
      obtain ⟨level, hdoor, rfl⟩ := h
      simp only [handleClient, hpkg, lookup, hdoor]

namespace Client

/-- The server takes the line sent for a card as a door and that card. -/
def RequestAccepted (uidString : Str) (uid : List Byte) : Prop :=
  ∃ buffer line door, getUid uidString uid = some buffer ∧ sendData buffer = wireLine line ∧
    parsePackage line = some (door, hexString uid)

/-- What `io_feedback` tells about the answers to a request, if `recieve_data`
returns one. -/
def feedback (bufferReceive : Str) (replies : List Str) : Option Feedback :=
  match recieveData bufferReceive ((replies.flatMap wireLine).map .byte) with
  | .returned true response _ => some (ioFeedback response)
  | _ => none

/-- The client tells the decision the server has taken. -/
def AnswerUnderstood (bufferReceive : Str) (s : Store) (pkg : Str) : Prop :=
  (feedback bufferReceive (handleClient pkg s).replies = some .granted ↔
      decision s pkg = some true) ∧
    (feedback bufferReceive (handleClient pkg s).replies = some .refused ↔
      decision s pkg = some false)

theorem parsePackage_eq_none_of_notMem {pkg : Str} (h : colon ∉ pkg) : parsePackage pkg = none := by
  simp [parsePackage, List.idxOf_eq_length h]

/-- A hex string is not a package. -/
theorem parsePackage_hexString (uid : List Byte) : parsePackage (hexString uid) = none :=
  parsePackage_eq_none_of_notMem fun h => (mem_hexString h).2.1 rfl

/-- The client understands neither answer. -/
theorem feedback_of_decision {s : Store} {pkg : Str} {approved : Bool}
    (h : decision s pkg = some approved) {bufferReceive : Str}
    (hbuffer : 10 ≤ bufferReceive.length) :
    feedback bufferReceive (handleClient pkg s).replies = some .nothing := by
  have hanswer : ∃ answer, (handleClient pkg s).replies = [answer] ∧ answer.length + 2 ≤ 10 ∧
      (∀ c ∈ answer, c ≠ newline ∧ c ≠ carriageReturn ∧ c ≠ 0) ∧
      answer ≠ ascii "Godkendt" ∧ answer ≠ ascii "Afvist" := by
    refine ⟨_, replies_of_decision h, ?_⟩
    cases approved <;> decide +kernel
  obtain ⟨answer, hreplies, hlength, hbytes, hgranted, hrefused⟩ := hanswer
  obtain ⟨received, hreceived, hstring⟩ :=
    recieveData_line hbytes (hlength.trans hbuffer) []
  rw [List.append_nil] at hreceived
  have hwire : [answer].flatMap wireLine = wireLine answer := by simp
  simp only [feedback, hreplies, hwire, hreceived, ioFeedback, hstring, if_neg hgranted,
    if_neg hrefused]

/-- **The client and the server never agree.**  No line that the client sends
for a card of 1 to 7 bytes is accepted as a package, and no decision of the
server is understood by the client. -/
theorem not_requestAccepted_and_not_answerUnderstood {uid : List Byte}
    (hpos : 1 ≤ uid.length) (hlength : uid.length ≤ 7) {uidString bufferReceive : Str}
    (huidString : uidString.length = 32) (hbuffer : bufferReceive.length = 256) (s : Store) :
    ¬ RequestAccepted uidString uid ∧
      ∀ pkg, decision s pkg ≠ none → ¬ AnswerUnderstood bufferReceive s pkg := by
  constructor
  · rintro ⟨buffer, line, door, hget, hsend, hparse⟩
    obtain ⟨buffer', hget', -, hsend'⟩ :=
      getUid_eq (List.length_pos_iff.mp hpos)
        (show 2 * uid.length + 1 ≤ uidString.length by omega)
    obtain rfl : buffer' = buffer := Option.some.inj (hget'.symm.trans hget)
    have hline : hexString uid = line := List.append_cancel_right (hsend'.symm.trans hsend)
    rw [← hline, parsePackage_hexString] at hparse
    exact absurd hparse (by simp)
  · rintro pkg hdecision ⟨hgranted, hrefused⟩
    obtain ⟨approved, happroved⟩ := Option.ne_none_iff_exists'.mp hdecision
    rw [feedback_of_decision happroved (by omega)] at hgranted hrefused
    cases approved with
    | true => exact absurd (hgranted.mpr happroved) (by simp)
    | false => exact absurd (hrefused.mpr happroved) (by simp)

/-- A four-byte card at a server with one door and one user. -/
theorem not_requestAccepted_04a1b2c3 :
    let s := load (.object [(ascii "doors", .array [doorEntry (ascii "lab") 2]),
      (ascii "users", .array [userEntry (ascii "alice") 3 (ascii "04a1b2c3")])]) .missing
    ¬ RequestAccepted (List.replicate 32 0) [0x04, 0xa1, 0xb2, 0xc3] ∧
      ∀ pkg, decision s pkg ≠ none → ¬ AnswerUnderstood (List.replicate 256 0) s pkg :=
  not_requestAccepted_and_not_answerUnderstood (by decide) (by decide) List.length_replicate
    List.length_replicate _

/-- The card 04a1b2c3: the server answers that its line is not a package. -/
theorem not_forall_requestAccepted :
    ¬ ∀ uid : List Byte, 1 ≤ uid.length → uid.length ≤ 7 →
      ∀ (uidString bufferReceive : Str), uidString.length = 32 → bufferReceive.length = 256 →
        ∀ s : Store, RequestAccepted uidString uid ∧
          ∀ pkg, AnswerUnderstood bufferReceive s pkg := by
  intro h
  obtain ⟨⟨buffer, line, door, hget, hsend, hparse⟩, -⟩ :=
    h [0x04, 0xa1, 0xb2, 0xc3] (by decide) (by decide) (List.replicate 32 0)
      (List.replicate 256 0) List.length_replicate List.length_replicate
      (load emptyConfig (.doc emptyConfig))
  have hbuffer : getUid (List.replicate 32 0) [0x04, 0xa1, 0xb2, 0xc3] =
      some (ascii "04a1b2c3" ++ List.replicate 24 0) := by decide +kernel
  obtain rfl := Option.some.inj (hbuffer.symm.trans hget)
  have hline : wireLine (ascii "04a1b2c3") = wireLine line :=
    (show wireLine (ascii "04a1b2c3") = sendData _ by decide +kernel).trans hsend
  obtain rfl := List.append_cancel_right hline
  exact absurd hparse (by simp [show parsePackage (ascii "04a1b2c3") = none by decide +kernel])

end Client

end AsyncNFCServer
