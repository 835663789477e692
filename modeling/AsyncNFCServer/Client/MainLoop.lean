import AsyncNFCServer.Client.Reader
import AsyncNFCServer.Lib.Runs

/-!
# The main loop of the reader client

Each pass of the loop scans a card, sends its UID and reads one line.  Nothing
tells which request that line answers; the client and the server agree on it only
as long as every pass reads the whole line it has asked for.  A read error ends
this: `recieve_data` leaves the rest of its line unread, the loop goes on, and
the next line to be read is an old one.

No pass gets back what an earlier one has left, since each reads at most one line
and asks for one more (`newline_mem_unread_pass`).  So the client shows each card
its own answer exactly if no pass after a failed one reads a line (`paired_iff`).
-/

namespace AsyncNFCServer

namespace Client

/-! ## What a pass meets -/

/-- A card as `PN532_ReadPassiveTarget` reports it. -/
structure Card where
  uid : List Byte
  pos : 1 ≤ uid.length
  short : uid.length ≤ 7

/-- One pass: the card that `get_uid` finds, and the number of bytes after which a
`read` of `recieve_data` fails, if one does. -/
structure Scan where
  card : Card
  failing : Option Nat

/-- A server that answers every request line with one line, which may depend on
the requests before.  The line fits in `buffer_receive`. -/
structure Responder where
  answer : List Str → Str
  line : ∀ requests, newline ∉ answer requests
  short : ∀ requests, (answer requests).length ≤ 254

/-- The bytes at which `recieve_data` stops. -/
def endsLine (c : Byte) : Bool := c == newline || c == carriageReturn

/-- The results of `read` over the bytes that a socket delivers, with -1 after
the first `n` of them if a read fails there. -/
def readResults (stream : Str) : Option Nat → List ReadResult
  | none => stream.map .byte
  | some n => (stream.take n).map .byte ++ .error :: (stream.drop n).map .byte

/-- A read fails before the end of a line has come, and before `limit` bytes. -/
def Interrupted (limit : Nat) (stream : Str) (failing : Option Nat) : Prop :=
  ∃ n, failing = some n ∧ n < min (stream.findIdx endsLine + 1) limit

/-- The bytes behind read results that have not been used. -/
def unreadBytes (reads : List ReadResult) : Str :=
  reads.filterMap fun
    | .byte b => some b
    | .closed | .error => none

/-! ## The loop -/

/-- The variables of `main` that a pass uses, and what is on the connection. -/
structure Loop where
  uidString : Str
  bufferReceive : Str
  /-- what the server has sent and no `read` has returned -/
  unread : Str
  /-- the requests sent so far -/
  requests : List Str

namespace Loop

/-- `main` before its loop; the two buffers are not initialized. -/
def start (uidString bufferReceive : Str) : Loop := ⟨uidString, bufferReceive, [], []⟩

variable (server : Responder) (l : Loop) (scan : Scan)

/-- `uid_string` after `get_uid`.  No card overruns it. -/
def printed : Str := (getUid l.uidString scan.card.uid).getD l.uidString

/-- The requests after `send_data`. -/
def sent : List Str := l.requests ++ [sendData (l.printed scan)]

/-- What there is to read once the server has answered. -/
def stream : Str := l.unread ++ wireLine (server.answer (l.sent scan))

/-- The call of `recieve_data`. -/
def received : Received :=
  recieveData l.bufferReceive (readResults (l.stream server scan) scan.failing)

/-- The argument of `io_feedback`, if it is called. -/
def response : Option Str :=
  match l.received server scan with
  | .returned true bufferReceive _ => some bufferReceive
  | _ => none

/-- One pass of the loop. -/
def pass : Loop :=
  match l.received server scan with
  | .returned _ bufferReceive reads =>
      ⟨l.printed scan, bufferReceive, unreadBytes reads, l.sent scan⟩
  -- the call does not return, and neither does the pass
  | .waiting => l

/-- If `io_feedback` is called, then with the answer to the request of this pass:
nothing of an earlier answer was left to be read. -/
def Paired : Prop :=
  ∀ bufferReceive, l.response server scan = some bufferReceive →
    l.unread = [] ∧
      cString bufferReceive = server.answer (l.requests ++ [wireLine (hexString scan.card.uid)])

/-- A read of the pass fails before its line is complete. -/
def Fails : Prop := Interrupted 255 (l.stream server scan) scan.failing

/-- Once the reads of a pass have failed, those of all later passes fail.  Answers
that are read before have no carriage return and no NUL. -/
def Undisturbed : Loop → List Scan → Prop
  | _, [] => True
  | l, scan :: scans =>
      (l.Fails server scan →
        Runs.Each (pass server) (Fails server) (l.pass server scan) scans) ∧
      (¬ l.Fails server scan →
        (∀ c ∈ server.answer (l.sent scan), c ≠ carriageReturn ∧ c ≠ 0) ∧
          Undisturbed (l.pass server scan) scans)

end Loop

/-! ## One call of recieve_data -/

theorem endsLine_iff {c : Byte} : endsLine c = true ↔ c = newline ∨ c = carriageReturn := by
  simp [endsLine]

theorem readResults_cons (c : Byte) (stream : Str) (failing : Option Nat) :
    readResults (c :: stream) (failing.map (· + 1)) = .byte c :: readResults stream failing := by
  cases failing with
  | none => rfl
  | some n => rfl

/-- The first read fails, or the reads after it are those of the rest. -/
theorem failing_cases (failing : Option Nat) :
    failing = some 0 ∨ ∃ later : Option Nat, failing = later.map (· + 1) := by
  cases failing with
  | none => exact Or.inr ⟨none, rfl⟩
  | some n =>
      cases n with
      | zero => exact Or.inl rfl
      | succ n => exact Or.inr ⟨some n, rfl⟩

theorem not_interrupted_zero (stream : Str) (failing : Option Nat) :
    ¬ Interrupted 0 stream failing := by
  rintro ⟨n, -, hn⟩
  rw [Nat.min_zero] at hn
  exact absurd hn (Nat.not_lt_zero n)

theorem interrupted_first {limit : Nat} (h : 0 < limit) (stream : Str) :
    Interrupted limit stream (some 0) :=
  ⟨0, rfl, lt_min (Nat.succ_pos _) h⟩

theorem not_interrupted_of_endsLine {c : Byte} (hc : endsLine c = true) (limit : Nat)
    (stream : Str) (later : Option Nat) :
    ¬ Interrupted limit (c :: stream) (later.map (· + 1)) := by
  rintro ⟨n, hn, hlt⟩
  obtain ⟨m, -, rfl⟩ := Option.map_eq_some_iff.mp hn
  simp only [List.findIdx_cons, hc, cond_true] at hlt
  omega

theorem interrupted_cons {c : Byte} (hc : endsLine c = false) (limit : Nat) (stream : Str)
    (later : Option Nat) :
    Interrupted (limit + 1) (c :: stream) (later.map (· + 1)) ↔ Interrupted limit stream later := by
  cases later with
  | none => simp [Interrupted]
  | some n =>
      simp only [Interrupted, Option.map_some, Option.some.injEq, List.findIdx_cons, hc, cond_false]
      constructor
      · rintro ⟨m, rfl, hm⟩
        exact ⟨n, rfl, by omega⟩
      · rintro ⟨m, rfl, hm⟩
        exact ⟨n + 1, rfl, by omega⟩

theorem unreadBytes_map (stream : Str) : unreadBytes (stream.map .byte) = stream := by
  simp [unreadBytes, List.filterMap_map]

theorem unreadBytes_readResults (stream : Str) (failing : Option Nat) :
    unreadBytes (readResults stream failing) = stream := by
  cases failing with
  | none => exact unreadBytes_map stream
  | some n =>
      have herror : unreadBytes [.error] = [] := rfl
      calc unreadBytes (readResults stream (some n))
          = unreadBytes ((stream.take n).map .byte) ++ unreadBytes [.error] ++
              unreadBytes ((stream.drop n).map .byte) := by
            simp [readResults, unreadBytes, List.filterMap_append]
        _ = stream.take n ++ [] ++ stream.drop n := by
            rw [unreadBytes_map, unreadBytes_map, herror]
        _ = stream := by simp

/-! The loop of `recieve_data`, one read at a time. -/

theorem recieveFrom_full {total : Nat} {buffer : Str} (h : ¬ total < buffer.length - 1)
    (reads : List ReadResult) :
    recieveFrom total buffer reads = .returned true (buffer.set total 0) reads := by
  unfold recieveFrom
  rw [if_neg h]

theorem recieveFrom_error {total : Nat} {buffer : Str} (h : total < buffer.length - 1)
    (reads : List ReadResult) :
    recieveFrom total buffer (.error :: reads) = .returned false buffer reads := by
  rw [recieveFrom, if_pos h]

theorem recieveFrom_endsLine {total : Nat} {buffer : Str} (h : total < buffer.length - 1)
    {c : Byte} (hc : endsLine c = true) (reads : List ReadResult) :
    recieveFrom total buffer (.byte c :: reads) = .returned true (buffer.set total 0) reads := by
  rw [recieveFrom, if_pos h]
  simp only [if_pos (endsLine_iff.mp hc)]

theorem recieveFrom_byte {total : Nat} {buffer : Str} (h : total < buffer.length - 1)
    {c : Byte} (hc : endsLine c = false) (reads : List ReadResult) :
    recieveFrom total buffer (.byte c :: reads) =
      recieveFrom (total + 1) (buffer.set total c) reads := by
  have hc' : ¬ (c = newline ∨ c = carriageReturn) := by
    rw [← endsLine_iff, hc]
    exact Bool.false_ne_true
  rw [recieveFrom, if_pos h]
  simp only [if_neg hc']

/-- Where a newline is to come the call returns, with an error exactly if a read
fails before its line is complete. -/
theorem recieveFrom_readResults {stream : Str} (hline : newline ∈ stream) (total : Nat)
    (buffer : Str) (failing : Option Nat) :
    ∃ ok buffer' rest,
      recieveFrom total buffer (readResults stream failing) = .returned ok buffer' rest ∧
        (ok = false ↔ Interrupted (buffer.length - 1 - total) stream failing) := by
  induction stream generalizing total buffer failing with
  | nil => exact absurd hline List.not_mem_nil
  | cons c stream ih =>
      by_cases htotal : total < buffer.length - 1
      · rcases failing_cases failing with rfl | ⟨later, rfl⟩
        · exact ⟨false, buffer, _, recieveFrom_error htotal _,
            iff_of_true rfl (interrupted_first (by omega) _)⟩
        · rw [readResults_cons]
          cases hc : endsLine c with
          | true =>
              exact ⟨true, _, _, recieveFrom_endsLine htotal hc _,
                iff_of_false (by simp) (not_interrupted_of_endsLine hc _ _ _)⟩
          | false =>
              have hmem : newline ∈ stream := by
                rcases List.mem_cons.mp hline with rfl | hmem
                · exact absurd hc (by decide)
                · exact hmem
              obtain ⟨ok, buffer', rest, hcall, hok⟩ :=
                ih hmem (total + 1) (buffer.set total c) later
              refine ⟨ok, buffer', rest, ?_, ?_⟩
              · rw [recieveFrom_byte htotal hc, hcall]
              · have hlimit : buffer.length - 1 - total = buffer.length - 1 - (total + 1) + 1 := by
                  omega
                rw [hok, List.length_set, hlimit, interrupted_cons hc]
      · have hlimit : buffer.length - 1 - total = 0 := by omega
        refine ⟨true, _, _, recieveFrom_full htotal _, ?_⟩
        rw [hlimit]
        exact iff_of_false (by simp) (not_interrupted_zero _ _)

section Returned

variable {total : Nat} {buffer buffer' : Str} {reads rest : List ReadResult} {ok : Bool}

theorem length_recieveFrom (h : recieveFrom total buffer reads = .returned ok buffer' rest) :
    buffer'.length = buffer.length := by
  fun_induction recieveFrom total buffer reads with
  | case1 => exact absurd h (by simp)
  | case2 | case3 | case5 | case7 =>
      cases h
      simp
  | case4 total buffer _ reads _ ih => exact ih h
  | case6 total buffer _ b reads _ ih => rw [ih h, List.length_set]

/-- A call uses up at most one newline, and none if it fails. -/
theorem count_newline_recieveFrom
    (h : recieveFrom total buffer reads = .returned ok buffer' rest) :
    (unreadBytes reads).count newline ≤ (unreadBytes rest).count newline + ok.toNat := by
  fun_induction recieveFrom total buffer reads with
  | case1 => exact absurd h (by simp)
  | case2 | case3 | case7 =>
      cases h
      simp [unreadBytes]
  | case5 total buffer _ b reads _ =>
      cases h
      simp only [unreadBytes, List.filterMap_cons, List.count_cons, Bool.toNat_true]
      split_ifs <;> omega
  | case4 total buffer _ reads _ ih => exact ih h
  | case6 total buffer _ b reads hb ih =>
      have hne : b ≠ newline := fun hb' => hb (Or.inl hb')
      simpa [unreadBytes, List.count_cons, hne] using ih h

/-- What a NUL ends is taken from before it. -/
theorem mem_of_mem_cString {front behind : Str} {c : Byte}
    (h : c ∈ cString (front ++ 0 :: behind)) : c ∈ front := by
  rw [cString, List.takeWhile_append] at h
  split_ifs at h with hall
  · simpa using h
  · exact (List.takeWhile_prefix _).subset h

theorem set_eq_append {buffer : Str} {total : Nat} (h : total < buffer.length) (b : Byte) :
    buffer.set total b = buffer.take total ++ b :: buffer.drop (total + 1) := by
  rw [List.set_eq_take_append_cons_drop, if_pos h]

/-- The string that a call has received is free of line ends. -/
theorem not_endsLine_recieveFrom
    (h : recieveFrom total buffer reads = .returned true buffer' rest)
    (htaken : ∀ c ∈ buffer.take total, endsLine c = false) (hbuffer : total < buffer.length) :
    ∀ c ∈ cString buffer', endsLine c = false := by
  -- the NUL that ends the string is written behind the bytes received
  have hended : ∀ (total : Nat) (buffer : Str), total < buffer.length →
      (∀ c ∈ buffer.take total, endsLine c = false) →
      ∀ c ∈ cString (buffer.set total 0), endsLine c = false := by
    intro total buffer hlt htaken c hc
    rw [set_eq_append hlt] at hc
    exact htaken c (mem_of_mem_cString hc)
  fun_induction recieveFrom total buffer reads with
  | case1 | case2 => exact absurd h (by simp)
  | case3 total buffer | case5 total buffer | case7 total buffer =>
      cases h
      exact hended total buffer hbuffer htaken
  | case4 total buffer _ reads _ ih => exact ih h htaken hbuffer
  | case6 total buffer hlt b reads hb ih =>
      refine ih h ?_ (by rw [List.length_set]; omega)
      intro c hc
      have hlength : (buffer.take total).length = total := by
        rw [List.length_take]
        omega
      rw [set_eq_append hbuffer, List.take_append, hlength, List.take_of_length_le (by omega),
        Nat.add_sub_cancel_left] at hc
      rcases List.mem_append.mp hc with htake | hnew
      · exact htaken c htake
      · obtain rfl : c = b := by simpa using hnew
        rw [← Bool.not_eq_true, endsLine_iff]
        exact hb

end Returned

/-- All of a line is read that is not interrupted. -/
theorem readResults_of_not_interrupted {line : Str} (hline : ∀ c ∈ line, endsLine c = false)
    (hshort : line.length ≤ 254) {failing : Option Nat}
    (h : ¬ Interrupted 255 (wireLine line) failing) :
    ∃ rest, readResults (wireLine line) failing = (wireLine line).map .byte ++ rest ∧
      unreadBytes rest = [] := by
  have hlength : (wireLine line).length = line.length + 1 := by
    simp [wireLine]
  have hindex : (wireLine line).findIdx endsLine = line.length := by
    have hnone : line.findIdx endsLine = line.length := List.findIdx_eq_length.mpr hline
    have hends : endsLine newline = true := by decide
    simp [wireLine, List.findIdx_append, hnone, List.findIdx_cons, hends]
  cases failing with
  | none => exact ⟨[], by simp [readResults], rfl⟩
  | some n =>
      have hn : (wireLine line).length ≤ n := by
        by_contra hlt
        exact h ⟨n, rfl, by omega⟩
      refine ⟨[.error], ?_, rfl⟩
      rw [readResults, List.take_of_length_le hn, List.drop_of_length_le hn]
      rfl

/-! ## One pass -/

namespace Loop

/-- The sizes of `uid_string` and `buffer_receive`. -/
structure Sized (l : Loop) : Prop where
  uidString : l.uidString.length = 32
  bufferReceive : l.bufferReceive.length = 256

variable {server : Responder} {l : Loop} {scan : Scan}

/-- The request of a pass is the UID of its card. -/
theorem Sized.request (h : l.Sized) (scan : Scan) :
    (l.printed scan).length = 32 ∧
      l.sent scan = l.requests ++ [wireLine (hexString scan.card.uid)] := by
  have huid : scan.card.uid ≠ [] := List.length_pos_iff.mp scan.card.pos
  have hfits : 2 * scan.card.uid.length + 1 ≤ l.uidString.length := by
    have hshort := scan.card.short
    rw [h.uidString]
    omega
  obtain ⟨buffer, hprint, hlength, hsend⟩ := getUid_eq huid hfits
  have hprinted : l.printed scan = buffer := by
    rw [printed, hprint]
    rfl
  constructor
  · rw [hprinted, hlength, h.uidString]
  · rw [sent, hprinted, hsend]
    rfl

theorem newline_mem_stream (server : Responder) (l : Loop) (scan : Scan) :
    newline ∈ l.stream server scan := by
  simp [stream, wireLine]

/-- `recieve_data` returns, with `false` exactly if a read fails. -/
theorem Sized.received (h : l.Sized) (server : Responder) (scan : Scan) :
    ∃ ok buffer reads, l.received server scan = .returned ok buffer reads ∧
      (ok = false ↔ l.Fails server scan) := by
  obtain ⟨ok, buffer, reads, hcall, hok⟩ := recieveFrom_readResults
    (newline_mem_stream server l scan) 0 l.bufferReceive scan.failing
  rw [h.bufferReceive] at hok
  exact ⟨ok, buffer, reads, hcall, hok⟩

/-- `io_feedback` is called unless a read fails. -/
theorem Sized.response_eq_none_iff (h : l.Sized) :
    l.response server scan = none ↔ l.Fails server scan := by
  obtain ⟨ok, buffer, reads, hcall, hok⟩ := h.received server scan
  rw [← hok, response, hcall]
  cases ok <;> simp

theorem Sized.pass (h : l.Sized) (server : Responder) (scan : Scan) :
    (l.pass server scan).Sized := by
  obtain ⟨ok, buffer, reads, hcall, -⟩ := h.received server scan
  have hpass : l.pass server scan =
      ⟨l.printed scan, buffer, unreadBytes reads, l.sent scan⟩ := by
    rw [Loop.pass, hcall]
  rw [hpass]
  exact ⟨(h.request scan).1, (length_recieveFrom hcall).trans h.bufferReceive⟩

/-- The server adds a line; the call takes away one at most, and none if it fails. -/
theorem Sized.count_newline_pass (h : l.Sized) (server : Responder) (scan : Scan) :
    l.unread.count newline ≤ (l.pass server scan).unread.count newline ∧
      (l.Fails server scan → 0 < (l.pass server scan).unread.count newline) := by
  obtain ⟨ok, buffer, reads, hcall, hok⟩ := h.received server scan
  have hunread : (l.pass server scan).unread = unreadBytes reads := by
    rw [Loop.pass, hcall]
  have hadded : (l.stream server scan).count newline = l.unread.count newline + 1 := by
    have hline : (server.answer (l.sent scan)).count newline = 0 :=
      List.count_eq_zero.mpr (server.line _)
    simp [stream, wireLine, List.count_append, hline]
  have htaken := count_newline_recieveFrom hcall
  rw [unreadBytes_readResults, hadded] at htaken
  rw [hunread]
  cases ok with
  | true =>
      refine ⟨by simpa using htaken, ?_⟩
      intro hfails
      exact absurd (hok.mpr hfails) (by simp)
  | false =>
      simp only [Bool.toNat_false, Nat.add_zero] at htaken
      exact ⟨by omega, fun _ => by omega⟩

/-- **Nothing is caught up**: once a newline is left unread, one always is. -/
theorem newline_mem_unread_pass (h : l.Sized)
    (hleft : newline ∈ l.unread ∨ l.Fails server scan) :
    newline ∈ (l.pass server scan).unread := by
  obtain ⟨hkept, hfailed⟩ := h.count_newline_pass server scan
  rw [← List.count_pos_iff] at hleft ⊢
  rcases hleft with hunread | hfails
  · exact hunread.trans_le hkept
  · exact hfailed hfails

/-- Behind a line that is left unread a pass is paired only by failing. -/
theorem paired_iff_fails (h : l.Sized) (hleft : newline ∈ l.unread) :
    l.Paired server scan ↔ l.Fails server scan := by
  rw [← h.response_eq_none_iff]
  constructor
  · intro hpaired
    refine Option.eq_none_iff_forall_ne_some.mpr fun buffer hresponse => ?_
    rw [(hpaired buffer hresponse).1] at hleft
    exact absurd hleft List.not_mem_nil
  · intro hnone buffer hresponse
    rw [hnone] at hresponse
    exact absurd hresponse (by simp)

/-- A pass that starts with nothing unread and does not fail gets its answer, if
that is free of carriage returns and NULs. -/
theorem response_of_plain (h : l.Sized) (hunread : l.unread = [])
    (hok : ¬ l.Fails server scan)
    (hplain : ∀ c ∈ server.answer (l.sent scan), c ≠ carriageReturn ∧ c ≠ 0) :
    (l.pass server scan).unread = [] ∧
      ∃ buffer, l.response server scan = some buffer ∧
        cString buffer = server.answer (l.sent scan) := by
  have hstream : l.stream server scan = wireLine (server.answer (l.sent scan)) := by
    rw [stream, hunread, List.nil_append]
  have hshort := server.short (l.sent scan)
  have hnewline : ∀ c ∈ server.answer (l.sent scan), c ≠ newline := by
    intro c hc heq
    exact server.line _ (heq ▸ hc)
  have hline : ∀ c ∈ server.answer (l.sent scan), endsLine c = false := by
    intro c hc
    rw [← Bool.not_eq_true, endsLine_iff]
    exact not_or.mpr ⟨hnewline c hc, (hplain c hc).1⟩
  rw [Fails, hstream] at hok
  obtain ⟨rest, hreads, hrest⟩ := readResults_of_not_interrupted hline hshort hok
  obtain ⟨buffer, hcall, hstring⟩ := recieveData_line
    (fun c hc => ⟨hnewline c hc, (hplain c hc).1, (hplain c hc).2⟩)
    (show _ + 2 ≤ l.bufferReceive.length by rw [h.bufferReceive]; omega) rest
  have hreceived : l.received server scan = .returned true buffer rest := by
    rw [received, hstream, hreads, hcall]
  constructor
  · rw [Loop.pass, hreceived]
    exact hrest
  · refine ⟨buffer, ?_, hstring⟩
    rw [response, hreceived]

/-- The string that `io_feedback` gets has no carriage return and no NUL. -/
theorem Sized.plain_response (h : l.Sized) {buffer : Str}
    (hresponse : l.response server scan = some buffer) :
    ∀ c ∈ cString buffer, c ≠ carriageReturn ∧ c ≠ 0 := by
  obtain ⟨ok, buffer', reads, hcall, -⟩ := h.received server scan
  rw [response, hcall] at hresponse
  cases ok with
  | false => exact absurd hresponse (by simp)
  | true =>
      obtain rfl : buffer' = buffer := Option.some.inj hresponse
      intro c hc
      have hends := not_endsLine_recieveFrom hcall (by simp) (by rw [h.bufferReceive]; omega) c hc
      constructor
      · intro hreturn
        rw [endsLine_iff.mpr (Or.inr hreturn)] at hends
        exact absurd hends (by simp)
      · simpa using List.mem_takeWhile_imp hc

/-- With nothing unread, a pass that does not fail is paired exactly if its answer
is plain. -/
theorem paired_iff_plain (h : l.Sized) (hunread : l.unread = [])
    (hok : ¬ l.Fails server scan) :
    l.Paired server scan ↔
      ∀ c ∈ server.answer (l.sent scan), c ≠ carriageReturn ∧ c ≠ 0 := by
  constructor
  · intro hpaired
    obtain ⟨buffer, hresponse⟩ :=
      Option.ne_none_iff_exists'.mp (mt h.response_eq_none_iff.mp hok)
    have hstring := (hpaired buffer hresponse).2
    rw [← (h.request scan).2] at hstring
    rw [← hstring]
    exact h.plain_response hresponse
  · intro hplain buffer hresponse
    obtain ⟨-, buffer', hresponse', hstring⟩ := response_of_plain h hunread hok hplain
    obtain rfl : buffer' = buffer := Option.some.inj (hresponse'.symm.trans hresponse)
    rw [← (h.request scan).2]
    exact ⟨hunread, hstring⟩

/-! ## Runs -/

/-- After a failed pass, a run is paired exactly if every pass fails. -/
theorem each_paired_iff_each_fails (h : l.Sized) (hleft : newline ∈ l.unread)
    (scans : List Scan) :
    Runs.Each (pass server) (Paired server) l scans ↔
      Runs.Each (pass server) (Fails server) l scans := by
  refine Runs.each_congr_of_forall (J := fun l => l.Sized ∧ newline ∈ l.unread) ?_ ?_
    ⟨h, hleft⟩ scans
  · rintro l scan ⟨h, hleft⟩
    exact ⟨h.pass server scan, newline_mem_unread_pass h (Or.inl hleft)⟩
  · rintro l scan ⟨h, hleft⟩
    exact paired_iff_fails h hleft

theorem each_paired_iff_undisturbed (h : l.Sized) (hunread : l.unread = [])
    (scans : List Scan) :
    Runs.Each (pass server) (Paired server) l scans ↔ Undisturbed server l scans := by
  induction scans generalizing l with
  | nil => exact Iff.rfl
  | cons scan scans ih =>
      rw [Runs.Each, Undisturbed]
      by_cases hfails : l.Fails server scan
      · have hnow : l.Paired server scan := by
          intro buffer hresponse
          rw [h.response_eq_none_iff.mpr hfails] at hresponse
          exact absurd hresponse (by simp)
        have hlater : Runs.Each (Loop.pass server) (Paired server) (l.pass server scan) scans ↔
            Runs.Each (Loop.pass server) (Fails server) (l.pass server scan) scans :=
          each_paired_iff_each_fails (h.pass server scan)
            (newline_mem_unread_pass h (Or.inr hfails)) scans
        simp only [hnow, hfails, hlater, true_and, forall_const, not_true_eq_false,
          false_implies, and_true]
      · rw [paired_iff_plain h hunread hfails]
        have hnext : (∀ c ∈ server.answer (l.sent scan), c ≠ carriageReturn ∧ c ≠ 0) →
            (Runs.Each (pass server) (Paired server) (l.pass server scan) scans ↔
              Undisturbed server (l.pass server scan) scans) := fun hplain =>
          ih (h.pass server scan) (response_of_plain h hunread hfails hplain).1
        simp only [hfails, false_implies, not_false_eq_true, forall_const, true_and]
        exact and_congr_right hnext

/-- **Which runs show each card its own answer.**  Those in which, once a read
error has cut `recieve_data` short, it cuts every later call short too, so that
`io_feedback` is not called again; and no answer read before that has a carriage
return or a NUL. -/
theorem paired_iff (server : Responder) {uidString bufferReceive : Str}
    (huidString : uidString.length = 32) (hbufferReceive : bufferReceive.length = 256)
    (scans : List Scan) :
    Runs.Each (pass server) (Paired server) (start uidString bufferReceive) scans ↔
      Undisturbed server (start uidString bufferReceive) scans :=
  each_paired_iff_undisturbed ⟨huidString, hbufferReceive⟩ rfl scans

/-- A server that refuses the first card only. -/
def refusesFirst : Responder where
  answer requests := if requests.length = 1 then ascii "Denied" else ascii "Approved"
  line requests := by
    split_ifs <;> decide
  short requests := by
    split_ifs <;> decide

def firstCard : Card := ⟨[0x04, 0xa1, 0xb2, 0xc3], by decide, by decide⟩

def secondCard : Card := ⟨[0x04, 0x0b, 0xad, 0xca], by decide, by decide⟩

/-- Two cards and no read error. -/
theorem paired_two_cards :
    Runs.Each (pass refusesFirst) (Paired refusesFirst)
      (start (List.replicate 32 0) (List.replicate 256 0))
      [⟨firstCard, none⟩, ⟨secondCard, none⟩] := by
  refine (paired_iff refusesFirst List.length_replicate List.length_replicate _).mpr ?_
  have hread : ∀ (l : Loop) (card : Card), ¬ l.Fails refusesFirst ⟨card, none⟩ := by
    rintro l card ⟨n, hn, -⟩
    exact absurd hn (by simp)
  exact ⟨fun hfails => absurd hfails (hread _ _), fun _ => ⟨by decide +kernel,
    fun hfails => absurd hfails (hread _ _), fun _ => ⟨by decide +kernel, trivial⟩⟩⟩

/-- The first read fails, and the second card is told that it is denied. -/
theorem not_forall_paired :
    ¬ ∀ (server : Responder) (uidString bufferReceive : Str), uidString.length = 32 →
      bufferReceive.length = 256 → ∀ scans : List Scan,
        Runs.Each (pass server) (Paired server) (start uidString bufferReceive) scans := by
  intro h
  obtain ⟨-, hsecond, -⟩ := h refusesFirst (List.replicate 32 0) (List.replicate 256 0)
    List.length_replicate List.length_replicate [⟨firstCard, some 0⟩, ⟨secondCard, none⟩]
  have hshown : ∃ bufferReceive,
      ((start (List.replicate 32 0) (List.replicate 256 0)).pass refusesFirst
        ⟨firstCard, some 0⟩).response refusesFirst ⟨secondCard, none⟩ = some bufferReceive ∧
      cString bufferReceive = ascii "Denied" :=
    ⟨ascii "Denied" ++ List.replicate 250 0, by decide +kernel, by decide +kernel⟩
  obtain ⟨bufferReceive, hresponse, hdenied⟩ := hshown
  have hanswer := (hsecond bufferReceive hresponse).2
  rw [hdenied] at hanswer
  exact absurd hanswer (by decide +kernel)

end Loop

end Client

end AsyncNFCServer
