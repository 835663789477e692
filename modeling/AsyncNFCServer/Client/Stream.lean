import AsyncNFCServer.Client.MainLoop

/-!
# Whole streams

`recieve_data` reads byte by byte into the `len` bytes that its caller vouches
for, which may be the front of more memory.  The loop leaves at a line end, with a
full buffer, or with an error of `read`.  When the peer has closed the
connection, `read` returns 0 and writes nothing; the loop does not look at the
number, only at the byte of the buffer that nothing was written to.  So it spins
unless a line has ended before, the buffer is full, or the stale byte happens to
be a line end (`endsWithin_iff`).

On a stream of lines successive calls get one line each (`recieve_lines`).
-/

namespace AsyncNFCServer

namespace Client

/-- The loop of `recieve_data`, where `memory` begins at `buffer_receive` and may be
longer than `len`. -/
def recieveWithin (len : Nat) : Nat → Str → List ReadResult → Received
  | total, memory, reads =>
      if total < len - 1 then
        match reads with
        | [] => .waiting
        | .error :: reads => .returned false memory reads
        | .closed :: reads =>
            if memory[total]? = some newline ∨ memory[total]? = some carriageReturn then
              .returned true (memory.set total 0) reads
            else recieveWithin len total memory reads
        | .byte b :: reads =>
            if b = newline ∨ b = carriageReturn then .returned true (memory.set total 0) reads
            else recieveWithin len (total + 1) (memory.set total b) reads
      else .returned true (memory.set total 0) reads

/-- With the peer gone after `stream`, the call returns after finitely many reads,
and has written to the first `len` bytes only. -/
def EndsWithin (len : Nat) (memory stream : Str) : Prop :=
  ∃ n ok memory' rest,
    recieveWithin len 0 memory (stream.map .byte ++ List.replicate n .closed) =
        .returned ok memory' rest ∧
      memory'.length = memory.length ∧ memory'.drop len = memory.drop len

/-- The reads of a stream of lines. -/
def lineReads (lines : List Str) : List ReadResult := (lines.flatMap wireLine).map .byte

/-- The reads that are left after `k` calls with the given buffers, unless one of
them does not return. -/
def readsAfter (buffers : Nat → Str) (reads : List ReadResult) : Nat → Option (List ReadResult)
  | 0 => some reads
  | k + 1 =>
      match readsAfter buffers reads k with
      | none => none
      | some reads =>
          match recieveData (buffers k) reads with
          | .returned _ _ rest => some rest
          | .waiting => none

theorem recieveWithin_full {len total : Nat} (h : ¬ total < len - 1) (memory : Str)
    (reads : List ReadResult) :
    recieveWithin len total memory reads = .returned true (memory.set total 0) reads := by
  unfold recieveWithin
  rw [if_neg h]

/-- A buffer that is all the memory there is. -/
theorem recieveFrom_eq_recieveWithin (total : Nat) (buffer : Str) (reads : List ReadResult) :
    recieveFrom total buffer reads = recieveWithin buffer.length total buffer reads := by
  fun_induction recieveFrom total buffer reads with
  | case1 total buffer hlt => rw [recieveWithin, if_pos hlt]
  | case2 total buffer hlt reads => rw [recieveWithin, if_pos hlt]
  | case3 total buffer hlt reads hstale =>
      rw [recieveWithin, if_pos hlt]
      simp only [if_pos hstale]
  | case4 total buffer hlt reads hstale ih =>
      rw [recieveWithin, if_pos hlt]
      simp only [if_neg hstale, ih]
  | case5 total buffer hlt b reads hends =>
      rw [recieveWithin, if_pos hlt]
      simp only [if_pos hends]
  | case6 total buffer hlt b reads hends ih =>
      rw [recieveWithin, if_pos hlt]
      simp only [if_neg hends, ih, List.length_set]
  | case7 total buffer reads hlt => rw [recieveWithin_full hlt]

/-! ## What is written -/

section Written

variable {len total : Nat} {memory memory' : Str} {reads rest : List ReadResult} {ok : Bool}

/-- All that a call writes lies before `len`. -/
theorem recieveWithin_frame (hlen : 1 ≤ len) (htotal : total ≤ len - 1)
    (h : recieveWithin len total memory reads = .returned ok memory' rest) :
    memory'.length = memory.length ∧ memory'.drop len = memory.drop len := by
  have hset : ∀ (memory : Str) (total : Nat) (b : Byte), total ≤ len - 1 →
      (memory.set total b).length = memory.length ∧
        (memory.set total b).drop len = memory.drop len := by
    intro memory total b htotal
    exact ⟨List.length_set .., List.drop_set_of_lt (by omega)⟩
  fun_induction recieveWithin len total memory reads with
  | case1 => exact absurd h (by simp)
  | case2 =>
      cases h
      exact ⟨rfl, rfl⟩
  | case3 total memory | case5 total memory | case7 total memory =>
      cases h
      exact hset memory total 0 htotal
  | case4 total memory hlt reads hstale ih => exact ih htotal h
  | case6 total memory hlt b reads hends ih =>
      obtain ⟨hlength, hdrop⟩ := ih (by omega) h
      obtain ⟨hlength', hdrop'⟩ := hset memory total b htotal
      exact ⟨hlength.trans hlength', hdrop.trans hdrop'⟩

end Written

/-! ## When the peer has gone -/

/-- What makes a call return that has `total` bytes and is to read `stream` before
the peer is gone: the end of a line, a full buffer, or the end of a line that the
buffer held before at the position it comes to. -/
def Stops (len total : Nat) (memory stream : Str) : Prop :=
  (∃ c ∈ stream, endsLine c = true) ∨ len - 1 ≤ total + stream.length ∨
    (memory[total + stream.length]?).any endsLine = true

instance (len total : Nat) (memory stream : Str) : Decidable (Stops len total memory stream) :=
  inferInstanceAs (Decidable ((∃ c ∈ stream, endsLine c = true) ∨
    len - 1 ≤ total + stream.length ∨ (memory[total + stream.length]?).any endsLine = true))

section Closed

variable {len total : Nat} {memory : Str}

theorem stale_iff : (memory[total]? = some newline ∨ memory[total]? = some carriageReturn) ↔
    (memory[total]?).any endsLine = true := by
  cases memory[total]? with
  | none => simp
  | some c => simp [endsLine_iff]

/-- A byte that is no line end does not change what makes the call return. -/
theorem stops_cons {c : Byte} (hc : endsLine c = false) (stream : Str) :
    Stops len total memory (c :: stream) ↔ Stops len (total + 1) (memory.set total c) stream := by
  have hposition : total + (c :: stream).length = total + 1 + stream.length := by
    rw [List.length_cons]
    omega
  have hkept : (memory.set total c)[total + 1 + stream.length]? =
      memory[total + 1 + stream.length]? := List.getElem?_set_ne (by omega)
  rw [Stops, Stops, hposition, hkept]
  simp [hc]

/-- Over a byte that is no line end the loop spins. -/
theorem recieveWithin_replicate_closed (htotal : total < len - 1)
    (hstale : ¬ (memory[total]?).any endsLine = true) (n : Nat) :
    recieveWithin len total memory (List.replicate n .closed) = .waiting := by
  induction n with
  | zero => rw [List.replicate_zero, recieveWithin, if_pos htotal]
  | succ n ih =>
      rw [List.replicate_succ, recieveWithin, if_pos htotal]
      simp only [if_neg (mt stale_iff.mp hstale), ih]

/-- From any point of the loop on. -/
theorem returns_iff_stops (stream : Str) (total : Nat) (memory : Str) :
    (∃ n ok memory' rest, recieveWithin len total memory
        (stream.map .byte ++ List.replicate n .closed) = .returned ok memory' rest) ↔
      Stops len total memory stream := by
  induction stream generalizing total memory with
  | nil =>
      rw [List.map_nil]
      simp only [List.nil_append]
      by_cases htotal : total < len - 1
      · by_cases hstale : (memory[total]?).any endsLine = true
        · -- one more read, and the stale byte ends the line
          refine iff_of_true ⟨1, true, memory.set total 0, [], ?_⟩ (Or.inr (Or.inr hstale))
          rw [List.replicate_one, recieveWithin, if_pos htotal]
          simp only [if_pos (stale_iff.mpr hstale)]
        · refine iff_of_false ?_ ?_
          · rintro ⟨n, ok, memory', rest, hcall⟩
            rw [recieveWithin_replicate_closed htotal hstale] at hcall
            exact absurd hcall (by simp)
          · rintro (⟨c, hc, -⟩ | hfull | hends)
            · exact absurd hc List.not_mem_nil
            · rw [List.length_nil] at hfull
              omega
            · exact hstale hends
      · refine iff_of_true ⟨0, _, _, _, recieveWithin_full htotal _ _⟩ (Or.inr (Or.inl ?_))
        rw [List.length_nil]
        omega
  | cons c stream ih =>
      by_cases htotal : total < len - 1
      · cases hc : endsLine c with
        | true =>
            refine iff_of_true ⟨0, true, memory.set total 0, stream.map .byte ++ [], ?_⟩
              (Or.inl ⟨c, List.mem_cons_self, hc⟩)
            rw [List.map_cons, List.cons_append, recieveWithin, if_pos htotal]
            simp [endsLine_iff.mp hc]
        | false =>
            have hstep : ∀ n, recieveWithin len total memory
                ((c :: stream).map .byte ++ List.replicate n .closed) =
                  recieveWithin len (total + 1) (memory.set total c)
                    (stream.map .byte ++ List.replicate n .closed) := by
              intro n
              have hno : ¬ (c = newline ∨ c = carriageReturn) := by
                rw [← endsLine_iff, hc]
                exact Bool.false_ne_true
              rw [List.map_cons, List.cons_append, recieveWithin, if_pos htotal]
              simp only [if_neg hno]
            simp only [hstep]
            rw [ih, stops_cons hc]
      · refine iff_of_true ⟨0, _, _, _, recieveWithin_full htotal _ _⟩ (Or.inr (Or.inl ?_))
        omega

end Closed

/-- **When a call ends with its peer.**  The call returns, having written to its
buffer only, if and only if a line ends in what the peer has sent, or that fills
the buffer, or the byte behind it in the buffer is a line end from before. -/
theorem endsWithin_iff {len : Nat} (hlen : 1 ≤ len) (memory stream : Str) :
    EndsWithin len memory stream ↔ Stops len 0 memory stream := by
  rw [← returns_iff_stops]
  constructor
  · rintro ⟨n, ok, memory', rest, hcall, -⟩
    exact ⟨n, ok, memory', rest, hcall⟩
  · rintro ⟨n, ok, memory', rest, hcall⟩
    exact ⟨n, ok, memory', rest, hcall, recieveWithin_frame hlen (Nat.zero_le _) hcall⟩

/-- The peer has sent an answer without its newline, and the buffer held a longer
one. -/
theorem endsWithin_iff_stale :
    EndsWithin 8 (ascii "Denied" ++ newline :: ascii "xx") (ascii "Denied") :=
  (endsWithin_iff (by decide) _ _).mpr (by decide +kernel)

/-- The peer closes the connection before it has answered. -/
theorem not_forall_endsWithin :
    ¬ ∀ (len : Nat) (memory stream : Str), 1 ≤ len → len ≤ memory.length →
      EndsWithin len memory stream := by
  intro h
  obtain ⟨n, ok, memory', rest, hcall, -⟩ :=
    h 256 (List.replicate 256 0) [] (by decide) List.length_replicate.ge
  have hspins : recieveWithin 256 0 (List.replicate 256 0) (List.replicate n .closed) =
      .waiting := recieveWithin_replicate_closed (by decide) (by decide +kernel) n
  rw [List.map_nil, List.nil_append, hspins] at hcall
  exact absurd hcall (by simp)

/-! ## Line by line -/

section Lines

variable {len : Nat} {lines : List Str} {buffers : Nat → Str} {k : Nat}

theorem lineReads_cons (line : Str) (lines : List Str) :
    lineReads (line :: lines) = (wireLine line).map .byte ++ lineReads lines := by
  rw [lineReads, List.flatMap_cons, List.map_append, lineReads]

/-- A call takes the next line and its newline. -/
theorem recieveData_lineReads (hshort : ∀ line ∈ lines, line.length + 2 ≤ len)
    (hplain : ∀ line ∈ lines, ∀ c ∈ line, c ≠ newline ∧ c ≠ carriageReturn)
    (hk : k < lines.length) {buffer : Str} (hbuffer : buffer.length = len)
    (behind : List ReadResult) :
    recieveData buffer (lineReads (lines.drop k) ++ behind) =
      .returned true (lines[k] ++ 0 :: buffer.drop (lines[k].length + 1))
        (lineReads (lines.drop (k + 1)) ++ behind) := by
  have hmem : lines[k] ∈ lines := List.getElem_mem hk
  have hfits : lines[k].length + 2 ≤ buffer.length := by
    rw [hbuffer]
    exact hshort _ hmem
  rw [List.drop_eq_getElem_cons hk, lineReads_cons, List.append_assoc]
  exact recieveFrom_line (hplain _ hmem) [] buffer hfits _

/-- The calls before the `k`-th have taken the lines before the `k`-th. -/
theorem readsAfter_lineReads (hshort : ∀ line ∈ lines, line.length + 2 ≤ len)
    (hplain : ∀ line ∈ lines, ∀ c ∈ line, c ≠ newline ∧ c ≠ carriageReturn)
    (hbuffers : ∀ k, (buffers k).length = len) (behind : List ReadResult)
    (hk : k ≤ lines.length) :
    readsAfter buffers (lineReads lines ++ behind) k =
      some (lineReads (lines.drop k) ++ behind) := by
  induction k with
  | zero => rfl
  | succ k ih =>
      have hcall := recieveData_lineReads hshort hplain hk (hbuffers k) behind
      rw [readsAfter, ih (Nat.le_of_succ_le hk)]
      simp only [hcall]

end Lines

/-- **One line a call.**  On lines that fit and have no line end or NUL in them,
the `k`-th call finds the stream at the `k`-th line, returns `true` with that line
as the string in its buffer, and leaves the stream behind the line's newline. -/
theorem recieve_lines {len : Nat} (hlen : 2 ≤ len) {lines : List Str}
    (hshort : ∀ line ∈ lines, line.length ≤ len - 2)
    (hplain : ∀ line ∈ lines, ∀ c ∈ line, c ≠ newline ∧ c ≠ carriageReturn ∧ c ≠ 0)
    {buffers : Nat → Str} (hbuffers : ∀ k, (buffers k).length = len)
    (behind : List ReadResult) {k : Nat} (hk : k < lines.length) :
    readsAfter buffers (lineReads lines ++ behind) k =
        some (lineReads (lines.drop k) ++ behind) ∧
      ∃ received,
        recieveData (buffers k) (lineReads (lines.drop k) ++ behind) =
          .returned true received (lineReads (lines.drop (k + 1)) ++ behind) ∧
        received.length = len ∧ (∃ rest, received = lines[k] ++ 0 :: rest) ∧
        cString received = lines[k] ∧
        lineReads (lines.drop k) = (lines[k] ++ [newline]).map .byte ++
          lineReads (lines.drop (k + 1)) := by
  have hroom : ∀ line ∈ lines, line.length + 2 ≤ len := by
    intro line hmem
    have hle := hshort line hmem
    omega
  have hends : ∀ line ∈ lines, ∀ c ∈ line, c ≠ newline ∧ c ≠ carriageReturn :=
    fun line hmem c hc => ⟨(hplain line hmem c hc).1, (hplain line hmem c hc).2.1⟩
  have hmem : lines[k] ∈ lines := List.getElem_mem hk
  refine ⟨readsAfter_lineReads hroom hends hbuffers behind hk.le, _,
    recieveData_lineReads hroom hends hk (hbuffers k) behind, ?_, ⟨_, rfl⟩, ?_, ?_⟩
  · have hfits := hroom _ hmem
    rw [List.length_append, List.length_cons, List.length_drop, hbuffers k]
    omega
  · exact cString_append_nul (fun c hc => (hplain _ hmem c hc).2.2) _
  · rw [List.drop_eq_getElem_cons hk, lineReads_cons]
    rfl

/-- The second of two answers, of which the second just fits; the buffers hold old
line ends. -/
theorem recieve_lines_denied :
    readsAfter (fun _ => List.replicate 8 newline)
        (lineReads [ascii "ok", ascii "Denied"] ++ [.closed]) 1 =
        some (lineReads [ascii "Denied"] ++ [.closed]) ∧
      ∃ received,
        recieveData (List.replicate 8 newline) (lineReads [ascii "Denied"] ++ [.closed]) =
          .returned true received (lineReads [] ++ [.closed]) ∧
        received.length = 8 ∧ (∃ rest, received = ascii "Denied" ++ 0 :: rest) ∧
        cString received = ascii "Denied" ∧
        lineReads [ascii "Denied"] = (ascii "Denied" ++ [newline]).map .byte ++ lineReads [] :=
  recieve_lines (by decide) (by decide +kernel) (by decide +kernel)
    (fun _ => List.length_replicate) [.closed] (by decide)

end Client

end AsyncNFCServer
