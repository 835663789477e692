import AsyncNFCServer.Client.MainLoop

/-!
# Scan after scan

`uid` and `uid_string` live as long as `main` does, and no scan clears them.  A UID
of one byte or more is printed over the front of `uid_string` and ends with a NUL
of its own, so nothing older is sent with it.  A UID of no bytes prints nothing,
and what is sent for it is the string that `uid_string` held before.  So each scan
sends its own UID exactly if no empty UID comes behind another one, and none comes
at all unless `uid_string` begins with a NUL (`sendsScanned_iff`).
-/

namespace AsyncNFCServer

namespace Client

/-! ## Polling and printing -/

/-- A UID that `PN532_ReadPassiveTarget` accepts. -/
structure Target where
  uid : List Byte
  short : uid.length ≤ 7

/-- A card of the main loop as a target. -/
def Card.target (card : Card) : Target := ⟨card.uid, card.short⟩

/-- A call of `PN532_ReadPassiveTarget`. -/
inductive Poll where
  /-- `PN532_STATUS_ERROR`; whatever the call leaves in `uid` -/
  | error (uid : Str)
  | target (found : Target)

/-- The variables of `main` that its scans use, and what `send_data` has written. -/
structure Scanner where
  uid : Str
  uidString : Str
  /-- a `sprintf` has come to the end of `uid_string` -/
  overrun : Bool
  sent : List Str

namespace Scanner

/-- `main` before its loop; `uid` and `uid_string` are not initialized. -/
def start (uid uidString : Str) : Scanner := ⟨uid, uidString, false, []⟩

/-- A pass of the loop of `get_uid`; if it finds a card, then also the `send_data` that
follows in `main`. -/
def poll (s : Scanner) : Poll → Scanner
  | .error uid => { s with uid := uid }
  | .target found =>
      let uid := found.uid ++ s.uid.drop found.uid.length
      match getUid s.uidString (uid.take found.uid.length) with
      | none => { s with uid := uid, overrun := true }
      | some uidString =>
          { s with uid := uid, uidString := uidString, sent := s.sent ++ [sendData uidString] }

/-- The scanner after the given calls. -/
def run (uid uidString : Str) (polls : List Poll) : Scanner :=
  Runs.final poll (start uid uidString) polls

end Scanner

/-- The UIDs that have been scanned. -/
def scanned (polls : List Poll) : List (List Byte) :=
  polls.filterMap fun
    | .error _ => none
    | .target found => some found.uid

/-- Each scan sends the UID that it has read and no scan of another UID sends the
same; no `sprintf` overruns `uid_string`. -/
structure SendsScanned (uid uidString : Str) (polls : List Poll) : Prop where
  sent : (Scanner.run uid uidString polls).sent =
    (scanned polls).map fun uid => wireLine (hexString uid)
  distinct : ∀ i j : Nat, (Scanner.run uid uidString polls).sent[i]? =
    (Scanner.run uid uidString polls).sent[j]? → (scanned polls)[i]? = (scanned polls)[j]?
  inside : (Scanner.run uid uidString polls).overrun = false

/-- No UID is empty, or `uid_string` begins with a NUL and the empty UIDs come before
all others. -/
def EmptyFirst (uidString : Str) (uids : List (List Byte)) : Prop :=
  [] ∉ uids ∨ uidString.head? = some 0 ∧ [] ∉ uids.dropWhile (·.isEmpty)

/-! ## The encoding -/

theorem hexDigit_inj : ∀ m < 16, ∀ n < 16, hexDigit m = hexDigit n → m = n := by
  decide

theorem hexPair_inj {b c : Byte} (h : hexPair b = hexPair c) : b = c := by
  simp only [hexPair, List.cons.injEq, and_true] at h
  have hb := b.toNat_lt
  have hc := c.toNat_lt
  have hhigh : b.toNat / 16 = c.toNat / 16 := hexDigit_inj _ (by omega) _ (by omega) h.1
  have hlow : b.toNat % 16 = c.toNat % 16 := hexDigit_inj _ (by omega) _ (by omega) h.2
  exact UInt8.toNat_inj.mp (by omega)

/-- A hex string tells the UID. -/
theorem hexString_inj {uid uid' : List Byte} (h : hexString uid = hexString uid') :
    uid = uid' := by
  induction uid generalizing uid' with
  | nil =>
      have hlength := congrArg List.length h
      rw [length_hexString, length_hexString, List.length_nil] at hlength
      exact (List.length_eq_zero_iff.mp (by omega)).symm
  | cons b uid ih =>
      cases uid' with
      | nil => exact absurd h (by simp [hexString, hexPair])
      | cons c uid' =>
          simp only [hexString, List.flatMap_cons] at h
          obtain ⟨hpair, hrest⟩ := List.append_inj h rfl
          rw [hexPair_inj hpair, ih hrest]

theorem hexString_eq_nil_iff {uid : List Byte} : hexString uid = [] ↔ uid = [] := by
  constructor
  · exact fun h => hexString_inj h
  · rintro rfl
    rfl

theorem cString_eq_nil_iff {buffer : Str} (hbuffer : buffer ≠ []) :
    cString buffer = [] ↔ buffer.head? = some 0 := by
  cases buffer with
  | nil => exact absurd rfl hbuffer
  | cons c buffer => simp [cString]

/-- What is sent is the string in the buffer. -/
theorem sendData_eq (buffer : Str) : sendData buffer = wireLine (cString buffer) := by
  refine List.takeWhile_eq_self_iff.mpr fun c hc => ?_
  rcases List.mem_append.mp hc with hstring | hend
  · simpa using List.mem_takeWhile_imp hstring
  · rw [List.mem_singleton.mp hend]
    decide

/-! ## One scan -/

namespace Scanner

variable {s : Scanner}

/-- A card is printed, unless its UID is empty, and what is in `uid_string` then is
sent. -/
theorem poll_target (hsize : s.uidString.length = 32) (found : Target) :
    ∃ uidString, s.poll (.target found) =
        ⟨found.uid ++ s.uid.drop found.uid.length, uidString, s.overrun,
          s.sent ++ [wireLine (cString uidString)]⟩ ∧
      uidString.length = 32 ∧
      (found.uid = [] → uidString = s.uidString) ∧
      (found.uid ≠ [] → cString uidString = hexString found.uid) := by
  have hshort := found.short
  by_cases huid : found.uid = []
  · refine ⟨s.uidString, ?_, hsize, fun _ => rfl, fun hne => absurd huid hne⟩
    have hget : getUid s.uidString [] = some s.uidString := rfl
    simp only [poll, huid, List.length_nil, List.take_zero, hget, sendData_eq]
  · obtain ⟨buffer, hget, hlength, hsend⟩ :=
      getUid_eq huid (show 2 * found.uid.length + 1 ≤ s.uidString.length by omega)
    refine ⟨buffer, ?_, hlength.trans hsize, fun hnil => absurd hnil huid, fun _ => ?_⟩
    · simp only [poll, List.take_left, hget, sendData_eq]
    · rw [sendData_eq] at hsend
      exact List.append_cancel_right hsend

/-- No scan overruns `uid_string`. -/
theorem inside_poll (hsize : s.uidString.length = 32) (call : Poll) :
    (s.poll call).uidString.length = 32 ∧ (s.poll call).overrun = s.overrun := by
  cases call with
  | error uid => exact ⟨hsize, rfl⟩
  | target found =>
      obtain ⟨uidString, hpoll, hlength, -⟩ := poll_target hsize found
      rw [hpoll]
      exact ⟨hlength, rfl⟩

/-- What has been sent stays sent. -/
theorem sent_prefix_poll (s : Scanner) (call : Poll) : s.sent <+: (s.poll call).sent := by
  cases call with
  | error uid => exact List.prefix_rfl
  | target found =>
      simp only [poll]
      cases getUid s.uidString _ with
      | none => exact List.prefix_rfl
      | some uidString => exact List.prefix_append _ _

end Scanner

/-! ## Whole runs -/

theorem scanned_target (found : Target) (polls : List Poll) :
    scanned (.target found :: polls) = found.uid :: scanned polls := rfl

section EmptyFirst

variable {uidString : Str} {uids : List (List Byte)}

theorem emptyFirst_nil_cons :
    EmptyFirst uidString ([] :: uids) ↔ uidString.head? = some 0 ∧ EmptyFirst uidString uids := by
  have hdrop : [] ∉ uids → [] ∉ uids.dropWhile (·.isEmpty) :=
    fun hnone hmem => hnone ((List.dropWhile_sublist _).subset hmem)
  simp only [EmptyFirst, List.mem_cons, true_or, not_true_eq_false, false_or,
    List.dropWhile_cons, List.isEmpty_nil, if_true]
  constructor
  · rintro ⟨hhead, hnone⟩
    exact ⟨hhead, Or.inr ⟨hhead, hnone⟩⟩
  · rintro ⟨hhead, hnone | ⟨-, hnone⟩⟩
    · exact ⟨hhead, hdrop hnone⟩
    · exact ⟨hhead, hnone⟩

/-- Behind a UID with bytes there must be no empty one. -/
theorem emptyFirst_cons {uid : List Byte} (huid : uid ≠ []) :
    EmptyFirst uidString (uid :: uids) ↔ [] ∉ uids := by
  have hempty : ¬ uid.isEmpty = true := by
    rwa [List.isEmpty_iff]
  have hmem : [] ∉ uid :: uids ↔ [] ∉ uids := by
    rw [List.mem_cons, not_or, and_iff_right (Ne.symm huid)]
  rw [EmptyFirst, List.dropWhile_cons, if_neg hempty, hmem]
  exact or_iff_left_of_imp And.right

theorem emptyFirst_of_head_ne (h : uidString.head? ≠ some 0) :
    EmptyFirst uidString uids ↔ [] ∉ uids :=
  or_iff_left fun hfirst => h hfirst.1

end EmptyFirst

namespace Scanner

variable {s : Scanner}

theorem inside_final (hsize : s.uidString.length = 32) (polls : List Poll) :
    (Runs.final poll s polls).uidString.length = 32 ∧
      (Runs.final poll s polls).overrun = s.overrun := by
  refine Runs.invariant_final_of_forall
    (J := fun t : Scanner => t.uidString.length = 32 ∧ t.overrun = s.overrun) ?_ ⟨hsize, rfl⟩ polls
  rintro t call ⟨hlength, hover⟩
  obtain ⟨hlength', hover'⟩ := inside_poll hlength call
  exact ⟨hlength', hover'.trans hover⟩

theorem sent_prefix_final (s : Scanner) (polls : List Poll) :
    s.sent <+: (Runs.final poll s polls).sent := by
  induction polls generalizing s with
  | nil => exact List.prefix_rfl
  | cons call polls ih => exact (sent_prefix_poll s call).trans (ih _)

/-- A scan is right if the string in `uid_string` is that of its UID, and the scans
behind it are. -/
theorem sent_final_cons_iff {uidString : Str} {lines : List Str} (line : Str)
    (hsent : s.sent = lines ++ [wireLine (cString uidString)]) (polls : List Poll)
    (rest : List Str) :
    (Runs.final poll s polls).sent = lines ++ wireLine line :: rest ↔
      cString uidString = line ∧ (Runs.final poll s polls).sent = s.sent ++ rest := by
  obtain ⟨more, hmore⟩ := sent_prefix_final s polls
  rw [← hmore, hsent, List.append_assoc, List.append_assoc, List.append_cancel_left_eq,
    List.append_cancel_left_eq, List.singleton_append, List.singleton_append]
  constructor
  · intro h
    obtain ⟨hline, rfl⟩ := List.cons.inj h
    exact ⟨List.append_cancel_right hline, rfl⟩
  · rintro ⟨rfl, hrest⟩
    exact hrest

/-- From any point of the run on, each scan sends its UID exactly if the empty UIDs
come first. -/
theorem sent_final_iff (hsize : s.uidString.length = 32) (polls : List Poll) :
    (Runs.final poll s polls).sent =
        s.sent ++ (scanned polls).map (fun uid => wireLine (hexString uid)) ↔
      EmptyFirst s.uidString (scanned polls) := by
  induction polls generalizing s with
  | nil => simp [scanned, EmptyFirst]
  | cons call polls ih =>
      cases call with
      | error uid => exact ih hsize
      | target found =>
          obtain ⟨uidString, hpoll, hlength, hkept, hprinted⟩ := poll_target hsize found
          have hhead : cString uidString = [] ↔ uidString.head? = some 0 :=
            cString_eq_nil_iff (List.length_pos_iff.mp (by omega))
          have hshown : cString uidString = hexString found.uid ∧
                EmptyFirst uidString (scanned polls) ↔
              EmptyFirst s.uidString (found.uid :: scanned polls) := by
            by_cases huid : found.uid = []
            · rw [huid, emptyFirst_nil_cons, ← hkept huid]
              exact and_congr_left' hhead
            · have hne : uidString.head? ≠ some 0 := by
                rw [Ne, ← hhead, hprinted huid, hexString_eq_nil_iff]
                exact huid
              rw [emptyFirst_cons huid, emptyFirst_of_head_ne hne, and_iff_right (hprinted huid)]
          rw [scanned_target, Runs.final_cons, List.map_cons, hpoll]
          calc _ ↔ cString uidString = hexString found.uid ∧ _ := sent_final_cons_iff _ rfl polls _
            _ ↔ cString uidString = hexString found.uid ∧
                EmptyFirst uidString (scanned polls) := and_congr_right' (ih hlength)
            _ ↔ EmptyFirst s.uidString (found.uid :: scanned polls) := hshown

end Scanner

section SendsScanned

variable {uid uid' uidString uidString' : Str} {polls polls' : List Poll}

theorem sent_run_iff (hsize : uidString.length = 32) (uid : Str) (polls : List Poll) :
    (Scanner.run uid uidString polls).sent =
        (scanned polls).map (fun uid => wireLine (hexString uid)) ↔
      EmptyFirst uidString (scanned polls) := by
  have h := Scanner.sent_final_iff (s := Scanner.start uid uidString) hsize polls
  rwa [show (Scanner.start uid uidString).sent = [] from rfl, List.nil_append] at h

/-- Two scans, of one run or of two, send the same if and only if they have read the
same UID, where each scan sends its UID. -/
theorem sent_eq_iff
    (h : (Scanner.run uid uidString polls).sent =
      (scanned polls).map fun uid => wireLine (hexString uid))
    (h' : (Scanner.run uid' uidString' polls').sent =
      (scanned polls').map fun uid => wireLine (hexString uid)) (i j : Nat) :
    (Scanner.run uid uidString polls).sent[i]? = (Scanner.run uid' uidString' polls').sent[j]? ↔
      (scanned polls)[i]? = (scanned polls')[j]? := by
  have hinj : Function.Injective fun uid : List Byte => wireLine (hexString uid) :=
    fun _ _ heq => hexString_inj (List.append_cancel_right heq)
  rw [h, h', List.getElem?_map, List.getElem?_map]
  exact (Option.map_injective hinj).eq_iff

end SendsScanned

/-- **When the client sends the scanned card and nothing else.**  The scans of a run
do, if and only if the empty UIDs come first and find an empty string.  `uid_string`
is not overrun in any case, and scans of two such runs send the same exactly if they
have read the same UID, whatever was scanned before. -/
theorem sendsScanned_iff {uidString : Str} (hsize : uidString.length = 32) (uid : Str)
    (polls : List Poll) :
    (SendsScanned uid uidString polls ↔ EmptyFirst uidString (scanned polls)) ∧
      (Scanner.run uid uidString polls).overrun = false ∧
      (EmptyFirst uidString (scanned polls) →
        ∀ (uid' uidString' : Str) (polls' : List Poll), uidString'.length = 32 →
          EmptyFirst uidString' (scanned polls') → ∀ i j : Nat,
            ((Scanner.run uid uidString polls).sent[i]? =
                (Scanner.run uid' uidString' polls').sent[j]? ↔
              (scanned polls)[i]? = (scanned polls')[j]?)) := by
  have hinside : (Scanner.run uid uidString polls).overrun = false :=
    (Scanner.inside_final (s := Scanner.start uid uidString) hsize polls).2
  refine ⟨?_, hinside, ?_⟩
  · constructor
    · intro h
      exact (sent_run_iff hsize uid polls).mp h.sent
    · intro hfirst
      have hsent := (sent_run_iff hsize uid polls).mpr hfirst
      exact ⟨hsent, fun i j => (sent_eq_iff hsent hsent i j).mp, hinside⟩
  · intro hfirst uid' uidString' polls' hsize' hfirst'
    exact sent_eq_iff ((sent_run_iff hsize uid polls).mpr hfirst)
      ((sent_run_iff hsize' uid' polls').mpr hfirst')

def noBytes : Target := ⟨[], by decide⟩

def sevenBytes : Target := ⟨[0x04, 0x0b, 0xad, 0xca, 0xfe, 0x12, 0x80], by decide⟩

/-- A long card and then a short one; there is no NUL in `uid_string` at first. -/
theorem sendsScanned_iff_two_cards :
    let uidString := List.replicate 32 0xff
    let polls := [.error [], .target sevenBytes, .error [1, 2], .target Loop.firstCard.target]
    let polls' := [.target noBytes, .target Loop.firstCard.target]
    SendsScanned [] uidString polls ∧ (Scanner.run [] uidString polls).overrun = false ∧
      ∀ i j : Nat, (Scanner.run [] uidString polls).sent[i]? =
          (Scanner.run [] (List.replicate 32 0) polls').sent[j]? ↔
        (scanned polls)[i]? = (scanned polls')[j]? := by
  intro uidString polls polls'
  have hfirst : EmptyFirst uidString (scanned polls) := Or.inl (by decide)
  obtain ⟨hiff, hinside, htwo⟩ :=
    sendsScanned_iff (show uidString.length = 32 from List.length_replicate) [] polls
  exact ⟨hiff.mpr hfirst, hinside, htwo hfirst [] _ _ List.length_replicate
    (Or.inr ⟨rfl, by decide⟩)⟩

/-- A target without a UID is taken for the card before it. -/
theorem not_forall_sendsScanned :
    ¬ ∀ (uid uidString : Str) (polls : List Poll), uidString.length = 32 →
      SendsScanned uid uidString polls := by
  intro h
  have hsent := (h [] (List.replicate 32 0) [.target Loop.firstCard.target, .target noBytes]
    List.length_replicate).sent
  have hshown : (Scanner.run [] (List.replicate 32 0)
      [.target Loop.firstCard.target, .target noBytes]).sent =
        [wireLine (ascii "04a1b2c3"), wireLine (ascii "04a1b2c3")] := by decide +kernel
  rw [hshown] at hsent
  exact absurd hsent (by decide +kernel)

/-! ## The scans of the main loop -/

/-- The scanner has scanned and sent what the main loop has. -/
structure Scanner.Follows (s : Scanner) (l : Loop) : Prop where
  uidString : s.uidString = l.uidString
  sent : s.sent = l.requests

/-- A pass scans one card, whatever it then reads from the server. -/
theorem Scanner.Follows.pass {s : Scanner} {l : Loop} (h : s.Follows l) (hl : l.Sized)
    (server : Responder) (scan : Scan) :
    (s.poll (.target scan.card.target)).Follows (l.pass server scan) := by
  obtain ⟨ok, buffer, reads, hcall, -⟩ := hl.received server scan
  have hpass : l.pass server scan = ⟨l.printed scan, buffer, unreadBytes reads, l.sent scan⟩ := by
    rw [Loop.pass, hcall]
  have hget : getUid l.uidString scan.card.uid = some (l.printed scan) := by
    obtain ⟨printed, hget, -⟩ := getUid_eq (List.length_pos_iff.mp scan.card.pos)
      (show 2 * scan.card.uid.length + 1 ≤ l.uidString.length by
        have hshort := scan.card.short
        have hlength := hl.uidString
        omega)
    rw [Loop.printed, hget]
    rfl
  rw [hpass, poll, Card.target]
  simp only [List.take_left, h.uidString, hget]
  exact ⟨rfl, by rw [h.sent, Loop.sent]⟩

/-- **The requests of the main loop** are the UIDs of its cards, in order, whatever
the server answers and wherever its reads fail. -/
theorem Loop.requests_final (server : Responder) {uidString bufferReceive : Str}
    (huidString : uidString.length = 32) (hbufferReceive : bufferReceive.length = 256)
    (scans : List Scan) :
    (Runs.final (Loop.pass server) (Loop.start uidString bufferReceive) scans).requests =
      scans.map fun scan => wireLine (hexString scan.card.uid) := by
  have hfollows : ∀ (s : Scanner) (l : Loop), s.Follows l → l.Sized →
      (Runs.final Scanner.poll s (scans.map fun scan => .target scan.card.target)).Follows
        (Runs.final (Loop.pass server) l scans) := by
    induction scans with
    | nil => exact fun s l h _ => h
    | cons scan scans ih => exact fun s l h hl => ih _ _ (h.pass hl server scan) (hl.pass ..)
  have hcards : scanned (scans.map fun scan => .target scan.card.target) =
      scans.map fun scan => scan.card.uid := by
    simp [scanned, List.filterMap_map, Card.target]
  have hnone : [] ∉ scans.map fun scan => scan.card.uid := by
    rintro hmem
    obtain ⟨scan, -, huid⟩ := List.mem_map.mp hmem
    exact absurd huid (List.length_pos_iff.mp scan.card.pos)
  have hrun := hfollows (Scanner.start [] uidString) (Loop.start uidString bufferReceive)
    ⟨rfl, rfl⟩ ⟨huidString, hbufferReceive⟩
  have hsent := (sent_run_iff huidString [] (scans.map fun scan => .target scan.card.target)).mpr
    (Or.inl (hcards ▸ hnone))
  calc (Runs.final (Loop.pass server) (Loop.start uidString bufferReceive) scans).requests
      = (Scanner.run [] uidString (scans.map fun scan => .target scan.card.target)).sent :=
        hrun.sent.symm
    _ = (scanned (scans.map fun scan => .target scan.card.target)).map
          fun uid => wireLine (hexString uid) := hsent
    _ = scans.map fun scan => wireLine (hexString scan.card.uid) := by
        rw [hcards, List.map_map]
        rfl

end Client

end AsyncNFCServer
