import AsyncNFCServer.Bytes
import AsyncNFCServer.Lib.Runs
import Mathlib.Data.Finset.Card
import Mathlib.Data.Fintype.EquivFin
import Mathlib.Data.Nat.Find

/-!
# Connecting to the server

`connect_to_server` gets a descriptor from `socket`, converts the address with
`inet_pton` and calls `connect`.  Each of the three may fail, and the call returns
-1 then; but only a failure of `socket` leaves nothing behind, since neither of the
later exits closes the descriptor.  `main` calls it until it has a connection, and
the descriptors of the failed calls stay open (`card_opened_final`).

So the retries leak nothing exactly if every call before the successful one fails
in `socket` (`restores_and_holds_iff`).
-/

namespace AsyncNFCServer

namespace Client

/-! ## One call -/

/-- The descriptor that `socket` returns: the lowest one that is not open. -/
def lowestFree (opened : Finset Nat) : Nat := Nat.find (Infinite.exists_notMem_finset opened)

/-- `struct sockaddr_in` of the family `AF_INET`, in network byte order. -/
structure SockaddrIn where
  sinPort : List Byte
  sinAddr : List Byte
  deriving DecidableEq, Repr

/-- `htons`: the bytes of a port as they stand in memory. -/
def htons (hostshort : UInt16) : List Byte := [(hostshort >>> 8).toUInt8, hostshort.toUInt8]

/-- What the system calls of one call of `connect_to_server` come to. -/
structure Calls where
  /-- `socket` returns a descriptor, and not -1 -/
  socket : Bool
  /-- the result of `inet_pton` for a string, and what it writes to `sin_addr` -/
  inetPton : Str → Int × List Byte
  /-- the result of `connect` to an address -/
  connect : SockaddrIn → Int

/-- `connect_to_server`: its result and the descriptors that are open after it. -/
def connectToServer (serverIp : Str) (portno : Int) (calls : Calls) (opened : Finset Nat) :
    Int × Finset Nat :=
  if calls.socket then
    let sockfd := lowestFree opened
    let opened := insert sockfd opened
    let (converted, sinAddr) := calls.inetPton serverIp
    if converted ≤ 0 then (-1, opened)
    else if calls.connect ⟨htons (UInt16.ofInt portno), sinAddr⟩ < 0 then (-1, opened)
    else (sockfd, opened)
  else (-1, opened)

/-- None of the system calls fails. -/
def Calls.connects (serverIp : Str) (portno : Int) (calls : Calls) : Bool :=
  calls.socket && 0 < (calls.inetPton serverIp).1 &&
    0 ≤ calls.connect ⟨htons (UInt16.ofInt portno), (calls.inetPton serverIp).2⟩

/-! ## The loop -/

/-- The variable of `main`'s loop, and the open descriptors. -/
structure Connecting where
  /-- negative as long as no call has succeeded -/
  sockfd : Int
  opened : Finset Nat

namespace Connecting

/-- `main` before the loop; it assigns `sockfd` before it looks at it. -/
def start (opened : Finset Nat) : Connecting := ⟨-1, opened⟩

/-- One evaluation of the loop's condition.  With a descriptor in `sockfd` the loop
has ended. -/
def retry (serverIp : Str) (l : Connecting) (calls : Calls) : Connecting :=
  if l.sockfd < 0 then
    let result := connectToServer serverIp 9000 calls l.opened
    ⟨result.1, result.2⟩
  else l

/-- A call of the loop that returns -1 leaves the open descriptors as it has found
them. -/
def Restores (serverIp : Str) (l : Connecting) (calls : Calls) : Prop :=
  l.sockfd < 0 → (connectToServer serverIp 9000 calls l.opened).1 = -1 →
    (connectToServer serverIp 9000 calls l.opened).2 = l.opened

/-- Beside the descriptors from before, none is open while the loop runs, and one
when it has ended. -/
def Holds (before : Finset Nat) (l : Connecting) : Prop :=
  if l.sockfd < 0 then l.opened = before
  else ∃ sockfd, sockfd ∉ before ∧ l.sockfd = sockfd ∧ l.opened = insert sockfd before

/-- The loop makes a call that gets a descriptor and then fails. -/
def Wastes (serverIp : Str) (l : Connecting) (calls : Calls) : Prop :=
  l.sockfd < 0 ∧ calls.socket = true ∧ calls.connects serverIp 9000 = false

/-- The calls that come before the first one to succeed. -/
def failed (serverIp : Str) (attempts : List Calls) : List Calls :=
  attempts.takeWhile fun calls => !calls.connects serverIp 9000

end Connecting

theorem lowestFree_notMem (opened : Finset Nat) : lowestFree opened ∉ opened :=
  Nat.find_spec (Infinite.exists_notMem_finset opened)

section Call

variable {serverIp : Str} {portno : Int} {calls : Calls}

/-- A call that fails returns -1; a descriptor that it has got stays open. -/
theorem connectToServer_of_fails (h : calls.connects serverIp portno = false)
    (opened : Finset Nat) :
    connectToServer serverIp portno calls opened =
      (-1, if calls.socket then insert (lowestFree opened) opened else opened) := by
  unfold connectToServer
  cases hsocket : calls.socket with
  | false => rfl
  | true =>
      simp only [if_true]
      by_cases hconverted : (calls.inetPton serverIp).1 ≤ 0
      · rw [if_pos hconverted]
      · have hconnect : calls.connect
            ⟨htons (UInt16.ofInt portno), (calls.inetPton serverIp).2⟩ < 0 := by
          simpa [Calls.connects, hsocket, not_le.mp hconverted] using h
        rw [if_neg hconverted, if_pos hconnect]

theorem connectToServer_of_connects (h : calls.connects serverIp portno = true)
    (opened : Finset Nat) :
    connectToServer serverIp portno calls opened =
      (↑(lowestFree opened), insert (lowestFree opened) opened) := by
  simp only [Calls.connects, Bool.and_eq_true, decide_eq_true_eq] at h
  obtain ⟨⟨hsocket, hconverted⟩, hconnect⟩ := h
  simp only [connectToServer, if_pos hsocket, if_neg (not_le.mpr hconverted),
    if_neg (not_lt.mpr hconnect)]

end Call

namespace Connecting

variable {serverIp : Str} {l : Connecting} {calls : Calls} {before : Finset Nat}

/-! ## One attempt -/

theorem trying (opened : Finset Nat) : (Connecting.mk (-1) opened).sockfd < 0 :=
  Int.negSucc_lt_zero 0

theorem not_trying (sockfd : Nat) (opened : Finset Nat) :
    ¬ (Connecting.mk ↑sockfd opened).sockfd < 0 :=
  not_lt.mpr (Int.natCast_nonneg sockfd)

theorem holds_start (before : Finset Nat) : (start before).Holds before := by
  rw [start, Holds, if_pos (trying before)]

theorem retry_of_ended (h : ¬ l.sockfd < 0) : l.retry serverIp calls = l := by
  rw [retry, if_neg h]

theorem retry_of_fails (h : l.sockfd < 0) (hfails : calls.connects serverIp 9000 = false) :
    l.retry serverIp calls =
      ⟨-1, if calls.socket then insert (lowestFree l.opened) l.opened else l.opened⟩ := by
  simp only [retry, if_pos h, connectToServer_of_fails hfails]

theorem retry_of_connects (h : l.sockfd < 0) (hconnects : calls.connects serverIp 9000 = true) :
    l.retry serverIp calls = ⟨↑(lowestFree l.opened), insert (lowestFree l.opened) l.opened⟩ := by
  simp only [retry, if_pos h, connectToServer_of_connects hconnects]

theorem wastes_iff (h : l.sockfd < 0) (hfails : calls.connects serverIp 9000 = false) :
    l.Wastes serverIp calls ↔ calls.socket = true := by
  simp [Wastes, h, hfails]

theorem not_wastes_of_connects (hconnects : calls.connects serverIp 9000 = true) :
    ¬ l.Wastes serverIp calls := by
  simp [Wastes, hconnects]

/-- The descriptors after a failed call are those before it, if `socket` failed. -/
theorem kept_iff (socket : Bool) (opened : Finset Nat) :
    (if socket then insert (lowestFree opened) opened else opened) = opened ↔
      ¬ socket = true := by
  cases socket with
  | false => simp
  | true => simp [lowestFree_notMem opened]

/-- A call that returns -1 restores the descriptors unless it wastes one. -/
theorem restores_iff : l.Restores serverIp calls ↔ ¬ l.Wastes serverIp calls := by
  by_cases htrying : l.sockfd < 0
  · cases hconnects : calls.connects serverIp 9000 with
    | false =>
        rw [wastes_iff htrying hconnects, Restores, connectToServer_of_fails hconnects, kept_iff]
        simp [htrying]
    | true =>
        refine iff_of_true ?_ (not_wastes_of_connects hconnects)
        intro _ hresult
        rw [connectToServer_of_connects hconnects] at hresult
        omega
  · exact iff_of_true (fun h => absurd h htrying) fun hwastes => htrying hwastes.1

/-- **One attempt** keeps the loop from holding more than its connection, unless it
wastes a descriptor. -/
theorem holds_retry_iff (h : l.Holds before) :
    (l.retry serverIp calls).Holds before ↔ ¬ l.Wastes serverIp calls := by
  by_cases htrying : l.sockfd < 0
  · rw [Holds, if_pos htrying] at h
    subst h
    cases hconnects : calls.connects serverIp 9000 with
    | false =>
        rw [wastes_iff htrying hconnects, retry_of_fails htrying hconnects, Holds,
          if_pos (trying _), kept_iff]
    | true =>
        refine iff_of_true ?_ (not_wastes_of_connects hconnects)
        rw [retry_of_connects htrying hconnects, Holds, if_neg (not_trying _ _)]
        exact ⟨_, lowestFree_notMem l.opened, rfl, rfl⟩
  · rw [retry_of_ended htrying]
    exact iff_of_true h fun hwastes => htrying hwastes.1

/-! ## The whole loop -/

theorem failed_cons (hfails : calls.connects serverIp 9000 = false) (attempts : List Calls) :
    failed serverIp (calls :: attempts) = calls :: failed serverIp attempts := by
  simp [failed, hfails]

theorem failed_cons_of_connects (hconnects : calls.connects serverIp 9000 = true)
    (attempts : List Calls) : failed serverIp (calls :: attempts) = [] := by
  simp [failed, hconnects]

/-- A loop that has ended makes no call. -/
theorem final_of_ended (h : ¬ l.sockfd < 0) (attempts : List Calls) :
    Runs.final (retry serverIp) l attempts = l := by
  induction attempts with
  | nil => rfl
  | cons calls attempts ih => rw [Runs.final_cons, retry_of_ended h, ih]

theorem each_of_ended (h : ¬ l.sockfd < 0) (attempts : List Calls) :
    Runs.Each (retry serverIp) (fun l calls => ¬ l.Wastes serverIp calls) l attempts := by
  induction attempts with
  | nil => trivial
  | cons calls attempts ih =>
      refine ⟨fun hwastes => h hwastes.1, ?_⟩
      rw [retry_of_ended h]
      exact ih

/-- No call of the loop wastes a descriptor exactly if those that fail get none. -/
theorem each_not_wastes_iff (h : l.sockfd < 0) (attempts : List Calls) :
    Runs.Each (retry serverIp) (fun l calls => ¬ l.Wastes serverIp calls) l attempts ↔
      ∀ calls ∈ failed serverIp attempts, calls.socket = false := by
  induction attempts generalizing l with
  | nil => simp [Runs.Each, failed]
  | cons calls attempts ih =>
      cases hconnects : calls.connects serverIp 9000 with
      | false =>
          rw [Runs.Each, wastes_iff h hconnects, retry_of_fails h hconnects, ih (trying _),
            failed_cons hconnects, List.forall_mem_cons, Bool.not_eq_true]
      | true =>
          rw [failed_cons_of_connects hconnects]
          refine iff_of_true ⟨not_wastes_of_connects hconnects, ?_⟩ (by simp)
          rw [retry_of_connects h hconnects]
          exact each_of_ended (not_trying _ _) attempts

/-- **What the retries leave open**: a descriptor for each failed call that got one,
and the connection if there is one. -/
theorem card_opened_final (h : l.sockfd < 0) (attempts : List Calls) :
    (Runs.final (retry serverIp) l attempts).opened.card =
      l.opened.card + (failed serverIp attempts).countP (·.socket) +
        (attempts.any (·.connects serverIp 9000)).toNat := by
  induction attempts generalizing l with
  | nil => simp [failed]
  | cons calls attempts ih =>
      have hnew := Finset.card_insert_of_notMem (lowestFree_notMem l.opened)
      rw [Runs.final_cons, List.any_cons]
      cases hconnects : calls.connects serverIp 9000 with
      | false =>
          rw [retry_of_fails h hconnects, ih (trying _), failed_cons hconnects,
            List.countP_cons, Bool.false_or]
          cases hsocket : calls.socket with
          | false => simp
          | true =>
              simp only [if_true, hnew]
              omega
      | true =>
          rw [retry_of_connects h hconnects, final_of_ended (not_trying _ _),
            failed_cons_of_connects hconnects]
          simp [hnew]

/-- **When the retries leak nothing.**  Every call that returns -1 restores the open
descriptors, and the loop holds no socket before it has ended and one when it has, if
and only if every call before the first successful one fails in `socket`. -/
theorem restores_and_holds_iff (serverIp : Str) (before : Finset Nat) (attempts : List Calls) :
    Runs.Each (retry serverIp) (Restores serverIp) (start before) attempts ∧
        Runs.Along (retry serverIp) (Holds before) (start before) attempts ↔
      ∀ calls ∈ failed serverIp attempts, calls.socket = false := by
  have hrestores : Runs.Each (retry serverIp) (Restores serverIp) (start before) attempts ↔
      Runs.Each (retry serverIp) (fun l calls => ¬ l.Wastes serverIp calls) (start before)
        attempts :=
    Runs.each_congr_of_forall (J := fun _ => True) (fun _ _ _ => trivial)
      (fun _ _ _ => restores_iff) trivial attempts
  have hholds : Runs.Along (retry serverIp) (Holds before) (start before) attempts ↔
      Runs.Each (retry serverIp) (fun l calls => ¬ l.Wastes serverIp calls) (start before)
        attempts :=
    Runs.along_iff_each_of_forall (J := fun _ => True) (fun _ _ _ => trivial)
      (fun _ _ _ => holds_retry_iff) trivial (holds_start before) attempts
  rw [hrestores, hholds, and_self]
  exact each_not_wastes_iff (trying before) attempts

/-- The server does not listen yet: `connect` fails. -/
def refused : Calls := ⟨true, fun _ => (1, [172, 16, 15, 3]), fun _ => -1⟩

/-- One refused connection. -/
theorem not_forall_restores :
    ¬ (∀ (serverIp : Str) (before : Finset Nat) (attempts : List Calls),
        Runs.Each (retry serverIp) (Restores serverIp) (start before) attempts) ∧
      ¬ ∀ (serverIp : Str) (before : Finset Nat) (attempts : List Calls),
        Runs.Along (retry serverIp) (Holds before) (start before) attempts := by
  have hwastes : (start {0, 1, 2}).Wastes (ascii "172.16.15.3") refused :=
    ⟨trying _, rfl, by decide⟩
  constructor
  · intro h
    obtain ⟨hrestores, -⟩ := h (ascii "172.16.15.3") {0, 1, 2} [refused]
    exact restores_iff.mp hrestores hwastes
  · intro h
    obtain ⟨hstart, hafter⟩ := h (ascii "172.16.15.3") {0, 1, 2} [refused]
    exact (holds_retry_iff hstart).mp hafter hwastes

end Connecting

end Client

end AsyncNFCServer
