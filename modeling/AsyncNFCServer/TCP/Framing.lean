import AsyncNFCServer.Bytes
import AsyncNFCServer.Lib.Lines

/-!
# Framing

`TcpConnection::read` creates a new streambuf, asks Asio to read into it until it
holds a newline, gives the handler what `std::getline` takes off it, and reads
again.  What else the streambuf holds by then is dropped with it: bytes that
arrive in one chunk with the end of a line are lost for the next one.

`delivered_eq_lines_iff` says which ways of cutting a stream into chunks do no
harm: those in which every newline but the last is the last byte of its chunk.
-/

namespace AsyncNFCServer

open Lines

/-- `std::getline`, on a streambuf that holds a newline. -/
def getline (buffer : Str) : Str := buffer.takeWhile (· ≠ newline)

/-- The strings the handler is called with, when the outstanding read has
`buffer` in its streambuf and the chunks arrive one after the other.  The read
completes as soon as its streambuf holds a newline; the next one starts with an
empty streambuf. -/
def delivered : Str → List Str → List Str
  | _, [] => []
  | buffer, chunk :: chunks =>
      let buffer := buffer ++ chunk
      if newline ∈ buffer then getline buffer :: delivered [] chunks else delivered buffer chunks

/-- Every newline of the stream, except perhaps the last, is the last byte of
its chunk: where bytes `b` follow a newline in its chunk, no newline comes later. -/
def Aligned (chunks : List Str) : Prop :=
  ∀ pre l b post, chunks = pre ++ (l ++ newline :: b) :: post → b ≠ [] →
    newline ∉ b ++ post.flatten

/-! ## One chunk -/

theorem getline_append {l : Str} (hl : newline ∉ l) (b : Str) :
    getline (l ++ newline :: b) = l := by
  rw [getline, List.takeWhile_append_of_pos]
  · simp
  · intro x hx
    simpa using fun heq : x = newline => hl (heq ▸ hx)

/-- A chunk without a newline is kept. -/
theorem delivered_cons_of_notMem {buffer chunk : Str} (hbuffer : newline ∉ buffer)
    (hchunk : newline ∉ chunk) (chunks : List Str) :
    delivered buffer (chunk :: chunks) = delivered (buffer ++ chunk) chunks := by
  rw [delivered]
  exact if_neg (by simp [hbuffer, hchunk])

/-- A chunk with a newline completes the read; what follows the newline is lost. -/
theorem delivered_cons_of_mem {buffer l : Str} (hbuffer : newline ∉ buffer) (hl : newline ∉ l)
    (b : Str) (chunks : List Str) :
    delivered buffer ((l ++ newline :: b) :: chunks) = (buffer ++ l) :: delivered [] chunks := by
  have hline : newline ∉ buffer ++ l := by simp [hbuffer, hl]
  rw [delivered, ← List.append_assoc]
  simp only [getline_append hline]
  exact if_pos (by simp)

theorem aligned_cons_of_notMem {chunk : Str} (hchunk : newline ∉ chunk) (chunks : List Str) :
    Aligned (chunk :: chunks) ↔ Aligned chunks := by
  constructor
  · intro h pre l b post heq
    exact h (chunk :: pre) l b post (by rw [heq]; rfl)
  · rintro h (_ | ⟨first, pre⟩) l b post heq
    · obtain ⟨rfl, rfl⟩ := List.cons.inj heq
      exact absurd hchunk (by simp)
    · obtain ⟨rfl, rfl⟩ := List.cons.inj heq
      exact h pre l b post rfl

theorem aligned_cons_of_mem {l : Str} (hl : newline ∉ l) (b : Str) (chunks : List Str) :
    Aligned ((l ++ newline :: b) :: chunks) ↔
      (b ≠ [] → newline ∉ b ++ chunks.flatten) ∧ Aligned chunks := by
  constructor
  · intro h
    refine ⟨h [] l b chunks rfl, fun pre l' b' post heq => ?_⟩
    exact h ((l ++ newline :: b) :: pre) l' b' post (by rw [heq]; rfl)
  · rintro ⟨hfirst, hrest⟩ (_ | ⟨first, pre⟩) l' b' post heq hb'
    · obtain ⟨hchunk, rfl⟩ := List.cons.inj heq
      -- the first newline of the chunk is at `l'` or earlier
      rcases List.append_eq_append_iff.mp hchunk with ⟨m, rfl, hm⟩ | ⟨m, rfl, hm⟩
      · cases m with
        | nil =>
            obtain rfl : b = b' := by simpa using hm
            exact hfirst hb'
        | cons x m =>
            obtain ⟨rfl, rfl⟩ : newline = x ∧ b = m ++ newline :: b' := by simpa using hm
            exact absurd (hfirst (by simp)) (by simp)
      · cases m with
        | nil =>
            obtain rfl : b' = b := by simpa using hm
            exact hfirst hb'
        | cons x m =>
            obtain ⟨rfl, -⟩ : newline = x ∧ b' = m ++ newline :: b := by simpa using hm
            exact absurd hl (by simp)
    · obtain ⟨-, rfl⟩ := List.cons.inj heq
      exact hrest pre l' b' post rfl hb'

/-! ## All chunks -/

/-- The first line is delivered, whatever the chunks. -/
theorem head?_delivered (chunks : List Str) (buffer : Str) (hbuffer : newline ∉ buffer) :
    (delivered buffer chunks).head? = (lines newline (buffer ++ chunks.flatten)).head? := by
  induction chunks generalizing buffer with
  | nil => simp [delivered, lines_of_notMem hbuffer]
  | cons chunk chunks ih =>
      by_cases hchunk : newline ∈ chunk
      · obtain ⟨l, b, rfl, hl⟩ := exists_first_of_mem hchunk
        have hline : newline ∉ buffer ++ l := by simp [hbuffer, hl]
        calc (delivered buffer ((l ++ newline :: b) :: chunks)).head?
            = ((buffer ++ l) :: delivered [] chunks).head? := by
              rw [delivered_cons_of_mem hbuffer hl]
          _ = ((buffer ++ l) :: lines newline (b ++ chunks.flatten)).head? := rfl
          _ = (lines newline (buffer ++ l ++ newline :: (b ++ chunks.flatten))).head? := by
              rw [lines_append_cons hline]
          _ = (lines newline (buffer ++ ((l ++ newline :: b) :: chunks).flatten)).head? := by
              simp
      · rw [delivered_cons_of_notMem hbuffer hchunk, ih _ (by simp [hbuffer, hchunk]),
          List.flatten_cons, List.append_assoc]

/-- No more lines are delivered than there are. -/
theorem length_delivered_le (chunks : List Str) (buffer : Str) (hbuffer : newline ∉ buffer) :
    (delivered buffer chunks).length ≤ chunks.flatten.count newline := by
  induction chunks generalizing buffer with
  | nil => simp [delivered]
  | cons chunk chunks ih =>
      rw [List.flatten_cons, List.count_append]
      by_cases hchunk : newline ∈ chunk
      · have hpos : 0 < chunk.count newline := List.count_pos_iff.mpr hchunk
        obtain ⟨l, b, rfl, hl⟩ := exists_first_of_mem hchunk
        rw [delivered_cons_of_mem hbuffer hl, List.length_cons]
        have := ih [] (by simp)
        omega
      · rw [delivered_cons_of_notMem hbuffer hchunk]
        have := ih (buffer ++ chunk) (by simp [hbuffer, hchunk])
        omega

/-- Bytes lost behind a newline cost a line as soon as another newline comes. -/
theorem delivered_ne_lines {b : Str} (hb : b ≠ []) {chunks : List Str}
    (h : newline ∈ b ++ chunks.flatten) :
    delivered [] chunks ≠ lines newline (b ++ chunks.flatten) := by
  intro heq
  by_cases hmem : newline ∈ b
  · -- a line is missing
    have hle := length_delivered_le chunks [] (by simp)
    have hpos : 0 < b.count newline := List.count_pos_iff.mpr hmem
    rw [heq, length_lines, List.count_append] at hle
    omega
  · -- the beginning of a line is missing
    have hrest : newline ∈ chunks.flatten := (List.mem_append.mp h).resolve_left hmem
    obtain ⟨l, r, hflatten, hl⟩ := exists_first_of_mem hrest
    have hhead := head?_delivered chunks [] (by simp)
    rw [heq, List.nil_append, lines_append hmem, hflatten, lines_append_cons hl] at hhead
    simp only [List.modifyHead_cons, List.head?_cons, Option.some.injEq] at hhead
    exact hb (List.append_left_eq_self.mp hhead)

/-- From any partly filled streambuf on. -/
theorem delivered_eq_lines_iff_aligned (chunks : List Str) (buffer : Str)
    (hbuffer : newline ∉ buffer) :
    delivered buffer chunks = lines newline (buffer ++ chunks.flatten) ↔ Aligned chunks := by
  induction chunks generalizing buffer with
  | nil => simp [delivered, lines_of_notMem hbuffer, Aligned]
  | cons chunk chunks ih =>
      by_cases hchunk : newline ∈ chunk
      · obtain ⟨l, b, rfl, hl⟩ := exists_first_of_mem hchunk
        have hline : newline ∉ buffer ++ l := by simp [hbuffer, hl]
        rw [delivered_cons_of_mem hbuffer hl, aligned_cons_of_mem hl, List.flatten_cons,
          List.append_assoc, List.cons_append, ← List.append_assoc, lines_append_cons hline,
          List.cons.injEq, eq_self, true_and]
        -- the read completes, and `b` is dropped
        by_cases hb : b = []
        · subst hb
          simpa using ih [] (by simp)
        · by_cases hlater : newline ∈ b ++ chunks.flatten
          · simp only [hb, ne_eq, not_false_eq_true, forall_const, hlater, not_true, false_and,
              iff_false]
            exact delivered_ne_lines hb hlater
          · -- no line ends after `b`, so none is missed
            have hflatten : newline ∉ chunks.flatten := fun hmem =>
              hlater (List.mem_append_right b hmem)
            have hnone : delivered [] chunks = [] := by
              have hle := length_delivered_le chunks [] (by simp)
              rw [List.count_eq_zero_of_not_mem hflatten] at hle
              exact List.length_eq_zero_iff.mp (by omega)
            have haligned : Aligned chunks := by
              rw [← ih [] (by simp), hnone, List.nil_append, lines_of_notMem hflatten]
            simp [hnone, lines_of_notMem hlater, hlater, haligned]
      · rw [delivered_cons_of_notMem hbuffer hchunk, aligned_cons_of_notMem hchunk,
          ← ih (buffer ++ chunk) (by simp [hbuffer, hchunk]), List.flatten_cons, List.append_assoc]

/-- **When reads frame a stream.**  The handler is called with exactly the lines
of the stream if and only if every newline except perhaps the last is the last
byte of its chunk. -/
theorem delivered_eq_lines_iff (chunks : List Str) :
    delivered [] chunks = lines newline chunks.flatten ↔ Aligned chunks :=
  delivered_eq_lines_iff_aligned chunks [] (by simp)

/-- Two lines in one chunk: the second is lost. -/
theorem not_forall_delivered_eq_lines :
    ¬ ∀ chunks : List Str, delivered [] chunks = lines newline chunks.flatten := by
  intro h
  exact absurd (h [ascii "getLog" ++ newline :: ascii "getLog" ++ [newline]]) (by decide +kernel)

end AsyncNFCServer
