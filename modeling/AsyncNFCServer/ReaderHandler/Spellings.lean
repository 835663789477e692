import AsyncNFCServer.ReaderHandler.Names

/-!
# The spellings of a name

A name is a list of words.  The readme lets a command spell it in snake case, in
camel case and in mixtures of the two; `to_snake_case` gives all of them one
key, the words in lower case joined by underscores.
-/

namespace AsyncNFCServer

/-- `std::toupper`. -/
def toUpper (c : Byte) : Byte := if isLower c then c - 32 else c

/-- `[a-z0-9]`. -/
def isLowerOrDigit (c : Byte) : Bool := isLower c || isDigit c

/-- A word of a name. -/
structure Word where
  text : Str
  nonempty : text ≠ []
  lowerOrDigit : ∀ c ∈ text, isLowerOrDigit c = true

/-- The three ways of writing a word. -/
inductive LetterCase where
  | lower
  | capitalised
  | allCaps
  deriving DecidableEq

/-- The word as written in the given letter case. -/
def LetterCase.write : LetterCase → Str → Str
  | .lower, text => text
  | .capitalised, [] => []
  | .capitalised, c :: text => toUpper c :: text
  | .allCaps, text => text.map toUpper

/-- `Spelling words s`: the string `s` writes each of the words in one of the
letter cases, with an underscore between neighbours or, where a lower-case letter
meets an upper-case one, with nothing between them. -/
inductive Spelling : List Word → Str → Prop where
  | single (word : Word) (style : LetterCase) : Spelling [word] (style.write word.text)
  | underscore (word : Word) (style : LetterCase) {words : List Word} {s : Str} :
      Spelling words s → Spelling (word :: words) (style.write word.text ++ 95 :: s)
  | direct (word : Word) (style : LetterCase) {words : List Word} {s : Str} {a b : Byte} :
      Spelling words s → (style.write word.text).getLast? = some a → isLower a = true →
      s.head? = some b → isUpper b = true →
      Spelling (word :: words) (style.write word.text ++ s)

/-- The words in lower case joined by underscores. -/
def snakeName (words : List Word) : Str := List.intercalate [95] (words.map Word.text)

/-! ## Letters -/

theorem isUpper_eq_false_of_isLowerOrDigit {c : Byte} (h : isLowerOrDigit c = true) :
    isUpper c = false := by
  rw [isLowerOrDigit, Bool.or_eq_true, isLower_iff, isDigit_iff] at h
  rw [← Bool.not_eq_true, isUpper_iff]
  omega

theorem isUpper_toUpper_of_isLower {c : Byte} (h : isLower c = true) :
    isUpper (toUpper c) = true := by
  have hrange := isLower_iff.mp h
  have h32 : (32 : Byte).toNat = 32 := rfl
  rw [toUpper, if_pos h, isUpper_iff, UInt8.toNat_sub]
  omega

theorem isLower_eq_false_of_isUpper {c : Byte} (h : isUpper c = true) : isLower c = false := by
  have hrange := isUpper_iff.mp h
  rw [← Bool.not_eq_true, isLower_iff]
  omega

/-- No letter is lower case once it is written upper case. -/
theorem isLower_toUpper (c : Byte) : isLower (toUpper c) = false := by
  by_cases h : isLower c = true
  · exact isLower_eq_false_of_isUpper (isUpper_toUpper_of_isLower h)
  · simp [toUpper, h]

theorem toLower_toUpper {c : Byte} (h : isLowerOrDigit c = true) : toLower (toUpper c) = c := by
  by_cases hlower : isLower c = true
  · rw [toLower, if_pos (isUpper_toUpper_of_isLower hlower), toUpper, if_pos hlower]
    simp
  · rw [toUpper, if_neg hlower, toLower_of_not_isUpper (isUpper_eq_false_of_isLowerOrDigit h)]

/-! ## A word -/

/-- Where no lower-case letter comes before it, a character in upper case is
written as its lower case alone. -/
theorem snakeFrom_toUpper {prev : Option Byte} (hprev : prev.any isLower = false) {c : Byte}
    (hc : isLowerOrDigit c = true) (s : Str) :
    snakeFrom prev (toUpper c :: s) = c :: snakeFrom (some (toUpper c)) s := by
  by_cases hupper : isUpper (toUpper c) = true
  · rw [snakeFrom, if_pos hupper, hprev, toLower_toUpper hc]
    rfl
  · have hcase : toUpper c = c := by
      rw [← toLower_of_not_isUpper (by simpa using hupper : isUpper (toUpper c) = false),
        toLower_toUpper hc]
    rw [snakeFrom, if_neg hupper, hcase]

theorem snakeFrom_append (prev : Option Byte) (s t : Str) :
    snakeFrom prev (s ++ t) = snakeFrom prev s ++ snakeFrom (s.getLast?.or prev) t := by
  induction s generalizing prev with
  | nil => rfl
  | cons c s ih =>
      have hlast : ((c :: s).getLast?).or prev = s.getLast?.or (some c) := by
        cases s with
        | nil => rfl
        | cons d s => simp [List.getLast?_cons]
      rw [hlast]
      simp only [List.cons_append, snakeFrom, ih (some c)]
      split_ifs <;> simp

/-- In every letter case a word is read back as itself. -/
theorem snakeFrom_write (style : LetterCase) {text : Str}
    (htext : ∀ c ∈ text, isLowerOrDigit c = true) {prev : Option Byte}
    (hprev : prev.any isLower = false) : snakeFrom prev (style.write text) = text := by
  have hfixed : ∀ {s : Str}, (∀ c ∈ s, isLowerOrDigit c = true) → ∀ p, snakeFrom p s = s :=
    fun hs p => snakeFrom_of_forall_not_isUpper
      (fun c hc => isUpper_eq_false_of_isLowerOrDigit (hs c hc)) p
  cases style with
  | lower => exact hfixed htext prev
  | capitalised =>
      cases text with
      | nil => rfl
      | cons c text =>
          rw [LetterCase.write, snakeFrom_toUpper hprev (htext c List.mem_cons_self),
            hfixed fun d hd => htext d (List.mem_cons_of_mem c hd)]
  | allCaps =>
      show snakeFrom prev (text.map toUpper) = text
      induction text generalizing prev with
      | nil => rfl
      | cons c text ih =>
          have hnext : (some (toUpper c)).any isLower = false := isLower_toUpper c
          rw [List.map_cons, snakeFrom_toUpper hprev (htext c List.mem_cons_self),
            ih (fun d hd => htext d (List.mem_cons_of_mem c hd)) hnext]

/-! ## The joints -/

/-- The loop starts a new word at an upper-case letter after a lower-case one. -/
theorem snakeFrom_of_lower_upper {a b : Byte} (ha : isLower a = true) (hb : isUpper b = true)
    (s : Str) : snakeFrom (some a) (b :: s) = 95 :: snakeFrom none (b :: s) := by
  simp [snakeFrom, hb, ha]

theorem snakeName_cons {word : Word} {words : List Word} (h : words ≠ []) :
    snakeName (word :: words) = word.text ++ 95 :: snakeName words := by
  cases words with
  | nil => exact absurd rfl h
  | cons next words => simp [snakeName, List.intercalate]

theorem Spelling.ne_nil {words : List Word} {s : Str} (h : Spelling words s) : words ≠ [] := by
  cases h <;> simp

/-- Every spelling of a name is read as the snake case of it. -/
theorem Spelling.toSnakeCase_eq {words : List Word} {s : Str} (h : Spelling words s) :
    toSnakeCase s = snakeName words := by
  unfold toSnakeCase
  induction h with
  | single word style =>
      rw [snakeFrom_write style word.lowerOrDigit rfl]
      simp [snakeName, List.intercalate]
  | @underscore word style words s h ih =>
      calc snakeFrom none (style.write word.text ++ 95 :: s)
          = word.text ++ snakeFrom ((style.write word.text).getLast?.or none) (95 :: s) := by
            rw [snakeFrom_append, snakeFrom_write style word.lowerOrDigit rfl]
        _ = word.text ++ 95 :: snakeFrom (some 95) s := rfl
        _ = word.text ++ 95 :: snakeFrom none s := by
            cases s <;> rfl
        _ = snakeName (word :: words) := by rw [ih, snakeName_cons h.ne_nil]
  | @direct word style words s a b h hlast ha hhead hb ih =>
      obtain ⟨rest, rfl⟩ : ∃ rest, s = b :: rest := by
        cases s with
        | nil => simp at hhead
        | cons c rest => exact ⟨rest, by rw [Option.some.inj hhead]⟩
      calc snakeFrom none (style.write word.text ++ b :: rest)
          = word.text ++ snakeFrom (some a) (b :: rest) := by
            rw [snakeFrom_append, snakeFrom_write style word.lowerOrDigit rfl, hlast]
            rfl
        _ = word.text ++ 95 :: snakeFrom none (b :: rest) := by
            rw [snakeFrom_of_lower_upper ha hb]
        _ = snakeName (word :: words) := by rw [ih, snakeName_cons h.ne_nil]

/-- **One key for every spelling.** All spellings of a name are normalised to the
words in lower case joined by underscores.  On any string, normalising again
changes nothing, and normalising does no more to the lowered input than insert
underscores. -/
theorem spellings_one_key :
    (∀ words s, Spelling words s → toSnakeCase s = snakeName words) ∧
    (∀ s : Str, toSnakeCase (toSnakeCase s) = toSnakeCase s) ∧
    ∀ s : Str, (s.map toLower).Sublist (toSnakeCase s) ∧
      (toSnakeCase s).filter (· != 95) = (s.map toLower).filter (· != 95) :=
  ⟨fun _ _ h => h.toSnakeCase_eq, toSnakeCase_toSnakeCase,
    fun s => ⟨sublist_snakeFrom none s, filter_snakeFrom none s⟩⟩

theorem spellings_one_key_johnDoe :
    toSnakeCase (ascii "johnDOE_2nd") = ascii "john_doe_2nd" :=
  spellings_one_key.1
    [⟨ascii "john", by decide, by decide +kernel⟩, ⟨ascii "doe", by decide, by decide +kernel⟩,
      ⟨ascii "2nd", by decide, by decide +kernel⟩] _
    (.direct _ .lower (.underscore _ .allCaps (.single _ .capitalised)) rfl rfl rfl rfl)

end AsyncNFCServer
