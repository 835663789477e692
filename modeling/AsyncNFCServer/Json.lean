import AsyncNFCServer.Bytes

/-!
# JSON documents

The part of `nlohmann::json` the server uses, on values.  Objects are
`std::map`s: association lists in which a new key is entered in byte order.
The text of a document is not represented: parsing the text that `dump` writes
gives back the document, so a file is known by what reading it yields
(`Store.lean`).

A double is represented by the shortest decimal text that denotes it, which is
how `dump` prints it; no computation of the server looks at one.
-/

namespace AsyncNFCServer

/-- The exceptions thrown by the calls the server makes. -/
inductive Exn where
  /-- `nlohmann::json::type_error` -/
  | typeError
  /-- `nlohmann::json::out_of_range`, a number that overflows a double -/
  | jsonOutOfRange
  /-- `std::out_of_range`, thrown by `std::stoul` -/
  | stoulOutOfRange
  /-- `std::filesystem::filesystem_error` -/
  | filesystemError
  deriving DecidableEq, Repr

/-- `nlohmann::json`. -/
inductive Json where
  | null
  | boolean (b : Bool)
  | numberInteger (i : Int)
  | numberUnsigned (n : Nat)
  | numberFloat (text : Str)
  | string (s : Str)
  | array (elements : List Json)
  | object (members : List (Str × Json))

/-- The value of a key in a list of members. -/
def findMember (key : Str) : List (Str × Json) → Option Json
  | [] => none
  | (k, v) :: ms => if k = key then some v else findMember key ms

/-- `std::map::insert_or_assign`. -/
def setMember (key : Str) (value : Json) : List (Str × Json) → List (Str × Json)
  | [] => [(key, value)]
  | (k, v) :: ms =>
      if k = key then (k, value) :: ms
      else if key < k then (key, value) :: (k, v) :: ms
      else (k, v) :: setMember key value ms

namespace Json

/-- The member `key`; only objects have members. -/
def member? (key : Str) : Json → Option Json
  | object ms => findMember key ms
  | _ => none

/-- `j.contains(key)`. -/
def contains (key : Str) (j : Json) : Bool := (j.member? key).isSome

/-- `j[key] = value`: null becomes an object, any other value that is not an
object throws. -/
def assign (j : Json) (key : Str) (value : Json) : Except Exn Json :=
  match j with
  | null => .ok (object [(key, value)])
  | object ms => .ok (object (setMember key value ms))
  | _ => .error .typeError

/-- `j.push_back(entry)`. -/
def pushBack (j entry : Json) : Except Exn Json :=
  match j with
  | null => .ok (array [entry])
  | array es => .ok (array (es ++ [entry]))
  | _ => .error .typeError

/-- `j[key].push_back(entry)`. -/
def pushBackAt (j : Json) (key : Str) (entry : Json) : Except Exn Json := do
  let list ← ((j.member? key).getD null).pushBack entry
  j.assign key list

/-- The values `for (const auto& e : j)` visits: a scalar is visited itself. -/
def items : Json → List Json
  | null => []
  | array es => es
  | object ms => ms.map Prod.snd
  | j => [j]

/-- `j.is_string()`, with the string. -/
def string? : Json → Option Str
  | string s => some s
  | _ => none

/-- `j.is_number_integer()`, with the number. -/
def integer? : Json → Option Int
  | numberInteger i => some i
  | numberUnsigned n => some n
  | _ => none

/-- `e.contains("name") && e["name"] == name`. -/
def isNamed (name : Str) (e : Json) : Bool :=
  (e.member? (ascii "name")).bind string? == some name

/-- The loop of `rmDoor` and `rmUser` over a list: erase the first entry with
the name and stop. -/
def eraseNamed (name : Str) : Json → Json
  | array es => array (es.eraseP (isNamed name))
  | object ms => object (ms.eraseP fun m => isNamed name m.2)
  | j => j

/-- `if (j.contains(key)) { auto& list = j[key]; … }` with that loop. -/
def eraseNamedAt (key name : Str) (j : Json) : Except Exn Json :=
  match j.member? key with
  | none => .ok j
  | some list => j.assign key (list.eraseNamed name)

/-- `if (!j.contains(key)) j[key] = json::array();` -/
def ensureArray (key : Str) (j : Json) : Except Exn Json :=
  if j.contains key then .ok j else j.assign key (array [])

end Json

mutual

/-- `dump` succeeds: every string and every key is UTF-8. -/
def Json.dumps : Json → Bool
  | .string s => utf8 s
  | .array es => dumpsElements es
  | .object ms => dumpsMembers ms
  | _ => true

def dumpsElements : List Json → Bool
  | [] => true
  | e :: es => e.dumps && dumpsElements es

def dumpsMembers : List (Str × Json) → Bool
  | [] => true
  | (k, v) :: ms => utf8 k && v.dumps && dumpsMembers ms

end

/-! ## Members after an assignment -/

@[simp] theorem findMember_setMember_self (key : Str) (value : Json) (ms : List (Str × Json)) :
    findMember key (setMember key value ms) = some value := by
  induction ms with
  | nil => simp [setMember, findMember]
  | cons m ms ih =>
      obtain ⟨k, v⟩ := m
      unfold setMember
      split_ifs with hk hlt
      · simp [findMember, hk]
      · simp [findMember]
      · simpa [findMember, hk] using ih

theorem findMember_setMember_of_ne {key other : Str} (hne : other ≠ key) (value : Json)
    (ms : List (Str × Json)) :
    findMember other (setMember key value ms) = findMember other ms := by
  induction ms with
  | nil => simp [setMember, findMember, hne.symm]
  | cons m ms ih =>
      obtain ⟨k, v⟩ := m
      unfold setMember
      split_ifs with hk hlt
      · subst hk
        simp [findMember, hne.symm]
      · simp [findMember, hne.symm]
      · simp [findMember, ih]

/-! ## Edits of a list of a document -/

namespace Json

theorem assign_of_member? {j : Json} {key : Str} {old : Json} (h : j.member? key = some old)
    (value : Json) :
    ∃ j', j.assign key value = .ok j' ∧ j'.member? key = some value ∧
      ∀ other, other ≠ key → j'.member? other = j.member? other := by
  cases j with
  | object ms =>
      exact ⟨.object (setMember key value ms), rfl, findMember_setMember_self key value ms,
        fun other hne => findMember_setMember_of_ne hne value ms⟩
  | null | boolean | numberInteger | numberUnsigned | numberFloat | string | array =>
      exact absurd h (by simp [member?])

/-- An entry is appended to a list; the other members stay. -/
theorem pushBackAt_of_member? {j : Json} {key : Str} {es : List Json}
    (h : j.member? key = some (.array es)) (entry : Json) :
    ∃ j', j.pushBackAt key entry = .ok j' ∧ j'.member? key = some (.array (es ++ [entry])) ∧
      ∀ other, other ≠ key → j'.member? other = j.member? other := by
  obtain ⟨j', hassign, hkey, hother⟩ := assign_of_member? h (.array (es ++ [entry]))
  refine ⟨j', ?_, hkey, hother⟩
  rw [pushBackAt, h]
  exact hassign

/-- The first entry with the name is erased from a list; the other members stay. -/
theorem eraseNamedAt_of_member? {j : Json} {key : Str} {es : List Json}
    (h : j.member? key = some (.array es)) (name : Str) :
    ∃ j', j.eraseNamedAt key name = .ok j' ∧
      j'.member? key = some (.array (es.eraseP (isNamed name))) ∧
      ∀ other, other ≠ key → j'.member? other = j.member? other := by
  obtain ⟨j', hassign, hkey, hother⟩ := assign_of_member? h (.array (es.eraseP (isNamed name)))
  refine ⟨j', ?_, hkey, hother⟩
  rw [eraseNamedAt, h]
  exact hassign

theorem ensureArray_of_member? {j : Json} {key : Str} {list : Json}
    (h : j.member? key = some list) : j.ensureArray key = .ok j := by
  simp [ensureArray, contains, h]

end Json

end AsyncNFCServer
