import AsyncNFCServer.ReaderHandler.Handlers

/-!
# The command language

The README lists six commands with single spaces between their arguments.  The
code decides twice what a line is: `handleCli` looks at the word the line starts
with, and the operation it calls matches the whole line against its own regular
expression.  A line runs a command if it passes both (`Command.RunsOn`); the
README's reading of it is `Command.Documented`.

The two readings differ on the lines of `Departs`: `rmDoor` has no branch in
`handleCli`, `rmUser` takes no digits, and the regular expressions allow wider
gaps than one space.
-/

namespace AsyncNFCServer

/-- The commands of the README. -/
inductive Command where
  | newDoor
  | newUser
  | rmDoor
  | rmUser
  | getLog
  | shutdown
  deriving DecidableEq, Repr

/-- The branch of `handleCli` that a line takes; the last one, which answers
"Unknown Command", is `none`. -/
def dispatch (pkg : Str) : Option Command :=
  if (ascii "newDoor").isPrefixOf pkg then some .newDoor
  else if (ascii "newUser").isPrefixOf pkg then some .newUser
  else if (ascii "rmUser").isPrefixOf pkg then some .rmUser
  else if pkg = ascii "getLog" then some .getLog
  else if pkg = ascii "shutdown" then some .shutdown
  else none

/-- The branches of `handleCli`. -/
theorem handleCli_eq_dispatch (renames : Bool) (pkg : Str) (s : Store) :
    handleCli renames pkg s =
      match dispatch pkg with
      | some .newDoor => (newDoor renames pkg s).thenHandleCli []
      | some .newUser => (newUser pkg s).1.thenHandleCli (newUser pkg s).2
      | some .rmDoor => (rmDoor renames pkg s).thenHandleCli []
      | some .rmUser => (rmUser renames pkg s).thenHandleCli []
      | some .getLog => ⟨s, [getLog], [.cli], .returned⟩
      | some .shutdown => ⟨s, [ascii "Shutting Down..."], [], .shutdown⟩
      | none => ⟨s, [ascii "Unknown Command"], [.cli], .returned⟩ := by
  unfold handleCli dispatch
  split_ifs <;> rfl

/-- The line passes the syntax of the operation that the command calls. -/
def Command.accepts : Command → Str → Bool
  | newDoor, line => (newDoorSyntax line).isSome
  | newUser, line => (newUserSyntax line).isSome
  | rmDoor, line => (rmDoorSyntax line).isSome
  | rmUser, line => (rmUserSyntax line).isSome
  | getLog, _ | shutdown, _ => true

/-- The line runs the command. -/
def Command.RunsOn (c : Command) (line : Str) : Prop :=
  dispatch line = some c ∧ c.accepts line = true

instance (c : Command) (line : Str) : Decidable (c.RunsOn line) :=
  inferInstanceAs (Decidable (dispatch line = some c ∧ c.accepts line = true))

/-! ## The README's forms -/

/-- A nonempty string of characters of the class. -/
def RunOf (c : Byte → Bool) (s : Str) : Prop := s ≠ [] ∧ ∀ b ∈ s, c b = true

/-- `command <string>name <int>accesslevel`. -/
def AddForm (command line : Str) : Prop :=
  ∃ name numeral, RunOf isWordByte name ∧ RunOf isDigit numeral ∧
    line = command ++ ascii " " ++ name ++ ascii " " ++ numeral

/-- `command <string>name`. -/
def RemoveForm (command line : Str) : Prop :=
  ∃ name, RunOf isWordByte name ∧ line = command ++ ascii " " ++ name

/-- The lines the README gives for a command. -/
def Command.Documented : Command → Str → Prop
  | newDoor, line => AddForm (ascii "newDoor") line
  | newUser, line => AddForm (ascii "newUser") line
  | rmDoor, line => RemoveForm (ascii "rmDoor") line
  | rmUser, line => RemoveForm (ascii "rmUser") line
  | getLog, line => line = ascii "getLog"
  | shutdown, line => line = ascii "shutdown"

/-- The lines on which the code and the README part. -/
inductive Departs (line : Str) : Prop
  | rmDoor (documented : Command.rmDoor.Documented line)
  /-- the README's own example is `rmUser 0gga` -/
  | digit (documented : Command.rmUser.Documented line) (digit : ∃ b ∈ line, isDigit b = true)
  | addGaps {command gap name gap' numeral : Str}
      (addition : command = ascii "newDoor" ∨ command = ascii "newUser")
      (line_eq : line = command ++ gap ++ name ++ gap' ++ numeral)
      (spaces : RunOf isSpace gap) (word : RunOf isWordByte name)
      (spaces' : RunOf isSpace gap') (digits : RunOf isDigit numeral)
      (wide : ¬ (gap = ascii " " ∧ gap' = ascii " "))
  | removeGap {gap name : Str} (line_eq : line = ascii "rmUser" ++ gap ++ name)
      (spaces : RunOf isSpace gap) (word : RunOf isLetterOrUnderscore name)
      (wide : gap ≠ ascii " ")

/-- The CLI reads the line as the README does: it runs the commands of which
the line is a documented form, and a line that is none leaves the store. -/
structure Grammatical (renames : Bool) (line : Str) (s : Store) : Prop where
  runs_iff : ∀ c : Command, c.RunsOn line ↔ c.Documented line
  unchanged : (∀ c : Command, ¬ c.Documented line) → (handleCli renames line s).store = s

/-! ## What the additions accept -/

theorem runOf_space : RunOf isSpace (ascii " ") := by
  refine ⟨by decide, ?_⟩
  decide +kernel

/-- A line matched by the syntax of an addition is its form, or has a wide gap. -/
theorem exists_gaps_of_addSyntax {command line : Str}
    (h : (addSyntax command line).isSome = true) :
    ∃ gap name gap' numeral, line = command ++ gap ++ name ++ gap' ++ numeral ∧
      RunOf isSpace gap ∧ RunOf isWordByte name ∧ RunOf isSpace gap' ∧ RunOf isDigit numeral := by
  obtain ⟨⟨name, numeral⟩, hfields⟩ := Option.isSome_iff_exists.mp h
  obtain ⟨gap, gap', hline, hgap, hname, hgap', hnumeral⟩ := addSyntax_eq_some_iff.mp hfields
  exact ⟨gap, name, gap', numeral, hline, hgap, hname, hgap', hnumeral⟩

theorem isSome_of_addForm {command line : Str} (h : AddForm command line) :
    (addSyntax command line).isSome = true := by
  obtain ⟨name, numeral, hname, hnumeral, hline⟩ := h
  have hfields : addSyntax command line = some (name, numeral) :=
    addSyntax_eq_some_iff.mpr
      ⟨ascii " ", ascii " ", hline, runOf_space, hname, runOf_space, hnumeral⟩
  rw [hfields]
  rfl

/-- The runs of a line are determined by it, so a line with a wide gap is not
also a documented one. -/
theorem gaps_eq_of_addForm {command gap name gap' numeral : Str} (hgap : RunOf isSpace gap)
    (hname : RunOf isWordByte name) (hgap' : RunOf isSpace gap') (hnumeral : RunOf isDigit numeral)
    (h : AddForm command (command ++ gap ++ name ++ gap' ++ numeral)) :
    gap = ascii " " ∧ gap' = ascii " " := by
  obtain ⟨name', numeral', hname', hnumeral', hline⟩ := h
  have hrest : gap ++ name ++ gap' ++ numeral = ascii " " ++ name' ++ ascii " " ++ numeral' := by
    simpa only [List.append_assoc, List.append_cancel_left_eq] using hline
  have hruns : Segments.matchSegments [isSpace, isWordByte, isSpace, isDigit]
      (gap ++ name ++ gap' ++ numeral) = some [gap, name, gap', numeral] :=
    (Segments.matchSegments_eq_some_iff separated_addSyntax).mpr
      ⟨by simp, .cons hgap (.cons hname (.cons hgap' (.cons hnumeral .nil)))⟩
  have hruns' : Segments.matchSegments [isSpace, isWordByte, isSpace, isDigit]
      (gap ++ name ++ gap' ++ numeral) = some [ascii " ", name', ascii " ", numeral'] :=
    (Segments.matchSegments_eq_some_iff separated_addSyntax).mpr
      ⟨by rw [hrest]; simp,
        .cons runOf_space (.cons hname' (.cons runOf_space (.cons hnumeral' .nil)))⟩
  have heq := Option.some.inj (hruns.symm.trans hruns')
  simp only [List.cons.injEq] at heq
  exact ⟨heq.1, heq.2.2.1⟩

/-! ## What the removals accept -/

theorem isWordByte_of_isLetterOrUnderscore {b : Byte} (h : isLetterOrUnderscore b = true) :
    isWordByte b = true := by
  simp [isWordByte, h]

/-- A digit is neither a letter nor the underscore. -/
theorem isLetterOrUnderscore_eq_false_of_isDigit {b : Byte} (h : isDigit b = true) :
    isLetterOrUnderscore b = false := by
  have hrange := isDigit_iff.mp h
  rw [← Bool.not_eq_true, isLetterOrUnderscore_iff]
  omega

theorem exists_gap_of_removeSyntax {command line : Str}
    (h : (removeSyntax command line).isSome = true) :
    ∃ gap name, line = command ++ gap ++ name ∧
      RunOf isSpace gap ∧ RunOf isLetterOrUnderscore name := by
  obtain ⟨name, hname⟩ := Option.isSome_iff_exists.mp h
  obtain ⟨gap, hline, hgap, hletters⟩ := removeSyntax_eq_some_iff.mp hname
  exact ⟨gap, name, hline, hgap, hletters⟩

/-- A name without digits passes the syntax of a removal. -/
theorem removeSyntax_of_letters {command name : Str} (hname : RunOf isLetterOrUnderscore name) :
    removeSyntax command (command ++ ascii " " ++ name) = some name :=
  removeSyntax_eq_some_iff.mpr ⟨ascii " ", rfl, runOf_space, hname⟩

/-- A name with a digit does not. -/
theorem removeSyntax_eq_none_of_digit {command name : Str} (hname : RunOf isWordByte name)
    (hdigit : ∃ b ∈ name, isDigit b = true) :
    removeSyntax command (command ++ ascii " " ++ name) = none := by
  by_contra hsome
  obtain ⟨gap, letters, hline, hgap, hletters⟩ :=
    exists_gap_of_removeSyntax (Option.isSome_iff_ne_none.mpr hsome)
  obtain ⟨b, hb, hb'⟩ := hdigit
  have hrest : ascii " " ++ name = gap ++ letters := by
    simpa only [List.append_assoc, List.append_cancel_left_eq] using hline
  have hmem : b ∈ gap ++ letters := by
    rw [← hrest]
    exact List.mem_append_right _ hb
  rcases List.mem_append.mp hmem with hspace | hletter
  · have hword := isWordByte_eq_false_of_isSpace (hgap.2 b hspace)
    rw [hname.2 b hb] at hword
    exact absurd hword (by simp)
  · have hletter' := hletters.2 b hletter
    rw [isLetterOrUnderscore_eq_false_of_isDigit hb'] at hletter'
    exact absurd hletter' (by simp)

theorem runOf_isLetterOrUnderscore {name : Str} (hname : RunOf isWordByte name)
    (hdigit : ¬ ∃ b ∈ name, isDigit b = true) : RunOf isLetterOrUnderscore name := by
  refine ⟨hname.1, ?_⟩
  intro b hb
  have hword := hname.2 b hb
  simp only [isWordByte, Bool.or_eq_true] at hword
  exact hword.resolve_right fun h => hdigit ⟨b, hb, h⟩

theorem gap_eq_of_removeForm {command gap name : Str} (hgap : RunOf isSpace gap)
    (hname : RunOf isLetterOrUnderscore name)
    (h : RemoveForm command (command ++ gap ++ name)) : gap = ascii " " := by
  obtain ⟨name', hname', hline⟩ := h
  have hrest : gap ++ name = ascii " " ++ name' := by
    simpa only [List.append_assoc, List.append_cancel_left_eq] using hline
  have hsep : Segments.Separated [isSpace, isWordByte] :=
    ⟨separated_addSyntax.1, trivial⟩
  have hruns : Segments.matchSegments [isSpace, isWordByte] (gap ++ name) = some [gap, name] :=
    (Segments.matchSegments_eq_some_iff hsep).mpr
      ⟨by simp, .cons hgap (.cons ⟨hname.1, fun b hb =>
        isWordByte_of_isLetterOrUnderscore (hname.2 b hb)⟩ .nil)⟩
  have hruns' : Segments.matchSegments [isSpace, isWordByte] (gap ++ name) =
      some [ascii " ", name'] :=
    (Segments.matchSegments_eq_some_iff hsep).mpr
      ⟨by rw [hrest]; simp, .cons runOf_space (.cons hname' .nil)⟩
  have heq := Option.some.inj (hruns.symm.trans hruns')
  simp only [List.cons.injEq] at heq
  exact heq.1

/-! ## The dispatch -/

theorem dispatch_newDoor {line : Str} : dispatch line = some .newDoor ↔
    (ascii "newDoor").isPrefixOf line = true := by
  unfold dispatch
  split_ifs with h <;> simp [h]

theorem dispatch_newUser {line : Str} : dispatch line = some .newUser ↔
    (ascii "newUser").isPrefixOf line = true := by
  unfold dispatch
  split_ifs with hdoor huser
  · have := isPrefixOf_eq_false (a := ascii "newDoor") (b := ascii "newUser") (by decide)
      (by decide) hdoor
    simp [this]
  all_goals simp_all

theorem dispatch_rmUser {line : Str} : dispatch line = some .rmUser ↔
    (ascii "rmUser").isPrefixOf line = true := by
  unfold dispatch
  split_ifs with hdoor huser
  · have := isPrefixOf_eq_false (a := ascii "newDoor") (b := ascii "rmUser") (by decide)
      (by decide) hdoor
    simp [this]
  · have := isPrefixOf_eq_false (a := ascii "newUser") (b := ascii "rmUser") (by decide)
      (by decide) huser
    simp [this]
  all_goals simp_all

theorem dispatch_ne_rmDoor (line : Str) : dispatch line ≠ some .rmDoor := by
  unfold dispatch
  split_ifs <;> simp

theorem dispatch_getLog {line : Str} : dispatch line = some .getLog ↔ line = ascii "getLog" := by
  constructor
  · unfold dispatch
    split_ifs with _ _ _ hlog
    all_goals simp_all
  · intro h
    rw [h]
    decide

theorem dispatch_shutdown {line : Str} :
    dispatch line = some .shutdown ↔ line = ascii "shutdown" := by
  constructor
  · unfold dispatch
    split_ifs with _ _ _ _ hshutdown
    all_goals simp_all
  · intro h
    rw [h]
    decide

/-! ## Which lines run a command -/

namespace Command

/-- Over a line where code and README agree, running and being documented are
the same for an addition. -/
theorem add_runsOn_iff {command line : Str} {runs : Prop}
    (hruns : runs ↔ (addSyntax command line).isSome = true)
    (haddition : command = ascii "newDoor" ∨ command = ascii "newUser") (h : ¬ Departs line) :
    runs ↔ AddForm command line := by
  rw [hruns]
  refine ⟨?_, isSome_of_addForm⟩
  intro haccepts
  obtain ⟨gap, name, gap', numeral, hline, hgap, hname, hgap', hnumeral⟩ :=
    exists_gaps_of_addSyntax haccepts
  by_cases hwide : gap = ascii " " ∧ gap' = ascii " "
  · rw [hwide.1, hwide.2] at hline
    exact ⟨name, numeral, hname, hnumeral, hline⟩
  · exact absurd (.addGaps haddition hline hgap hname hgap' hnumeral hwide) h

theorem newDoor_runsOn {line : Str} :
    newDoor.RunsOn line ↔ (addSyntax (ascii "newDoor") line).isSome = true := by
  refine ⟨And.right, ?_⟩
  intro h
  obtain ⟨fields, hfields⟩ := Option.isSome_iff_exists.mp h
  exact ⟨dispatch_newDoor.mpr (isPrefixOf_of_addSyntax hfields), h⟩

theorem newUser_runsOn {line : Str} :
    newUser.RunsOn line ↔ (addSyntax (ascii "newUser") line).isSome = true := by
  refine ⟨And.right, ?_⟩
  intro h
  obtain ⟨fields, hfields⟩ := Option.isSome_iff_exists.mp h
  exact ⟨dispatch_newUser.mpr (isPrefixOf_of_addSyntax hfields), h⟩

theorem rmUser_runsOn {line : Str} :
    rmUser.RunsOn line ↔ (removeSyntax (ascii "rmUser") line).isSome = true := by
  refine ⟨And.right, ?_⟩
  intro h
  obtain ⟨name, hname⟩ := Option.isSome_iff_exists.mp h
  exact ⟨dispatch_rmUser.mpr (isPrefixOf_of_removeSyntax hname), h⟩

theorem runsOn_iff_documented {line : Str} (h : ¬ Departs line) (c : Command) :
    c.RunsOn line ↔ c.Documented line := by
  cases c with
  | newDoor => exact add_runsOn_iff newDoor_runsOn (Or.inl rfl) h
  | newUser => exact add_runsOn_iff newUser_runsOn (Or.inr rfl) h
  | rmDoor =>
      refine ⟨fun hruns => absurd hruns.1 (dispatch_ne_rmDoor line), ?_⟩
      intro hdocumented
      exact absurd (.rmDoor hdocumented) h
  | rmUser =>
      rw [rmUser_runsOn]
      constructor
      · intro haccepts
        obtain ⟨gap, name, hline, hgap, hname⟩ := exists_gap_of_removeSyntax haccepts
        by_cases hwide : gap = ascii " "
        · rw [hwide] at hline
          exact ⟨name, ⟨hname.1, fun b hb => isWordByte_of_isLetterOrUnderscore (hname.2 b hb)⟩,
            hline⟩
        · exact absurd (.removeGap hline hgap hname hwide) h
      · rintro ⟨name, hname, rfl⟩
        have hletters : RunOf isLetterOrUnderscore name := by
          refine runOf_isLetterOrUnderscore hname ?_
          intro hdigit
          obtain ⟨b, hb, hb'⟩ := hdigit
          exact h (.digit ⟨name, hname, rfl⟩ ⟨b, List.mem_append_right _ hb, hb'⟩)
        rw [removeSyntax_of_letters hletters]
        rfl
  | getLog => exact ⟨fun hruns => dispatch_getLog.mp hruns.1, fun hline =>
      ⟨dispatch_getLog.mpr hline, rfl⟩⟩
  | shutdown => exact ⟨fun hruns => dispatch_shutdown.mp hruns.1, fun hline =>
      ⟨dispatch_shutdown.mpr hline, rfl⟩⟩

end Command

/-- The line of an operation on the store runs a command. -/
theorem exists_runsOn_of_adminOp {line : Str} {op : AdminOp}
    (h : ReadHandler.cli.adminOp line = some op) : ∃ c : Command, c.RunsOn line := by
  simp only [ReadHandler.adminOp] at h
  cases hdoor : newDoorSyntax line with
  | some fields =>
      refine ⟨.newDoor, Command.newDoor_runsOn.mpr ?_⟩
      rw [newDoorSyntax] at hdoor
      rw [hdoor]
      rfl
  | none =>
      simp only [hdoor, Option.map_eq_some_iff] at h
      obtain ⟨name, hname, -⟩ := h
      refine ⟨.rmUser, Command.rmUser_runsOn.mpr ?_⟩
      rw [rmUserSyntax] at hname
      rw [hname]
      rfl

theorem not_departs_of_runsOn_iff {line : Str}
    (h : ∀ c : Command, c.RunsOn line ↔ c.Documented line) : ¬ Departs line := by
  intro hdeparts
  cases hdeparts with
  | rmDoor documented => exact dispatch_ne_rmDoor line ((h .rmDoor).mpr documented).1
  | digit documented digit =>
      have haccepts := ((h .rmUser).mpr documented).2
      obtain ⟨name, hname, rfl⟩ := documented
      obtain ⟨b, hb, hb'⟩ := digit
      have hmem : b ∈ name := by
        rcases List.mem_append.mp hb with hword | hmem
        · -- the command and the space hold no digit
          have hno : ∀ b ∈ ascii "rmUser" ++ ascii " ", isDigit b = false := by
            decide +kernel
          rw [hno b hword] at hb'
          exact absurd hb' (by simp)
        · exact hmem
      rw [Command.accepts, rmUserSyntax, removeSyntax_eq_none_of_digit hname ⟨b, hmem, hb'⟩]
        at haccepts
      exact absurd haccepts (by simp)
  | @addGaps command gap name gap' numeral addition line_eq spaces word spaces' digits wide =>
      have haccepts : (addSyntax command line).isSome = true := by
        rw [addSyntax_eq_some_iff.mpr ⟨gap, gap', line_eq, spaces, word, spaces', digits⟩]
        rfl
      have hform : AddForm command line := by
        rcases addition with rfl | rfl
        · exact (h .newDoor).mp (Command.newDoor_runsOn.mpr haccepts)
        · exact (h .newUser).mp (Command.newUser_runsOn.mpr haccepts)
      rw [line_eq] at hform
      exact wide (gaps_eq_of_addForm spaces word spaces' digits hform)
  | removeGap line_eq spaces word wide =>
      have haccepts : (removeSyntax (ascii "rmUser") line).isSome = true := by
        rw [removeSyntax_eq_some_iff.mpr ⟨_, line_eq, spaces, word⟩]
        rfl
      have hform : RemoveForm (ascii "rmUser") line :=
        (h .rmUser).mp (Command.rmUser_runsOn.mpr haccepts)
      rw [line_eq] at hform
      exact wide (gap_eq_of_removeForm spaces word hform)

/-- **When the CLI reads a line as documented.**  It does so exactly on the
lines that are no `rmDoor name`, no `rmUser name` with a digit, and no accepted
line with a gap other than one space. -/
theorem grammatical_iff (renames : Bool) (line : Str) (s : Store) :
    Grammatical renames line s ↔ ¬ Departs line := by
  refine ⟨fun h => not_departs_of_runsOn_iff h.runs_iff, ?_⟩
  intro h
  have hruns := fun c => Command.runsOn_iff_documented h c
  refine ⟨hruns, ?_⟩
  intro hnone
  cases hop : ReadHandler.cli.adminOp line with
  | none => exact handleCli_store_of_none hop renames s
  | some op =>
      obtain ⟨c, hc⟩ := exists_runsOn_of_adminOp hop
      exact absurd ((hruns c).mp hc) (hnone c)

/-- `rmDoor lab` is documented and answered with "Unknown Command". -/
theorem not_grammatical :
    ¬ ∀ (renames : Bool) (line : Str) (s : Store), Grammatical renames line s := by
  intro h
  have hline := h true (ascii "rmDoor lab") (load emptyConfig (.doc emptyConfig))
  have hdocumented : Command.rmDoor.Documented (ascii "rmDoor lab") :=
    ⟨ascii "lab", ⟨by decide, by decide +kernel⟩, by decide⟩
  exact absurd ((hline.runs_iff .rmDoor).mpr hdocumented) (by decide)

/-! ## One reply a command -/

/-- The handler runs of a command: that of its `line` and, when it starts a read
for the UID, that of the line `uid`.  Other connections may have changed the
store in between, to `s'`. -/
def commandRuns (renames : Bool) (line : Str) (s : Store) (renames' : Bool) (uid : Str)
    (s' : Store) : List HandlerRun :=
  let run := handleCli renames line s
  run :: run.reads.filterMap fun
    | .uid name accessLevel => some (handleUID renames' name accessLevel uid s')
    | _ => none

/-- If the handlers return, they have written one line. -/
def RepliesOnce (runs : List HandlerRun) : Prop :=
  (∀ run ∈ runs, run.outcome.thrown = none) →
    ∃ reply, runs.flatMap HandlerRun.replies = [reply] ∧ newline ∉ reply

/-- If the call returns, it has written one line. -/
def Ended.RepliesOnce (e : Ended) : Prop :=
  e.thrown = none → ∃ reply, e.replies = [reply] ∧ newline ∉ reply

theorem addEntry_repliesOnce (renames : Bool) (list : Str) (entry : Json) {answer : Str}
    (hanswer : newline ∉ answer) (enter : Store → Store) (s : Store) :
    (addEntry renames list entry answer enter s).RepliesOnce := by
  intro hthrown
  rcases addEntry_cases renames list entry answer enter s with
    ⟨e, -, heq⟩ | ⟨configJson, -, ⟨e, heq⟩ | ⟨edited, -, -, -, heq⟩⟩
  · simp [heq] at hthrown
  · simp [heq] at hthrown
  · exact ⟨answer, by rw [heq], hanswer⟩

/-- A removal answers when the maps have the name. -/
theorem removeEntry_repliesOnce (renames : Bool) (list name : Str) {answer : Str}
    (hanswer : newline ∉ answer) (forget : Store → Option Store) {s : Store}
    (hforget : forget s ≠ none) :
    (removeEntry renames list name answer forget s).RepliesOnce := by
  intro hthrown
  rcases removeEntry_cases renames list name answer forget s with
    ⟨hnone, -⟩ | ⟨s', -, ⟨e, heq⟩ | ⟨edited, -, -, -, heq⟩⟩
  · exact absurd hnone hforget
  · simp [heq] at hthrown
  · exact ⟨answer, by rw [heq], hanswer⟩

theorem newDoor_repliesOnce (renames : Bool) (doorData : Str) (s : Store) :
    (newDoor renames doorData s).RepliesOnce := by
  unfold newDoor
  split
  · exact fun _ => ⟨_, rfl, by decide⟩
  · split
    · exact fun hthrown => absurd hthrown (by simp)
    · exact addEntry_repliesOnce renames _ _ (by decide) _ s

/-- Only an unknown user goes unanswered. -/
theorem rmUser_repliesOnce (renames : Bool) {userdata : Str} {s : Store}
    (hknown : ∀ name, rmUserSyntax userdata = some name →
      s.usersByName (toSnakeCase name) ≠ none) : (rmUser renames userdata s).RepliesOnce := by
  unfold rmUser
  cases hname : rmUserSyntax userdata with
  | none => exact fun _ => ⟨_, rfl, by decide⟩
  | some name =>
      refine removeEntry_repliesOnce renames _ _ (by decide) _ ?_
      obtain ⟨user, huser⟩ := Option.ne_none_iff_exists'.mp (hknown name hname)
      simp [forgetUser, huser]

/-- A run that waits for no UID is the only one of its command. -/
theorem repliesOnce_thenHandleCli {e : Ended} (h : e.RepliesOnce) (started : List HandlerRun)
    (hstarted : started = []) : RepliesOnce (e.thenHandleCli [] :: started) := by
  intro hthrown
  subst hstarted
  have hrun := hthrown _ List.mem_cons_self
  cases he : e.thrown with
  | some exn => simp [Ended.thenHandleCli, he, Outcome.thrown] at hrun
  | none =>
      obtain ⟨reply, hreply, hline⟩ := h he
      exact ⟨reply, by simp [Ended.thenHandleCli, he, hreply], hline⟩

theorem handleUID_repliesOnce (renames : Bool) (name : Str) (accessLevel : UInt8) (uid : Str)
    (s : Store) (hthrown : (handleUID renames name accessLevel uid s).outcome.thrown = none) :
    ∃ reply, (handleUID renames name accessLevel uid s).replies = [reply] ∧ newline ∉ reply := by
  have honce : ((AdminOp.newUser name accessLevel uid).run renames s).RepliesOnce :=
    addEntry_repliesOnce renames _ _ (by decide) _ s
  simp only [handleUID] at hthrown ⊢
  cases he : ((AdminOp.newUser name accessLevel uid).run renames s).thrown with
  | some exn => simp [he, Outcome.thrown] at hthrown
  | none => exact honce he

theorem handleCli_rmUser_unknown (renames : Bool) {line name : Str} {s : Store}
    (hname : rmUserSyntax line = some name)
    (hunknown : s.usersByName (toSnakeCase name) = none) :
    handleCli renames line s = ⟨s, [], [.cli], .returned⟩ := by
  rw [handleCli_eq_dispatch, dispatch_rmUser.mpr (isPrefixOf_of_removeSyntax hname)]
  simp [rmUser, hname, AdminOp.run, removeEntry, forgetUser, hunknown, Ended.thenHandleCli]

/-- `newUser` alone starts a read: its line is not answered, the UID line is. -/
theorem newUser_repliesOnce (line : Str) (s : Store) (renames' : Bool) (uid : Str) (s' : Store) :
    let run := (newUser line s).1.thenHandleCli (newUser line s).2
    RepliesOnce (run :: run.reads.filterMap fun
      | .uid name accessLevel => some (handleUID renames' name accessLevel uid s')
      | _ => none) := by
  unfold newUser
  cases hform : newUserSyntax line with
  | none => exact fun _ => ⟨_, rfl, by decide⟩
  | some fields =>
      obtain ⟨name, numeral⟩ := fields
      cases hn : stoul numeral with
      | none =>
          intro run hthrown
          exact absurd (hthrown _ List.mem_cons_self)
            (by simp [run, hn, Ended.thenHandleCli, Outcome.thrown])
      | some n =>
          intro run hthrown
          simp only [run, hn, Ended.thenHandleCli, List.cons_append, List.nil_append,
            List.filterMap_cons, List.filterMap_nil, List.mem_cons, List.not_mem_nil, or_false,
            forall_eq_or_imp, forall_eq] at hthrown ⊢
          simpa using handleUID_repliesOnce renames' _ _ uid s' hthrown.2

/-- **When a command gets one reply.**  Every command whose handlers return is
answered by one line, except the removal of a user the maps do not have. -/
theorem repliesOnce_iff (renames : Bool) (line : Str) (s : Store) (renames' : Bool) (uid : Str)
    (s' : Store) :
    RepliesOnce (commandRuns renames line s renames' uid s') ↔
      ∀ name, rmUserSyntax line = some name → s.usersByName (toSnakeCase name) ≠ none := by
  have hfilter : ∀ e : Ended, ((e.thenHandleCli []).reads.filterMap fun
      | .uid name accessLevel => some (handleUID renames' name accessLevel uid s')
      | _ => none) = [] := by
    intro e
    unfold Ended.thenHandleCli
    split <;> rfl
  constructor
  · intro honce name hname hunknown
    have hrun := handleCli_rmUser_unknown renames hname hunknown
    obtain ⟨reply, hreply, -⟩ := honce (by simp [commandRuns, hrun, Outcome.thrown])
    simp [commandRuns, hrun] at hreply
  · intro hknown
    unfold commandRuns
    rw [handleCli_eq_dispatch]
    split
    · exact repliesOnce_thenHandleCli (newDoor_repliesOnce renames line s) _ (hfilter _)
    · exact newUser_repliesOnce line s renames' uid s'
    · rename_i hdispatch
      exact absurd hdispatch (dispatch_ne_rmDoor line)
    · exact repliesOnce_thenHandleCli (rmUser_repliesOnce renames hknown) _ (hfilter _)
    · exact fun _ => ⟨getLog, rfl, by decide⟩
    · exact fun _ => ⟨ascii "Shutting Down...", rfl, by decide⟩
    · exact fun _ => ⟨ascii "Unknown Command", rfl, by decide⟩

/-- `rmUser bob` is not answered when there is no user `bob`. -/
theorem not_repliesOnce :
    ¬ ∀ (renames : Bool) (line : Str) (s : Store) (renames' : Bool) (uid : Str) (s' : Store),
      RepliesOnce (commandRuns renames line s renames' uid s') := by
  intro h
  have hline := h true (ascii "rmUser bob") (load emptyConfig (.doc emptyConfig)) true []
    (load emptyConfig (.doc emptyConfig))
  obtain ⟨reply, hreply, -⟩ := hline (by decide +kernel)
  have hnone : (commandRuns true (ascii "rmUser bob") (load emptyConfig (.doc emptyConfig)) true []
      (load emptyConfig (.doc emptyConfig))).flatMap HandlerRun.replies = [] := by
    decide +kernel
  rw [hnone] at hreply
  exact absurd hreply (by simp)

end AsyncNFCServer
