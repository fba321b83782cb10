import DataShape.Proofs.Execution
import DataShape.Proofs.Table
import DataShape.Settings

/-! # Setting up the log

The log may be set up again and again. A call either takes the place of all that was set up before
it, or it is refused and changes nothing: level, format and handler never come from different calls.
Every text is accepted as a format. As a level every text is accepted but two, in any letter case:
they are names that stand for something, and what they stand for is no level.

* `standardLevel?` — the standard level that a text names in any letter case.
* `refusal?` — the fault of the two level names that are refused.
* `exec_configureLogging` — what one call does.
* `afterConfiguring_eq` — what a sequence of calls does.
* `configureLogging_after` — a call after any sequence of calls. -/

namespace DataShape

/-! ## Levels -/

/-- The standard levels by name. -/
def standardLevels : Table String Nat :=
  [("CRITICAL", 50), ("FATAL", 50), ("ERROR", 40), ("WARNING", 30), ("WARN", 30), ("INFO", 20),
   ("DEBUG", 10), ("NOTSET", 0)]

/-- The standard level that a text names in any letter case. -/
def standardLevel? (name : String) : Option Nat := standardLevels.get? (Text.upper name)

/-- The fault of a level name that stands for something other than a level. -/
def refusal? (name : String) : Option Fault :=
  if Text.upper name = "BASIC_FORMAT" then some (.wrongValue "")
  else if Text.upper name = "_STYLES" then some .wrongType
  else none

/-- A level name stands for a level unless it is one of the two. -/
theorem logLevelOf_eq (name : String) :
    logLevelOf name = if Text.upper name = "BASIC_FORMAT" then .text
      else if Text.upper name = "_STYLES" then .other
      else .level ((standardLevel? name).getD 30) := by
  unfold logLevelOf standardLevel?
  generalize Text.upper name = capitals
  by_cases format : capitals = "BASIC_FORMAT"
  · subst format
    rfl
  by_cases styles : capitals = "_STYLES"
  · subst styles
    rfl
  rw [if_neg format, if_neg styles]
  have meanings : levelNames = standardLevels.map (fun e => (e.1, .level e.2))
      ++ [("BASIC_FORMAT", .text), ("_STYLES", .other)] := rfl
  have levels : Table.get? (standardLevels.map fun e => (e.1, LevelName.level e.2)) capitals
      = (standardLevels.get? capitals).map .level := by
    induction standardLevels with
    | nil => rfl
    | cons e rest ih =>
      rw [List.map_cons, Table.get?_cons, Table.get?_cons, ih]
      split <;> rfl
  have others : Table.get? [("BASIC_FORMAT", LevelName.text), ("_STYLES", .other)] capitals
      = none := by
    simp [Ne.symm format, Ne.symm styles]
  rw [meanings, Table.get?_append, levels, others, Option.or_none]
  cases standardLevels.get? capitals <;> rfl

/-! ## One call -/

/-- The set-up that settings ask for: one handler, which writes JSON just if the format is named
so, and the standard level that is named, or that of a warning if none is. -/
def Settings.logSetup (s : Settings) : LogSetup where
  level := (standardLevel? s.logLevel).getD 30
  format := if s.logFormat = "json" then .json else .text
  handlers := 1

/-- The world with the log set up anew. -/
def World.withLogging (w : World) (setup : LogSetup) : World := { w with logging := some setup }

/-- A call is refused for the sake of its level name and then changes nothing, or it sets up the log
as the settings ask, whatever was set up before. -/
theorem exec_configureLogging (s : Settings) (w : World) :
    exec (configureLogging s) w = match refusal? s.logLevel with
      | some fault => (.error fault, w)
      | none => (.ok s.logSetup, w.withLogging s.logSetup) := by
  have format : logFormatOf s.logFormat = s.logSetup.format := by
    simp [logFormatOf, Settings.logSetup]
  unfold configureLogging refusal?
  rw [logLevelOf_eq]
  by_cases named : Text.upper s.logLevel = "BASIC_FORMAT"
  · rw [if_pos named, if_pos named]
    rfl
  by_cases styles : Text.upper s.logLevel = "_STYLES"
  · rw [if_neg named, if_neg named, if_pos styles, if_pos styles]
    rfl
  · rw [if_neg named, if_neg named, if_neg styles, if_neg styles, format]
    rfl

/-! ## Calls one after another -/

/-- The world after calls with these settings; the caller goes on after a refusal. -/
def afterConfiguring (calls : List Settings) (w : World) : World :=
  calls.foldl (fun w s => (exec (configureLogging s) w).2) w

/-- The set-up of the last call that is not refused. -/
def lastSetup? (calls : List Settings) : Option LogSetup :=
  ((calls.filter fun s => (refusal? s.logLevel).isNone).map Settings.logSetup).getLast?

/-- What calls leave is the set-up of the last one that was not refused, in a world that is
otherwise as before. -/
theorem afterConfiguring_eq (calls : List Settings) (w : World) :
    afterConfiguring calls w = { w with logging := (lastSetup? calls).or w.logging } := by
  induction calls generalizing w with
  | nil => rfl
  | cons s rest ih =>
    rw [afterConfiguring, List.foldl_cons, ← afterConfiguring, exec_configureLogging]
    cases refused : refusal? s.logLevel with
    | some fault =>
      have last : lastSetup? (s :: rest) = lastSetup? rest := by
        rw [lastSetup?, List.filter_cons_of_neg (by simp [refused]), ← lastSetup?]
      rw [ih, last]
    | none =>
      have last : lastSetup? (s :: rest) = some ((lastSetup? rest).getD s.logSetup) := by
        rw [lastSetup?, List.filter_cons_of_pos (by simp [refused]), List.map_cons,
          List.getLast?_cons, ← lastSetup?]
      rw [ih, last, World.withLogging]
      cases lastSetup? rest <;> rfl

/-- Whatever calls came before, and whatever was set up before them, a call is refused just for the
two names that stand for something other than a level, and then it leaves the set-up that the last
accepted call has made. Otherwise it returns, the log has one handler, which writes JSON just if
`"json"` is the format, and its level is the standard level that is named in any letter case, or
that of a warning if none is. Nothing else in the world changes. -/
theorem configureLogging_after (w : World) (earlier : List Settings) (s : Settings) :
    (afterConfiguring earlier w).logging = (lastSetup? earlier).or w.logging ∧
    exec (configureLogging s) (afterConfiguring earlier w) =
      if Text.upper s.logLevel = "BASIC_FORMAT" then
        (.error (.wrongValue ""), afterConfiguring earlier w)
      else if Text.upper s.logLevel = "_STYLES" then
        (.error .wrongType, afterConfiguring earlier w)
      else (.ok s.logSetup, w.withLogging s.logSetup) := by
  refine ⟨by rw [afterConfiguring_eq], ?_⟩
  rw [exec_configureLogging, refusal?]
  by_cases named : Text.upper s.logLevel = "BASIC_FORMAT"
  · rw [if_pos named, if_pos named]
  by_cases styles : Text.upper s.logLevel = "_STYLES"
  · rw [if_neg named, if_neg named, if_pos styles, if_pos styles]
  · rw [if_neg named, if_neg named, if_neg styles, if_neg styles, afterConfiguring_eq,
      World.withLogging, World.withLogging]

/-- A call whose level is the name of a text is refused, and the set-up of the call before it
stays. -/
theorem configureLogging_after_refused :
    exec (configureLogging ⟨true, "Basic_Format", "json"⟩)
        (afterConfiguring [⟨true, "debug", "text"⟩] (World.empty "" []))
      = (.error (.wrongValue ""), (World.empty "" []).withLogging ⟨10, .text, 1⟩) := by
  have call := (configureLogging_after (World.empty "" []) [⟨true, "debug", "text"⟩]
    ⟨true, "Basic_Format", "json"⟩).2
  have named : Text.upper "Basic_Format" = "BASIC_FORMAT" := by decide
  have level : lastSetup? [⟨true, "debug", "text"⟩] = some ⟨10, .text, 1⟩ := by decide
  rw [if_pos named, afterConfiguring_eq, level] at call
  rw [afterConfiguring_eq, level, call]
  rfl

end DataShape
