import Iqrf.Lib.Runs

/-!
# Log messages

`IQRF_LOG(level)` is an expression that creates a `Logger`, streams its operands into it
and destroys it, which hands the message to the log; below the reporting level it is
nothing at all, and its operands are not evaluated. An operand may call a function that
logs or throws, so that messages are begun while others are, and loggers are destroyed by
exceptions on their way to a handler.

`Code` is code as far as it logs with the macro, `operations` what it does with loggers and
`entries` the messages it is meant to write. The reporting level does not change while it
runs: it is a plain static member. An operand has its text whether or not others were
evaluated, so what it does beside logging and throwing is not seen by any other.

One thread logs: nothing in the source keeps the messages of two apart.

* `log_of_run`: the log gets whole messages only, each of them when it is complete, and all
  that the code is meant to write, also where exceptions end messages that others are in;
* `entries_prune`: a reporting level writes what the code without the other messages does;
* `entries_sublist`: a higher one only adds messages, if no operand throws.
-/

namespace Iqrf.Log

open Runs

inductive Level
  | fatal
  | error
  | warning
  | info
  | debug
  | trace
  deriving DecidableEq, Repr

/-- `_IQRF_LOG_LEVELS`. -/
def Level.value : Level → Nat
  | fatal => 2
  | error => 3
  | warning => 4
  | info => 6
  | debug => 7
  | trace => 10

/-- `LevelNames`. -/
def Level.name : Level → String
  | fatal => "Fatal"
  | error => "Error"
  | warning => "Warning"
  | info => "Info"
  | debug => "Debug"
  | trace => "Trace"

/-- The `else` branch of `IQRF_LOG` is taken. -/
def Level.Reported (level logLevel : Level) : Prop := ¬ level.value > logLevel.value

instance (level logLevel : Level) : Decidable (level.Reported logLevel) :=
  inferInstanceAs (Decidable (¬ _))

/-- What `ILog::append` gets. -/
structure Entry where
  msg : String
  severity : Level
  deriving DecidableEq, Repr

structure Logger where
  buffer : String := ""
  messageLevel : Level := .info
  deriving DecidableEq, Repr

namespace Logger

def stream (l : Logger) (level : Level) : Logger := { l with messageLevel := level }

/-- `<<` on the stream of a logger. -/
def put (l : Logger) (text : String) : Logger := { l with buffer := l.buffer ++ text }

/-- `Logger::~Logger`. -/
def destroy (l : Logger) : Entry := ⟨l.buffer ++ "\n", l.messageLevel⟩

@[simp] theorem put_empty (l : Logger) : l.put "" = l := by simp [put]

@[simp] theorem put_put (l : Logger) (text text' : String) :
    (l.put text).put text' = l.put (text ++ text') := by simp [put, String.append_assoc]

end Logger

inductive Operation
  | construct
  | stream (level : Level)
  | put (text : String)
  | destroy
  deriving DecidableEq, Repr

/-- The loggers of the messages that have been begun, the innermost first, and the log. -/
structure Logging where
  loggers : List Logger := []
  log : List Entry := []
  deriving DecidableEq, Repr

/-- It is the innermost logger that is worked on. -/
def step : Logging → Operation → Option Logging
  | ⟨loggers, log⟩, .construct => some ⟨{} :: loggers, log⟩
  | ⟨l :: loggers, log⟩, .stream level => some ⟨l.stream level :: loggers, log⟩
  | ⟨l :: loggers, log⟩, .put text => some ⟨l.put text :: loggers, log⟩
  | ⟨l :: loggers, log⟩, .destroy => some ⟨loggers, log ++ [l.destroy]⟩
  | ⟨[], _⟩, _ => none

section Grows

variable {s s' : Logging} {operation : Operation} {operations : List Operation}

/-- What is in the log stays there. -/
theorem log_prefix_of_step (taken : step s operation = some s') : s.log <+: s'.log := by
  rcases s with ⟨_ | ⟨l, loggers⟩, log⟩ <;> cases operation <;> cases taken
  case cons.destroy => exact List.prefix_append log _
  all_goals exact List.prefix_rfl

theorem log_prefix_of_run (reached : run step s operations = some s') : s.log <+: s'.log :=
  invariant_run (I := fun r => s.log <+: r.log)
    (fun _ _ _ before taken => before.trans (log_prefix_of_step taken)) List.prefix_rfl reached

end Grows

/-! ## Code that logs -/

mutual

/-- Statements, as far as they log or throw. -/
inductive Code
  | done
  | throw_
  | log (level : Level) (operands : Operands) (next : Code)
  | tryCatch (body handler next : Code)

/-- The operands of `<<` behind `IQRF_LOG`: a text, or a function that returns one, the
same whatever was evaluated before. -/
inductive Operands
  | nil
  | text (text : String) (next : Operands)
  | call (body : Code) (result : String) (next : Operands)

end

/-- What code does one after the other, and whether an exception leaves it. -/
structure Trace (α : Type*) where
  items : List α := []
  threw : Bool := false
  deriving DecidableEq

namespace Trace

variable {α : Type*}

def andThen (a b : Trace α) : Trace α :=
  if a.threw then a else { items := a.items ++ b.items, threw := b.threw }

def recover (a handler : Trace α) : Trace α :=
  if a.threw then { items := a.items ++ handler.items, threw := handler.threw } else a

/-- What a destructor does, it does in either case. -/
def finally_ (a : Trace α) (items : List α) : Trace α := { a with items := a.items ++ items }

end Trace

/-- `IQRF_LOG(level)` up to its operands: `Logger().stream(level) << IQRF_LOG_HEADER(level)`. -/
def opening (level : Level) : Trace Operation :=
  { items := [.construct, .stream level, .put "[", .put level.name, .put "] "] }

section Operations

variable (logLevel : Level)

mutual

/-- What code does with loggers. -/
def Code.operations : Code → Trace Operation
  | .done => {}
  | .throw_ => { threw := true }
  | .log level operands next =>
    if level.Reported logLevel then
      ((opening level).andThen operands.operations).finally_ [.destroy] |>.andThen next.operations
    else next.operations
  | .tryCatch body handler next =>
    (body.operations.recover handler.operations).andThen next.operations

def Operands.operations : Operands → Trace Operation
  | .nil => {}
  | .text text next => Trace.andThen { items := [.put text] } next.operations
  | .call body result next =>
    body.operations.andThen (Trace.andThen { items := [.put result] } next.operations)

end

mutual

/-- The messages that code is meant to write. -/
def Code.entries : Code → Trace Entry
  | .done => {}
  | .throw_ => { threw := true }
  | .log level operands next =>
    if level.Reported logLevel then
      operands.entries.finally_
        [⟨"[" ++ level.name ++ "] " ++ operands.message ++ "\n", level⟩] |>.andThen next.entries
    else next.entries
  | .tryCatch body handler next => (body.entries.recover handler.entries).andThen next.entries

/-- The messages that are written while the operands are evaluated. -/
def Operands.entries : Operands → Trace Entry
  | .nil => {}
  | .text _ next => next.entries
  | .call body _ next => body.entries.andThen next.entries

/-- The text of a message, up to an operand that throws. -/
def Operands.message : Operands → String
  | .nil => ""
  | .text text next => text ++ next.message
  | .call body result next => if body.entries.threw then "" else result ++ next.message

end

end Operations

example : (Code.log .info (.call .throw_ "" .nil) .done).entries .debug =
    { items := [⟨"[Info] \n", .info⟩], threw := true } := by decide

/-! ## What the log gets -/

/-- Operations that lead from some loggers to others and write some messages. -/
structure Performs (a : Trace Operation) (before after : List Logger) (e : Trace Entry) : Prop where
  threw : a.threw = e.threw
  reaches : ∀ log, run step ⟨before, log⟩ a.items = some ⟨after, log ++ e.items⟩

namespace Performs

variable {a b : Trace Operation} {e f : Trace Entry} {loggers before between after : List Logger}

theorem nothing (threw : Bool) : Performs { threw := threw } loggers loggers { threw := threw } :=
  ⟨rfl, fun log => by rw [List.append_nil]; rfl⟩

theorem put (l : Logger) (text : String) :
    Performs { items := [.put text] } (l :: loggers) (l.put text :: loggers) {} :=
  ⟨rfl, fun log => by rw [List.append_nil]; rfl⟩

theorem reaches_append {items : List Operation} {entries : List Entry}
    (first : Performs a before between e)
    (second : ∀ log, run step ⟨between, log⟩ items = some ⟨after, log ++ entries⟩)
    (log : List Entry) : run step ⟨before, log⟩ (a.items ++ items) =
      some ⟨after, log ++ (e.items ++ entries)⟩ := by
  rw [run_append, first.reaches, Option.bind_some, second, List.append_assoc]

/-- Where the first part throws, the second does not begin. -/
theorem andThen (first : Performs a before between e) (stays : e.threw = true → between = after)
    (second : e.threw = false → Performs b between after f) :
    Performs (a.andThen b) before after (e.andThen f) := by
  unfold Trace.andThen
  rw [first.threw]
  cases threw : e.threw with
  | true =>
    rw [if_pos rfl, if_pos rfl]
    exact ⟨first.threw, stays threw ▸ first.reaches⟩
  | false =>
    rw [if_neg Bool.false_ne_true, if_neg Bool.false_ne_true]
    exact ⟨(second threw).threw, first.reaches_append (second threw).reaches⟩

theorem recover (first : Performs a loggers loggers e) (handler : Performs b loggers loggers f) :
    Performs (a.recover b) loggers loggers (e.recover f) := by
  unfold Trace.recover
  rw [first.threw]
  cases threw : e.threw with
  | true =>
    rw [if_pos rfl, if_pos rfl]
    exact ⟨handler.threw, first.reaches_append handler.reaches⟩
  | false =>
    rw [if_neg Bool.false_ne_true, if_neg Bool.false_ne_true]
    exact first

/-- The logger of a message is destroyed whether or not its operands threw. -/
theorem destroy {l : Logger} (first : Performs a before (l :: loggers) e) :
    Performs (a.finally_ [.destroy]) before loggers (e.finally_ [l.destroy]) :=
  ⟨first.threw, first.reaches_append fun _ => rfl⟩

theorem opening (level : Level) : Performs (opening level) loggers
    ({ buffer := "[" ++ level.name ++ "] ", messageLevel := level } :: loggers) {} :=
  ⟨rfl, fun log => by
    simp [Log.opening, run_cons, step, Logger.put, Logger.stream]⟩

end Performs

section Performs

variable {logLevel : Level}

mutual

/-- Code leaves the loggers of the messages that have been begun as they are. -/
theorem Code.performs (loggers : List Logger) : ∀ code : Code,
    Performs (code.operations logLevel) loggers loggers (code.entries logLevel)
  | .done => .nothing false
  | .throw_ => .nothing true
  | .log level operands next => by
    have next' := next.performs loggers
    unfold Code.operations Code.entries
    split
    · have operands' := operands.performs loggers
        { buffer := "[" ++ level.name ++ "] ", messageLevel := level }
      have message := ((Performs.opening level).andThen (fun h => by cases h)
        fun _ => operands').destroy
      exact message.andThen (fun _ => rfl) fun _ => next'
    · exact next'
  | .tryCatch body handler next => by
    have attempted := (body.performs loggers).recover
      (handler.performs loggers)
    unfold Code.operations Code.entries
    exact attempted.andThen (fun _ => rfl) fun _ => next.performs loggers

/-- Operands go into the innermost logger, whatever else they log. -/
theorem Operands.performs (loggers : List Logger) : ∀ (l : Logger) (operands : Operands),
    Performs (operands.operations logLevel) (l :: loggers)
      (l.put (operands.message logLevel) :: loggers) (operands.entries logLevel)
  | l, .nil => by
    unfold Operands.operations Operands.entries Operands.message
    rw [Logger.put_empty]
    exact .nothing false
  | l, .text text next => by
    have next' := next.performs loggers (l.put text)
    rw [Logger.put_put] at next'
    unfold Operands.operations Operands.entries Operands.message
    exact (Performs.put l text).andThen (fun h => by cases h) fun _ => next'
  | l, .call body result next => by
    have body' := body.performs (l :: loggers)
    have next' := next.performs loggers (l.put result)
    unfold Operands.operations Operands.entries Operands.message
    refine body'.andThen (fun threw => ?_) fun returned => ?_
    · rw [threw, if_pos rfl, Logger.put_empty]
    · rw [returned, if_neg Bool.false_ne_true, ← Logger.put_put]
      exact (Performs.put l result).andThen (fun h => by cases h) fun _ => next'

end

end Performs

/-- A message with its header and its newline, of a level that is reported. -/
def Entry.Whole (logLevel : Level) (e : Entry) : Prop :=
  e.severity.Reported logLevel ∧ ∃ text, e.msg = "[" ++ e.severity.name ++ "] " ++ text ++ "\n"

section Whole

variable {logLevel : Level}

theorem Trace.mem_andThen {α : Type*} {a b : Trace α} {x : α}
    (member : x ∈ (a.andThen b).items) : x ∈ a.items ∨ x ∈ b.items := by
  unfold Trace.andThen at member
  split at member
  · exact .inl member
  · exact List.mem_append.mp member

theorem Trace.mem_recover {α : Type*} {a b : Trace α} {x : α}
    (member : x ∈ (a.recover b).items) : x ∈ a.items ∨ x ∈ b.items := by
  unfold Trace.recover at member
  split at member
  · exact List.mem_append.mp member
  · exact .inl member

mutual

theorem Code.entries_whole : ∀ (code : Code), ∀ e ∈ (code.entries logLevel).items, e.Whole logLevel
  | .done, e, member => absurd member List.not_mem_nil
  | .throw_, e, member => absurd member List.not_mem_nil
  | .log level operands next, e, member => by
    unfold Code.entries at member
    split at member
    · rename_i reported
      rcases Trace.mem_andThen member with own | later
      · rcases List.mem_append.mp own with inner | outer
        · exact operands.entries_whole e inner
        · cases List.mem_singleton.mp outer
          exact ⟨reported, operands.message logLevel, rfl⟩
      · exact next.entries_whole e later
    · exact next.entries_whole e member
  | .tryCatch body handler next, e, member => by
    unfold Code.entries at member
    rcases Trace.mem_andThen member with attempted | later
    · rcases Trace.mem_recover attempted with first | second
      · exact body.entries_whole e first
      · exact handler.entries_whole e second
    · exact next.entries_whole e later

theorem Operands.entries_whole : ∀ (operands : Operands),
    ∀ e ∈ (operands.entries logLevel).items, e.Whole logLevel
  | .nil, e, member => absurd member List.not_mem_nil
  | .text _ next, e, member => next.entries_whole e member
  | .call body _ next, e, member => by
    unfold Operands.entries at member
    rcases Trace.mem_andThen member with first | later
    · exact body.entries_whole e first
    · exact next.entries_whole e later

end

end Whole

/-- **What is in the log.** However far the code has come, the log has got the first of the
messages that it is meant to write, and whole ones only. Once the code is done, the log has
got them all, and the messages that had been begun before are as they were. An exception
leaves the code if it is meant to. -/
theorem log_of_run (logLevel : Level) (code : Code) (loggers : List Logger) (log : List Entry)
    {done : List Operation} (begun : done <+: (code.operations logLevel).items) :
    (∃ s new, run step ⟨loggers, log⟩ done = some s ∧ s.log = log ++ new ∧
      new <+: (code.entries logLevel).items ∧ (∀ e ∈ new, e.Whole logLevel) ∧
      (done = (code.operations logLevel).items →
        s.loggers = loggers ∧ new = (code.entries logLevel).items)) ∧
      (code.operations logLevel).threw = (code.entries logLevel).threw := by
  have performs : Performs (code.operations logLevel) loggers loggers (code.entries logLevel) :=
    code.performs loggers
  have runs := performs.reaches log
  refine ⟨?_, performs.threw⟩
  obtain ⟨rest, split⟩ := begun
  rw [← split, run_append] at runs
  obtain ⟨s, reached, later⟩ := Option.bind_eq_some_iff.mp runs
  obtain ⟨new, same⟩ := log_prefix_of_run reached
  have written : new <+: (code.entries logLevel).items := by
    have before := log_prefix_of_run later
    rw [← same] at before
    exact (List.prefix_append_right_inj log).mp before
  refine ⟨s, new, reached, same.symm, written, fun e member =>
    code.entries_whole e (written.subset member), fun complete => ?_⟩
  -- nothing is left to be done
  have over_ : rest = [] := List.append_right_eq_self.mp (split.trans complete.symm)
  subst over_
  cases later
  exact ⟨rfl, List.append_cancel_left same⟩

/-- A message that is begun while another is. -/
def sending : Code :=
  .log .info (.text "Sending: " (.call (.log .trace (.text "hex" .nil) .done) "01 00" .nil)) .done

/-- The inner message is in the log, and the outer one is not finished. -/
def untilInner : List Operation :=
  [.construct, .stream .info, .put "[", .put "Info", .put "] ", .put "Sending: ",
    .construct, .stream .trace, .put "[", .put "Trace", .put "] ", .put "hex", .destroy]

theorem log_of_run_sending :
    (∃ s new, run step ⟨[], []⟩ untilInner = some s ∧ s.log = [] ++ new ∧
      new <+: (sending.entries .trace).items ∧ (∀ e ∈ new, e.Whole .trace) ∧
      (untilInner = (sending.operations .trace).items →
        s.loggers = [] ∧ new = (sending.entries .trace).items)) ∧
      (sending.operations .trace).threw = (sending.entries .trace).threw :=
  log_of_run .trace sending [] [] (by decide)

/-! ## Reporting levels -/

mutual

/-- The code without the messages that are not reported. -/
def Code.prune (logLevel : Level) : Code → Code
  | .done => .done
  | .throw_ => .throw_
  | .log level operands next =>
    if level.Reported logLevel then .log level (operands.prune logLevel) (next.prune logLevel)
    else next.prune logLevel
  | .tryCatch body handler next =>
    .tryCatch (body.prune logLevel) (handler.prune logLevel) (next.prune logLevel)

def Operands.prune (logLevel : Level) : Operands → Operands
  | .nil => .nil
  | .text text next => .text text (next.prune logLevel)
  | .call body result next => .call (body.prune logLevel) result (next.prune logLevel)

end

def Level.lower (a b : Level) : Level := if a.value ≤ b.value then a else b

theorem Level.reported_lower {level a b : Level} :
    level.Reported (a.lower b) ↔ level.Reported a ∧ level.Reported b := by
  unfold Level.lower Level.Reported
  split <;> omega

section Prune

variable {a b : Level}

mutual

theorem Code.of_prune : ∀ code : Code,
    (code.prune a).operations b = code.operations (a.lower b) ∧
      (code.prune a).entries b = code.entries (a.lower b)
  | .done => ⟨rfl, rfl⟩
  | .throw_ => ⟨rfl, rfl⟩
  | .log level operands next => by
    obtain ⟨nextOperations, nextEntries⟩ := next.of_prune
    obtain ⟨operations, entries, message⟩ := operands.of_prune
    rw [Code.prune, Code.operations, Code.entries]
    by_cases kept : level.Reported a
    · rw [if_pos kept, Code.operations, Code.entries, operations, entries, message,
        nextOperations, nextEntries]
      simp only [Level.reported_lower, kept, true_and]
    · have omitted : ¬ level.Reported (a.lower b) :=
        fun both => kept (Level.reported_lower.mp both).1
      rw [if_neg kept, if_neg omitted, if_neg omitted]
      exact ⟨nextOperations, nextEntries⟩
  | .tryCatch body handler next => by
    rw [Code.prune, Code.operations, Code.operations, Code.entries, Code.entries,
      body.of_prune.1, handler.of_prune.1, next.of_prune.1,
      body.of_prune.2, handler.of_prune.2, next.of_prune.2]
    exact ⟨rfl, rfl⟩

theorem Operands.of_prune : ∀ operands : Operands,
    (operands.prune a).operations b = operands.operations (a.lower b) ∧
      (operands.prune a).entries b = operands.entries (a.lower b) ∧
      (operands.prune a).message b = operands.message (a.lower b)
  | .nil => ⟨rfl, rfl, rfl⟩
  | .text text next => by
    obtain ⟨operations, entries, message⟩ := next.of_prune
    refine ⟨?_, entries, congrArg (text ++ ·) message⟩
    rw [Operands.prune, Operands.operations, Operands.operations, operations]
  | .call body result next => by
    obtain ⟨bodyOperations, bodyEntries⟩ := body.of_prune
    obtain ⟨operations, entries, message⟩ := next.of_prune
    refine ⟨?_, ?_, ?_⟩
    · rw [Operands.prune, Operands.operations, Operands.operations, bodyOperations, operations]
    · rw [Operands.prune, Operands.entries, Operands.entries, bodyEntries, entries]
    · rw [Operands.prune, Operands.message, Operands.message, bodyEntries, message]

end

end Prune

/-- Messages above the reporting level are as if they were not in the code: the rest of it
does the same with its loggers, writes the same and lets the same exceptions out, also
where a second level applies. -/
theorem entries_prune (code : Code) (a b : Level) :
    (code.prune a).operations b = code.operations (a.lower b) ∧
      (code.prune a).entries b = code.entries (a.lower b) :=
  code.of_prune

mutual

/-- No operand that is evaluated throws. -/
def Code.Calm (logLevel : Level) : Code → Prop
  | .done => True
  | .throw_ => True
  | .log level operands next =>
    (level.Reported logLevel → operands.Calm logLevel) ∧ next.Calm logLevel
  | .tryCatch body handler next =>
    body.Calm logLevel ∧
      ((body.entries logLevel).threw = true → handler.Calm logLevel) ∧
      (((body.entries logLevel).recover (handler.entries logLevel)).threw = false →
        next.Calm logLevel)

def Operands.Calm (logLevel : Level) : Operands → Prop
  | .nil => True
  | .text _ next => next.Calm logLevel
  | .call body _ next =>
    body.Calm logLevel ∧ (body.entries logLevel).threw = false ∧ next.Calm logLevel

end

section Sublist

variable {a b : Level}

/-- The same exception, and no message that the other does not write. -/
def Trace.Within {α : Type*} (a b : Trace α) : Prop :=
  a.threw = b.threw ∧ a.items.Sublist b.items

namespace Trace.Within

variable {α : Type*} {a a' b b' : Trace α}

theorem andThen (first : a.Within b) (second : b.threw = false → a'.Within b') :
    (a.andThen a').Within (b.andThen b') := by
  unfold Trace.andThen
  rw [first.1]
  split
  · exact first
  · rename_i returned
    obtain ⟨threw, items⟩ := second (Bool.eq_false_iff.mpr returned)
    exact ⟨threw, first.2.append items⟩

theorem recover (first : a.Within b) (second : b.threw = true → a'.Within b') :
    (a.recover a').Within (b.recover b') := by
  unfold Trace.recover
  rw [first.1]
  split
  · rename_i threw
    exact ⟨(second threw).1, first.2.append (second threw).2⟩
  · exact first

end Trace.Within

mutual

theorem Code.entries_within (lower : a.value ≤ b.value) : ∀ code : Code, code.Calm b →
    (code.entries a).Within (code.entries b)
  | .done, _ => ⟨rfl, .refl _⟩
  | .throw_, _ => ⟨rfl, .refl _⟩
  | .log level operands next, calm => by
    obtain ⟨operandsCalm, nextCalm⟩ := calm
    have next' := next.entries_within lower nextCalm
    unfold Code.entries
    by_cases reported : level.Reported b
    · obtain ⟨⟨threw, entries⟩, message, returned⟩ :=
        operands.entries_within lower (operandsCalm reported)
      rw [if_pos reported]
      split
      · rw [message]
        exact Trace.Within.andThen ⟨threw, entries.append (.refl _)⟩ fun _ => next'
      · have omitted (items : List Entry) :
            Trace.Within {} ((operands.entries b).finally_ items) :=
          ⟨returned.symm, List.nil_sublist _⟩
        exact (omitted _).andThen fun _ => next'
    · have above : ¬ level.Reported a := by
        unfold Level.Reported at reported ⊢
        omega
      rw [if_neg reported, if_neg above]
      exact next'
  | .tryCatch body handler next, calm => by
    obtain ⟨bodyCalm, handlerCalm, nextCalm⟩ := calm
    have attempted := (body.entries_within lower bodyCalm).recover fun threw =>
      handler.entries_within lower (handlerCalm threw)
    unfold Code.entries
    exact attempted.andThen fun returned => next.entries_within lower (nextCalm returned)

theorem Operands.entries_within (lower : a.value ≤ b.value) : ∀ operands : Operands,
    operands.Calm b → (operands.entries a).Within (operands.entries b) ∧
      operands.message a = operands.message b ∧ (operands.entries b).threw = false
  | .nil, _ => ⟨⟨rfl, .refl _⟩, rfl, rfl⟩
  | .text text next, calm => by
    obtain ⟨entries, message, returned⟩ := next.entries_within lower calm
    exact ⟨entries, congrArg (text ++ ·) message, returned⟩
  | .call body result next, calm => by
    obtain ⟨bodyCalm, bodyReturns, nextCalm⟩ := calm
    have body' := body.entries_within lower bodyCalm
    obtain ⟨entries, message, returned⟩ := next.entries_within lower nextCalm
    refine ⟨body'.andThen fun _ => entries, ?_, ?_⟩
    · unfold Operands.message
      rw [body'.1, message]
    · unfold Operands.entries Trace.andThen
      rw [bodyReturns, if_neg Bool.false_ne_true]
      exact returned

end

end Sublist

/-- A higher reporting level only adds messages, and changes nothing else, if none of the
operands that are then evaluated throws; operands that change what others return are not
among those of `Operands`. -/
theorem entries_sublist (code : Code) (a b : Level) (lower : a.value ≤ b.value)
    (calm : code.Calm b) : (code.entries a).items.Sublist (code.entries b).items ∧
      (code.entries a).threw = (code.entries b).threw :=
  ⟨(code.entries_within lower calm).2, (code.entries_within lower calm).1⟩

theorem entries_sublist_sending :
    (sending.entries .info).items.Sublist (sending.entries .trace).items ∧
      (sending.entries .info).threw = (sending.entries .trace).threw :=
  entries_sublist sending .info .trace (by decide)
    ⟨fun _ => ⟨⟨fun _ => trivial, trivial⟩, rfl, trivial⟩, trivial⟩

end Iqrf.Log
