import TrendLadder.Proofs.Engine.Run

/-!
# Rejected ticks

A tick is unfit (`Tick.IsUnfit`) by what it holds and by the time of the latest evaluated tick,
which a log tells (`latest_run`). `rejections_leave_no_trace` says that the unfit ticks are the
rejected ones, that a rejected tick does what its commands do and nothing else, and that any tick
does what its commands do and then what it does without commands. So a run can be made again
without its rejected ticks: `Pruned` drops some of them from a log and keeps their commands, and the
calls that are left get the same replies and lead to the same engine.
-/

namespace TrendLadder

namespace Tick

/-- Something speaks against a tick, where `latest` is the time of the latest evaluated one. -/
def IsUnfit (t : Tick) (latest : Option Timestamp) : Prop :=
  t.candle.isSane = false ∨
    (∃ time, latest = some time ∧ (t.candle.timestamp < time ∨ t.candle.timestamp = time)) ∨
    t.account.isSane = false ∨ t.quote.isSane = false

theorem orderFaults_ne_nil {t : Tick} {latest : Option Timestamp} :
    t.orderFaults latest ≠ [] ↔
      ∃ time, latest = some time ∧ (t.candle.timestamp < time ∨ t.candle.timestamp = time) := by
  cases latest with
  | none => exact ⟨fun h => absurd rfl h, nofun⟩
  | some time =>
    rw [orderFaults, ne_eq, rejectIf_eq_nil, Bool.not_eq_false', decide_eq_true_iff,
      Timestamp.not_lt]
    exact ⟨fun h => ⟨time, rfl, h⟩, fun ⟨_, rfl, h⟩ => h⟩

theorem screen_ne_none {t : Tick} {latest : Option Timestamp} :
    t.screen latest ≠ none ↔ t.IsUnfit latest := by
  rw [ne_eq, screen_eq_none, IsUnfit, ← orderFaults_ne_nil]
  simp only [not_and_or, Bool.not_eq_true, ne_eq]

end Tick

/-! ## The latest evaluated tick -/

/-- The time of a tick that was evaluated. -/
def evaluatedAt? : Call × Reply → Option Timestamp
  | (.tick t _, .report r) => if r.rejection?.isNone then some t.candle.timestamp else none
  | _ => none

/-- The time of the latest tick of a log that was evaluated. -/
def latestEvaluated (log : List (Call × Reply)) : Option Timestamp :=
  (log.filterMap evaluatedAt?).getLast?

theorem latestEvaluated_cons (x : Call × Reply) (log : List (Call × Reply)) :
    latestEvaluated (x :: log) = (latestEvaluated log).or (evaluatedAt? x) := by
  unfold latestEvaluated
  rw [List.filterMap_cons]
  cases evaluatedAt? x with
  | none => rw [Option.or_none]
  | some time =>
    dsimp only
    rw [List.getLast?_cons]
    cases (log.filterMap evaluatedAt?).getLast? <;> rfl

/-! ## Commands by themselves -/

/-- What the status of a command tells of its effect. -/
def CommandStatus.changed : CommandStatus → Except CommandError Bool
  | .applied => .ok true
  | .unchanged => .ok false
  | .rejected error => .error error

/-- The command of an outcome as a call, with the reply to it. -/
def CommandOutcome.entry (o : CommandOutcome) : Call × Reply :=
  (.command o.command, .obeyed o.status.changed)

/-- The second log is the first one without some of its rejected ticks, whose commands stand as
calls in their place. -/
inductive Pruned : List (Call × Reply) → List (Call × Reply) → Prop where
  | nil : Pruned [] []
  | keep {log kept : List (Call × Reply)} (x : Call × Reply) (rest : Pruned log kept) :
    Pruned (x :: log) (x :: kept)
  | prune {log kept : List (Call × Reply)} {t : Tick} {commands : List Command} {r : TickReport}
    (rejected : r.rejection? ≠ none) (rest : Pruned log kept) :
    Pruned ((.tick t commands, .report r) :: log) (r.commands.map CommandOutcome.entry ++ kept)

theorem Pruned.refl (log : List (Call × Reply)) : Pruned log log := by
  induction log with
  | nil => exact .nil
  | cons x log ih => exact .keep x ih

theorem Pruned.append_left {log kept : List (Call × Reply)} (h : Pruned log kept)
    (before : List (Call × Reply)) : Pruned (before ++ log) (before ++ kept) := by
  induction before with
  | nil => exact h
  | cons x before ih => exact .keep x ih

namespace Engine

variable {e : Engine} {t : Tick} {commands : List Command}

theorem changed_status (e : Engine) (c : Command) : (e.status c).changed = e.command c := by
  unfold status command
  rcases e.apply c with error | ⟨_ | _, next⟩ <;> rfl

/-- Commands that come by themselves get the replies that a tick reports of them. -/
theorem run_commands (e : Engine) (cs : List Command) :
    e.run (cs.map .command) = ((e.obey cs).1.map CommandOutcome.entry, (e.obey cs).2) := by
  induction cs generalizing e with
  | nil => rfl
  | cons c cs ih =>
    rw [List.map_cons, run, obey, List.map_cons, CommandOutcome.entry, changed_status]
    dsimp only [call]
    rw [ih]

theorem calls_obey (e : Engine) (cs : List Command) :
    ((e.obey cs).1.map CommandOutcome.entry).map Prod.fst = cs.map .command := by
  have calls := e.map_fst_run (cs.map .command)
  rwa [run_commands] at calls

/-! ## A step -/

theorem rejection?_ne_none :
    (e.tick t commands).1.rejection? ≠ none ↔ t.IsUnfit e.latest := by
  rw [rejection?_tick, latest_obey, Tick.screen_ne_none]

theorem tick_of_unfit (h : (e.tick t commands).1.rejection? ≠ none) :
    (e.tick t commands).1.commands = (e.obey commands).1 ∧
    (e.tick t commands).2 = (e.obey commands).2 ∧
    (e.tick t commands).1.events = [] ∧ (e.tick t commands).1.decision = .none := by
  rw [rejection?_tick] at h
  obtain ⟨rejection, screened⟩ := Option.ne_none_iff_exists'.mp h
  rw [tick_of_rejected screened]
  exact ⟨rfl, rfl, rfl, rfl⟩

theorem tick_eq (e : Engine) (t : Tick) (commands : List Command) :
    e.tick t commands = ({ ((e.obey commands).2.tick t []).1 with commands := (e.obey commands).1 },
      ((e.obey commands).2.tick t []).2) := by
  unfold tick
  dsimp only [obey]

theorem latest_call (e : Engine) (c : Call) :
    (e.call c).2.latest = (evaluatedAt? (c, (e.call c).1)).or e.latest := by
  cases c with
  | tick t commands =>
    rw [call, evaluatedAt?]
    dsimp only
    rw [rejection?_tick]
    cases screened : t.screen (e.obey commands).2.latest with
    | some rejection =>
      rw [tick_of_rejected screened]
      exact e.latest_obey commands
    | none =>
      rw [tick_of_passed screened]
      rfl
  | command c => exact e.latest_after c
  | close id price closedAt =>
    obtain ⟨book, closed⟩ := e.afterClose_eq id price closedAt
    rw [call, closed]
    rfl
  | forget => rfl

/-! ## A run -/

theorem latest_run (e : Engine) (calls : List Call) :
    (e.run calls).2.latest = (latestEvaluated (e.run calls).1).or e.latest := by
  induction calls generalizing e with
  | nil => rfl
  | cons c cs ih =>
    rw [run]
    dsimp only
    rw [ih, latest_call, latestEvaluated_cons, Option.or_assoc]

/-- A rejected tick anywhere in a run can be left out. -/
theorem pruned_tick {before : List Call}
    (rejected : ((e.run before).2.tick t commands).1.rejection? ≠ none) (later : List Call) :
    ∃ kept, Pruned (e.run (before ++ .tick t commands :: later)).1 kept ∧
      kept.map Prod.fst = before ++ (commands.map .command ++ later) := by
  rw [run_append, run]
  refine ⟨_, (Pruned.prune rejected (.refl _)).append_left _, ?_⟩
  rw [(tick_of_unfit rejected).1, List.map_append, List.map_append, map_fst_run, calls_obey,
    map_fst_run]

/-- Without some of its rejected ticks a run gets the same replies and leads to the same engine. -/
theorem run_pruned {calls : List Call} {kept : List (Call × Reply)}
    (h : Pruned (e.run calls).1 kept) : e.run (kept.map Prod.fst) = (kept, (e.run calls).2) := by
  induction calls generalizing e kept with
  | nil =>
    cases h
    rfl
  | cons c cs ih =>
    rw [run] at h ⊢
    dsimp only at h ⊢
    -- A pruned entry is a report, which has to be found equal to the reply.
    generalize replied : (e.call c).1 = reply at h
    cases h with
    | keep x rest =>
      rw [List.map_cons, run]
      dsimp only
      rw [ih rest, replied]
    | @prune _ kept t commands r rejected rest =>
      cases replied
      -- The rest of the run starts where the commands end, with or without the tick.
      obtain ⟨told, state, -, -⟩ := tick_of_unfit rejected
      rw [call] at rest ⊢
      dsimp only at rest ⊢
      rw [state] at rest ⊢
      rw [told, List.map_append, calls_obey, run_append, run_commands]
      dsimp only
      rw [ih rest]

/-! ## What a rejected tick leaves -/

/-- What a tick with commands does next to its commands alone, where `latest` is the time of the
latest evaluated tick. -/
structure Screens (e : Engine) (t : Tick) (commands : List Command) (latest : Option Timestamp) :
    Prop where
  /-- Whether the tick is rejected does not depend on the commands. -/
  rejected_iff : (e.tick t commands).1.rejection? ≠ none ↔ t.IsUnfit latest
  /-- A rejected tick leaves what its commands leave and tells nothing. -/
  rejected : (e.tick t commands).1.rejection? ≠ none →
    (e.tick t commands).2 = (e.run (commands.map .command)).2 ∧
    (e.tick t commands).1.events = [] ∧ (e.tick t commands).1.decision = .none
  /-- A report tells of the commands what they are told by themselves. -/
  outcomes : (e.run (commands.map .command)).1 =
    (e.tick t commands).1.commands.map CommandOutcome.entry
  /-- The commands might have come by themselves before the tick. -/
  separate : e.tick t commands =
    ({ ((e.run (commands.map .command)).2.tick t []).1 with
        commands := (e.tick t commands).1.commands },
      ((e.run (commands.map .command)).2.tick t []).2)

theorem screens (e : Engine) (t : Tick) (commands : List Command) :
    Screens e t commands e.latest := by
  constructor
  case rejected_iff => exact rejection?_ne_none
  case rejected =>
    intro h
    rw [run_commands]
    exact (tick_of_unfit h).2
  case outcomes =>
    rw [run_commands]
    rfl
  case separate =>
    rw [run_commands]
    exact e.tick_eq t commands

/-- **Rejected ticks leave no trace.** After any calls of a new engine a tick is rejected exactly if
it is unfit, for a latest time that no reset of the indicators forgets, and then does nothing but
its commands; and any rejected ticks can be dropped from the calls. -/
theorem rejections_leave_no_trace {s : Settings} {e0 : Engine} (built : new s = .ok e0)
    (calls : List Call) :
    (∀ t commands,
      Screens (e0.run calls).2 t commands (latestEvaluated (e0.run calls).1)) ∧
    ∀ kept, Pruned (e0.run calls).1 kept →
      e0.run (kept.map Prod.fst) = (kept, (e0.run calls).2) := by
  obtain ⟨-, rfl⟩ := new_eq_ok.mp built
  have latest : ((fresh s).run calls).2.latest = latestEvaluated ((fresh s).run calls).1 :=
    (latest_run (fresh s) calls).trans (Option.or_none ..)
  refine ⟨fun t commands => ?_, fun kept pruned => run_pruned pruned⟩
  rw [← latest]
  exact screens _ t commands

/-- A tick that repeats the end of the falling market is unfit, also after a reset. It does the skip
that comes with it, and the market turns as it does after the skip alone. -/
theorem rejections_leave_no_trace_repeated :
    new turningSettings = .ok (fresh turningSettings) ∧
    repeatedTick.IsUnfit
      (latestEvaluated ((fresh turningSettings).run (fallingCalls ++ [.forget])).1) ∧
    ((fresh turningSettings).run (fallingCalls ++
      .tick repeatedTick [.skipToLevel 3] :: [.tick (flatTick turningCandle) []])).2 =
    ((fresh turningSettings).run (fallingCalls ++
      ([.command (.skipToLevel 3)] ++ [.tick (flatTick turningCandle) []]))).2 := by
  refine ⟨new_turningSettings, ?_, ?_⟩
  · have screens := (rejections_leave_no_trace new_turningSettings (fallingCalls ++ [.forget])).1
      repeatedTick []
    refine screens.rejected_iff.mp ?_
    decide +kernel
  · have rejected : (((fresh turningSettings).run fallingCalls).2.tick repeatedTick
        [.skipToLevel 3]).1.rejection? ≠ none := by
      decide +kernel
    obtain ⟨kept, pruned, calls⟩ := pruned_tick rejected [.tick (flatTick turningCandle) []]
    have same := (rejections_leave_no_trace new_turningSettings _).2 kept pruned
    rw [calls, List.map_singleton] at same
    rw [same]

end Engine

end TrendLadder
