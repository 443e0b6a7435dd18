import Mathlib.Data.List.DropRight
import TrendLadder.Proofs.Engine.Entry
import TrendLadder.Proofs.Engine.Rejection

/-!
# An alert that is let pass

The order to let an alert pass is for the next evaluation. `pendingCommands` reads off a log the
commands that came since the latest evaluation, with rejected ticks or by themselves, and the flag
of the engine says whether the order is among them (`ignoresAlert_run`). So `ignored_iff` can say of
any run at which ticks a signal is let pass, and that the flag never outlives an evaluation.
-/

namespace TrendLadder

/-- The commands that come with a call. -/
def Call.commands : Call → List Command
  | .tick _ commands => commands
  | .command c => [c]
  | .close _ _ _ => []
  | .forget => []

/-- The commands of a log that came after its latest evaluation. -/
def pendingCommands (log : List (Call × Reply)) : List Command :=
  (log.rtakeWhile fun x => (evaluatedAt? x).isNone).flatMap fun x => x.1.commands

/-- An evaluation leaves no command pending, any other call adds its own. -/
theorem pendingCommands_concat (log : List (Call × Reply)) (x : Call × Reply) :
    pendingCommands (log ++ [x]) =
      if (evaluatedAt? x).isNone then pendingCommands log ++ x.1.commands else [] := by
  unfold pendingCommands
  rw [List.rtakeWhile_concat]
  split
  · rw [List.flatMap_append, List.flatMap_singleton]
  · rfl

namespace Engine

/-! ## The flag -/

theorem ignoresAlert_after (e : Engine) (c : Command) :
    (e.after c).ignoresAlert = true ↔ e.ignoresAlert = true ∨ .ignoreAlert = c := by
  unfold after
  cases c with
  | pause | resume => simp [apply, withLadder]
  | skipToLevel level =>
    rw [apply, skipTo]
    cases e.book.ladder.skipTo level <;> simp [withLadder]
  | adjustMinSize size =>
    rw [apply, adjustMinSize]
    cases e.pattern.adjustMinSize size <;> simp
  | ignoreAlert => simp [apply]

/-- The flag is set by the order and by no other command, and no command clears it. -/
theorem ignoresAlert_obey (e : Engine) (cs : List Command) :
    (e.obey cs).2.ignoresAlert = true ↔ e.ignoresAlert = true ∨ .ignoreAlert ∈ cs := by
  induction cs generalizing e with
  | nil => exact ⟨.inl, fun h => h.resolve_right List.not_mem_nil⟩
  | cons c cs ih =>
    show ((e.after c).obey cs).2.ignoresAlert = true ↔ _
    rw [ih, ignoresAlert_after, List.mem_cons, or_assoc]

/-- After an evaluation the flag is clear; any other call sets it if the order comes with it. -/
theorem ignoresAlert_call (e : Engine) (c : Call) :
    (e.call c).2.ignoresAlert = true ↔ (evaluatedAt? (c, (e.call c).1)).isNone = true ∧
      (e.ignoresAlert = true ∨ .ignoreAlert ∈ c.commands) := by
  cases c with
  | tick t commands =>
    rw [call, evaluatedAt?]
    dsimp only
    rw [rejection?_tick]
    cases screened : t.screen (e.obey commands).2.latest with
    | some rejection =>
      rw [tick_of_rejected screened, ignoresAlert_obey]
      exact (and_iff_right rfl).symm
    | none =>
      rw [tick_of_passed screened]
      exact iff_of_false Bool.false_ne_true fun h => Bool.false_ne_true h.1
  | command c =>
    show (e.after c).ignoresAlert = true ↔ _ ∧ (_ ∨ .ignoreAlert ∈ [c])
    rw [ignoresAlert_after, List.mem_singleton]
    exact (and_iff_right rfl).symm
  | close id price closedAt =>
    obtain ⟨book, closed⟩ := e.afterClose_eq id price closedAt
    show (e.afterClose id price closedAt).ignoresAlert = true ↔ _
    rw [closed]
    exact ⟨fun h => ⟨rfl, .inl h⟩, fun h => h.2.resolve_right List.not_mem_nil⟩
  | forget => exact ⟨fun h => ⟨rfl, .inl h⟩, fun h => h.2.resolve_right List.not_mem_nil⟩

theorem ignoresAlert_run {s : Settings} {e0 : Engine} (built : new s = .ok e0)
    (calls : List Call) :
    (e0.run calls).2.ignoresAlert = true ↔ .ignoreAlert ∈ pendingCommands (e0.run calls).1 := by
  refine run_induct
    (P := fun log e => e.ignoresAlert = true ↔ .ignoreAlert ∈ pendingCommands log)
    built ?start ?step calls
  case start =>
    obtain ⟨-, rfl⟩ := new_eq_ok.mp built
    exact iff_of_false Bool.false_ne_true List.not_mem_nil
  case step =>
    intro log e c _ armed
    rw [ignoresAlert_call, pendingCommands_concat, armed, ← List.mem_append]
    split
    · next waits => exact and_iff_right waits
    · next evaluated => exact iff_of_false (fun h => evaluated h.1) List.not_mem_nil

/-! ## The next evaluation -/

theorem act_eq_ignored {e : Engine} {t : Tick} {sig : Signal} :
    (e.act t sig).decision = .ignored ↔ sig.isActionable = true ∧ e.ignoresAlert = true := by
  rcases e.act_tried t sig with ⟨idle, acts⟩ | ⟨actionable, ignores, acts⟩ |
    ⟨actionable, heard, ⟨rejection, -, acts⟩ | ⟨p, ledger, acts⟩⟩
  · rw [acts, idle]
    exact ⟨nofun, nofun⟩
  · rw [acts]
    exact iff_of_true rfl ⟨actionable, ignores⟩
  all_goals
    rw [acts, heard]
    exact ⟨nofun, nofun⟩

end Engine

/-- A report lets a signal pass exactly if the order is among the commands before the evaluation;
then nothing is opened and the ledger is the one that the closes left. The order is served in any
case. Here `closed` is the engine when the positions that exit are closed, and `next` the one after
the tick. -/
structure TickReport.ServesAlert (r : TickReport) (pending : List Command)
    (closed next : Engine) : Prop where
  ignored_iff : r.decision = .ignored ↔ r.signal.isActionable = true ∧ .ignoreAlert ∈ pending
  idle : r.decision = .ignored → r.openings = [] ∧ next.book.ledger = closed.book.ledger
  served : next.ignoresAlert = false

namespace Engine

theorem ledger_of_ignored {e : Engine} {t : Tick} {sig : Signal}
    (ignored : (e.act t sig).decision = .ignored) :
    (e.act t sig).opened = none ∧ (e.act t sig).ledger = e.book.ledger := by
  obtain ⟨actionable, ignores⟩ := act_eq_ignored.mp ignored
  rw [act_of_ignored actionable ignores]
  exact ⟨rfl, rfl⟩

/-- **The order to let an alert pass is for the next evaluation and for no other.** After any calls
of a new engine a tick that is not rejected lets its signal pass exactly if it asks for a trade and
the order came after the latest evaluation, with the tick at the latest; and after the tick the
order is served. -/
theorem servesAlert_tick {s : Settings} {e0 : Engine} (built : new s = .ok e0)
    (calls : List Call) (t : Tick) (commands : List Command)
    (accepted : ((e0.run calls).2.tick t commands).1.rejection? = none) :
    ((e0.run calls).2.tick t commands).1.ServesAlert
      (pendingCommands (e0.run calls).1 ++ commands)
      (((e0.run calls).2.obey commands).2.settled t)
      ((e0.run calls).2.tick t commands).2 := by
  have armed := ignoresAlert_run built calls
  generalize (e0.run calls).2 = e at accepted armed ⊢
  rw [rejection?_tick] at accepted
  rw [tick_of_passed accepted]
  have pending : ((e.obey commands).2.settled t).ignoresAlert = true ↔
      .ignoreAlert ∈ pendingCommands (e0.run calls).1 ++ commands := by
    rw [List.mem_append, ← armed]
    exact e.ignoresAlert_obey commands
  constructor
  case ignored_iff =>
    rw [← pending]
    exact act_eq_ignored
  case idle =>
    intro ignored
    have passed : ((e.obey commands).2.actionOn t).decision = .ignored := ignored
    obtain ⟨opened, ledger⟩ := ledger_of_ignored passed
    refine ⟨?_, ledger⟩
    show ((e.obey commands).2.evaluate t).1.events.filterMap _ = []
    rw [openings_evaluate, actionOn, opened]
    rfl
  case served => rfl

/-- An order that came with a rejected tick waits for the candle that turns the market. -/
theorem servesAlert_tick_turning :
    new turningSettings = .ok (fresh turningSettings) ∧
    (((fresh turningSettings).run (fallingCalls ++ [.tick repeatedTick [.ignoreAlert]])).2.tick
      (flatTick turningCandle) []).1.rejection? = none ∧
    (((fresh turningSettings).run (fallingCalls ++ [.tick repeatedTick [.ignoreAlert]])).2.tick
      (flatTick turningCandle) []).1.decision = .ignored := by
  have accepted :
      (((fresh turningSettings).run (fallingCalls ++ [.tick repeatedTick [.ignoreAlert]])).2.tick
        (flatTick turningCandle) []).1.rejection? = none := by
    decide +kernel
  have serves := servesAlert_tick new_turningSettings _ (flatTick turningCandle) [] accepted
  exact ⟨new_turningSettings, accepted, serves.ignored_iff.mpr (by decide +kernel)⟩

end Engine

end TrendLadder
