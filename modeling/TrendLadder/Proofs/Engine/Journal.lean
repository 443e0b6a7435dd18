import TrendLadder.Proofs.Engine.Run

/-!
# The journal of an engine

A `Journal` holds the level, the pending skip, the pause and the open positions as they follow from
the calls and replies alone: from the accepted commands and from the positions that are told opened
and closed. `journal_of_log` says that nothing happens that is not told: after every call the
journal is what the snapshot shows, and every close tells the move of the journal's level. The
proof is a simulation: `Journal.of` reads the journal off a book, and each stage of a call moves
both in the same way.
-/

namespace TrendLadder

/-- What is known of an engine from its replies. -/
structure Journal where
  level : Nat
  pendingSkip : Option Nat
  paused : Bool
  /-- The positions that were told opened and not yet closed. -/
  records : List Position
deriving DecidableEq

namespace Journal

/-! ## Keeping a journal -/

/-- Before the first call. -/
def start : Journal := ⟨0, none, false, []⟩

/-- The level after an outcome on a ladder with a number of levels. -/
def levelAfter (levels level : Nat) : TradeOutcome → Nat
  | .loss => min (level + 1) (levels - 1)
  | .win => 0
  | .breakeven => level

/-- Takes an accepted command. -/
def obey (j : Journal) : Command → Journal
  | .pause => { j with paused := true }
  | .resume => { j with paused := false }
  | .skipToLevel level => { j with level := level - 1, pendingSkip := some (level - 1) }
  | .adjustMinSize _ => j
  | .ignoreAlert => j

/-- Takes a closed position. -/
def close (levels : Nat) (j : Journal) (closed : ClosedPosition) : Journal where
  level := levelAfter levels j.level closed.outcome
  pendingSkip := none
  paused := j.paused
  records := j.records.filter (·.id ≠ closed.record.id)

/-- Takes an event. -/
def event (levels : Nat) (j : Journal) : PositionEvent → Journal
  | .opened p => { j with records := j.records ++ [p] }
  | .closed closed => j.close levels closed

/-- Takes a command with what became of it. -/
def outcome (j : Journal) (o : CommandOutcome) : Journal :=
  if o.status.isRejected then j else j.obey o.command

/-- Takes the reply to a call; a report tells its commands before its events. -/
def reply (levels : Nat) (j : Journal) : Call × Reply → Journal
  | (_, .report r) => r.events.foldl (event levels) (r.commands.foldl outcome j)
  | (.command c, .obeyed (.ok _)) => j.obey c
  | (_, .closed (.ok closed)) => j.close levels closed
  | _ => j

/-- The journal of a log. -/
def ofLog (levels : Nat) (log : List (Call × Reply)) : Journal := log.foldl (reply levels) start

/-! ## What a journal says -/

/-- The snapshot shows the journal, its positions in the ascending order of their numbers. -/
structure Agrees (j : Journal) (s : Snapshot) : Prop where
  level : s.level = j.level
  pendingSkip : s.pendingSkip = j.pendingSkip
  paused : s.paused = j.paused
  records : s.openPositions = j.records
  ascending : s.openPositions.Pairwise (·.id < ·.id)

/-- A close tells the move of the level. -/
def Tells (levels : Nat) (j : Journal) (closed : ClosedPosition) : Prop :=
  closed.transition = ⟨j.level, (j.close levels closed).level⟩

/-- Every close among some events tells the move of the level. -/
def TellsAll (levels : Nat) : Journal → List PositionEvent → Prop
  | _, [] => True
  | j, .opened p :: events => TellsAll levels (j.event levels (.opened p)) events
  | j, .closed closed :: events =>
    j.Tells levels closed ∧ TellsAll levels (j.close levels closed) events

/-- Every close in the reply to a call tells the move of the level. -/
def TellsIn (levels : Nat) (j : Journal) : Reply → Prop
  | .report r => TellsAll levels (r.commands.foldl outcome j) r.events
  | .closed (.ok closed) => j.Tells levels closed
  | _ => True

theorem tellsAll_append (levels : Nat) (xs ys : List PositionEvent) (j : Journal) :
    j.TellsAll levels (xs ++ ys) ↔
      j.TellsAll levels xs ∧ (xs.foldl (event levels) j).TellsAll levels ys := by
  induction xs generalizing j with
  | nil => exact ⟨fun h => ⟨trivial, h⟩, And.right⟩
  | cons x xs ih =>
    cases x with
    | opened p => exact ih _
    | closed closed => exact (and_congr_right fun _ => ih _).trans and_assoc.symm

/-! ## The journal of a book -/

/-- The journal that a book amounts to. -/
def of (b : Book) : Journal :=
  ⟨b.ladder.level, b.ladder.pendingSkip, b.ladder.paused, b.ledger.openPositions⟩

section Simulation

variable {s : Settings} {b next : Book}

theorem levelAfter_applyOutcome (l : Ladder) (o : TradeOutcome) :
    (l.applyOutcome o).level = levelAfter l.size l.level o := by
  cases o <;> rfl

/-- A close moves a book and its journal in the same way and tells the move. -/
theorem close_of (under : b.Under s) {id : PositionId} {price : Float} {closedAt : Timestamp}
    {closed : ClosedPosition} (done : b.close id price closedAt = .ok (closed, next)) :
    (of b).close s.ladder.size closed = of next ∧ (of b).Tells s.ladder.size closed := by
  obtain ⟨p, found, finished, rfl⟩ := Book.close_eq_ok_iff.mp done
  have numbered : closed.record.id = id := by
    have : p.id = id := by simpa using List.find?_some found
    rw [finished]
    exact this
  have level : (b.settle id closed).ladder.level =
      levelAfter s.ladder.size b.ladder.level closed.outcome := by
    rw [← under.size_eq]
    exact levelAfter_applyOutcome b.ladder closed.outcome
  constructor
  · unfold close of
    rw [numbered, level]
    congr 1
    · exact (Ladder.pendingSkip_applyOutcome _ _).symm
    · exact (Ladder.paused_applyOutcome _ _).symm
  · show closed.transition =
      ⟨b.ladder.level, levelAfter s.ladder.size b.ladder.level closed.outcome⟩
    rw [← level, finished]
    rfl

theorem closeEach_of (closedAt : Timestamp) (exits : List (PositionId × Float)) :
    ∀ {b : Book}, b.Under s →
      ((b.closeEach closedAt exits).1.map PositionEvent.closed).foldl (event s.ladder.size) (of b) =
          of (b.closeEach closedAt exits).2 ∧
        (of b).TellsAll s.ladder.size
          ((b.closeEach closedAt exits).1.map PositionEvent.closed) := by
  induction exits with
  | nil => exact fun _ => ⟨rfl, trivial⟩
  | cons x xs ih =>
    intro b under
    rw [Book.closeEach]
    cases done : b.close x.1 x.2 closedAt with
    | error e => exact ih under
    | ok r =>
      obtain ⟨closed, next⟩ := r
      obtain ⟨moved, told⟩ := close_of under done
      obtain ⟨others, toldOthers⟩ := ih ((Book.Move.close done).under under)
      constructor
      · rw [← others, ← moved]
        rfl
      · refine ⟨told, ?_⟩
        rw [moved]
        exact toldOthers

theorem obey_of {e : Engine} {c : Command} {changed : Bool} {next : Engine}
    (accepted : e.apply c = .ok (changed, next)) : (of e.book).obey c = of next.book := by
  cases c with
  | pause | resume | ignoreAlert =>
    cases accepted
    rfl
  | skipToLevel level =>
    rw [Engine.apply, Engine.skipTo] at accepted
    cases skipped : e.book.ladder.skipTo level with
    | error refusal =>
      rw [skipped] at accepted
      cases accepted
    | ok ladder =>
      rw [skipped] at accepted
      cases accepted
      obtain ⟨-, -, rfl⟩ := Ladder.skipTo_eq_ok.mp skipped
      rfl
  | adjustMinSize size =>
    rw [Engine.apply, Engine.adjustMinSize] at accepted
    cases adjusted : e.pattern.adjustMinSize size <;> rw [adjusted] at accepted <;> cases accepted
    rfl

theorem outcome_of (e : Engine) (c : Command) :
    (of e.book).outcome ⟨c, e.status c⟩ = of (e.after c).book := by
  unfold outcome Engine.status Engine.after
  cases applied : e.apply c with
  | error refusal => rfl
  | ok r =>
    obtain ⟨changed, next⟩ := r
    rw [← obey_of applied]
    cases changed <;> rfl

theorem outcomes_of (e : Engine) (cs : List Command) :
    (e.obey cs).1.foldl outcome (of e.book) = of (e.obey cs).2.book := by
  induction cs generalizing e with
  | nil => rfl
  | cons c cs ih =>
    rw [Engine.obey, List.foldl_cons, outcome_of]
    exact ih (e.after c)

theorem of_enter (e : Engine) (t : Tick) : of (e.enter t).book = of e.book := by
  unfold Engine.enter
  split <;> rfl

theorem acted_of (levels : Nat) (e : Engine) (t : Tick) (sig : Signal) :
    ((e.act t sig).opened.map PositionEvent.opened).toList.foldl (event levels) (of e.book) =
        of (e.acted (e.act t sig)).book ∧
      (of e.book).TellsAll levels ((e.act t sig).opened.map PositionEvent.opened).toList := by
  unfold Engine.acted
  rcases e.act_cases t sig with ⟨none, same, -⟩ | ⟨p, -, acts⟩
  · rw [none, same]
    exact ⟨rfl, trivial⟩
  · rw [acts]
    exact ⟨rfl, trivial⟩

/-- An evaluation moves the book and its journal in the same way and tells the moves. -/
theorem events_of {e : Engine} (orderly : e.book.ledger.Orderly) (under : e.book.Under s)
    (t : Tick) :
    (e.evaluate t).1.events.foldl (event s.ladder.size) (of e.book) =
        of (e.evaluate t).2.book ∧
      (of e.book).TellsAll s.ladder.size (e.evaluate t).1.events := by
  have entered := e.moves_enter t
  have taken := Book.take_eq_closeEach (entered.orderly orderly) t.candle
  obtain ⟨closed, toldClosed⟩ := closeEach_of t.candle.timestamp
    ((e.enter t).book.ledger.exits t.candle) (entered.under under)
  rw [← taken, of_enter] at closed toldClosed
  obtain ⟨opened, toldOpened⟩ := acted_of s.ladder.size (e.settled t) t (e.signalOn t)
  have events : (e.evaluate t).1.events =
      ((e.enter t).book.take t.candle).1.map PositionEvent.closed ++
        (((e.settled t).act t (e.signalOn t)).opened.map PositionEvent.opened).toList := rfl
  have settled : of ((e.enter t).book.take t.candle).2 = of (e.settled t).book := rfl
  rw [events, tellsAll_append, List.foldl_append, closed, settled]
  exact ⟨opened, toldClosed, toldOpened⟩

/-- **A call moves the book and its journal in the same way.** The reply tells the moves. -/
theorem reply_of {e : Engine} (orderly : e.book.ledger.Orderly) (under : e.book.Under s)
    (c : Call) :
    (of e.book).reply s.ladder.size (c, (e.call c).1) = of (e.call c).2.book ∧
      (of e.book).TellsIn s.ladder.size (e.call c).1 := by
  cases c with
  | tick t commands =>
    have obeyed := e.moves_obey commands
    cases screened : t.screen (e.obey commands).2.latest with
    | some rejection =>
      rw [Engine.call, Engine.tick_of_rejected screened]
      exact ⟨outcomes_of e commands, trivial⟩
    | none =>
      have evaluated := events_of (obeyed.orderly orderly) (obeyed.under under) t
      rw [← outcomes_of] at evaluated
      rw [Engine.call, Engine.tick_of_passed screened]
      exact evaluated
  | command c =>
    refine ⟨?_, trivial⟩
    rw [Engine.call, Engine.command, Engine.after]
    cases applied : e.apply c with
    | error refusal => rfl
    | ok r => exact obey_of applied
  | close id price closedAt =>
    rw [Engine.call, Engine.afterClose, Engine.close]
    cases done : e.book.close id price closedAt with
    | error error => exact ⟨rfl, trivial⟩
    | ok r => exact close_of under done
  | forget => exact ⟨rfl, trivial⟩

theorem ofLog_run {e : Engine} (orderly : e.book.ledger.Orderly) (under : e.book.Under s)
    (calls : List Call) :
    (e.run calls).1.foldl (reply s.ladder.size) (of e.book) = of (e.run calls).2.book := by
  induction calls generalizing e with
  | nil => rfl
  | cons c cs ih =>
    have moved := Engine.moves_call orderly c
    rw [Engine.run, List.foldl_cons, (reply_of orderly under c).1]
    exact ih (moved.orderly orderly) (moved.under under)

theorem agrees_of {e : Engine} (orderly : e.book.ledger.Orderly) : (of e.book).Agrees e.snapshot :=
  ⟨rfl, rfl, rfl, rfl, orderly.ascending⟩

end Simulation

end Journal

/-- **The replies of an engine tell all of its ladder and positions.** Whatever was called since
the engine was built, the snapshot shows the journal of the log. In the reply to every next call
each close tells the move of the journal's level, and the snapshot of a report shows the journal
of the log with that report. -/
theorem journal_of_log {s : Settings} {e : Engine} (built : Engine.new s = .ok e)
    (calls : List Call) :
    (Journal.ofLog s.ladder.size (e.run calls).1).Agrees (e.run calls).2.snapshot ∧
    ∀ c, (Journal.ofLog s.ladder.size (e.run calls).1).TellsIn s.ladder.size
        ((e.run calls).2.call c).1 ∧
      ∀ r, ((e.run calls).2.call c).1 = .report r →
        (Journal.ofLog s.ladder.size (e.run (calls ++ [c])).1).Agrees r.snapshot := by
  obtain ⟨-, rfl⟩ := Engine.new_eq_ok.mp built
  have reached (calls : List Call) : Engine.Reached s ((Engine.fresh s).run calls).2 :=
    ⟨_, calls, built, rfl⟩
  have journal (calls : List Call) : Journal.ofLog s.ladder.size ((Engine.fresh s).run calls).1 =
      Journal.of ((Engine.fresh s).run calls).2.book :=
    Journal.ofLog_run (Engine.orderly_fresh s) (Engine.under_fresh s) calls
  have agrees (calls : List Call) :
      (Journal.ofLog s.ladder.size ((Engine.fresh s).run calls).1).Agrees
        ((Engine.fresh s).run calls).2.snapshot := by
    rw [journal]
    exact Journal.agrees_of (reached calls).orderly
  refine ⟨agrees calls, fun c => ⟨?_, fun r told => ?_⟩⟩
  · rw [journal]
    exact (Journal.reply_of (reached calls).orderly (reached calls).under c).2
  · have shown : ((Engine.fresh s).run (calls ++ [c])).2.snapshot = r.snapshot := by
      rw [Engine.run_append]
      exact (Engine.snapshot_of_report told).symm
    rw [← shown]
    exact agrees (calls ++ [c])

/-- A skip, an entry, its stop and a pause. -/
def skippingCalls : List Call :=
  fallingCalls ++ [.command (.skipToLevel 2), .tick (flatTick turningCandle) [],
    .tick (flatTick (hourly 4 110.0 110.2 108.5 108.8)) [.pause]]

theorem journal_of_log_skipping :
    Engine.new turningSettings = .ok (.fresh turningSettings) ∧
    (Journal.ofLog 3 ((Engine.fresh turningSettings).run skippingCalls).1).Agrees
      ((Engine.fresh turningSettings).run skippingCalls).2.snapshot ∧
    Journal.ofLog 3 ((Engine.fresh turningSettings).run skippingCalls).1 = ⟨2, none, true, []⟩ :=
  ⟨new_turningSettings, (journal_of_log new_turningSettings skippingCalls).1, by decide +kernel⟩

end TrendLadder
