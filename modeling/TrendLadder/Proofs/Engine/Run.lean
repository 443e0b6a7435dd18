import Mathlib.Data.List.Induction
import TrendLadder.Engine.Basic
import TrendLadder.Proofs.Ledger.Moves

/-!
# Runs of an engine

A host makes `Call`s of an engine in any order, and each one gets a `Reply`. Whatever is called, the
book of the engine changes by moves (`Engine.moves_call`), so that a fact that holds of the book of
a new engine and is kept by every move holds in every state that the engine reaches
(`Engine.Reached.moves`). Facts about the log as well are proved call by call
(`Engine.run_induct`).
-/

namespace TrendLadder

/-- What a host asks of an engine. -/
inductive Call where
  | tick (t : Tick) (commands : List Command)
  | command (c : Command)
  | close (id : PositionId) (price : Float) (closedAt : Timestamp)
  | forget

/-- What the host gets back. -/
inductive Reply where
  | report (r : TickReport)
  /-- Whether a command changed anything, or why it was refused. -/
  | obeyed (changed : Except CommandError Bool)
  | closed (result : Except LedgerError ClosedPosition)
  | done

theorem Tick.isSane_of_screen {t : Tick} {latest : Option Timestamp}
    (passed : t.screen latest = none) : t.account.isSane = true := by
  obtain ⟨-, -, account, -⟩ := screen_eq_none.mp passed
  exact account

namespace Engine

/-! ## A new engine -/

/-- The engine of settings before the first call. -/
def fresh (s : Settings) : Engine where
  settings := s
  fingerprint := s.fingerprint
  indicators := .start s (.start s.trend)
  pattern := ⟨s.pattern⟩
  book := ⟨.start s.ladder, .new s.risk, .new s.positions⟩
  account := none
  latest := none
  ignoresAlert := false

theorem orderly_fresh (s : Settings) : (fresh s).book.ledger.Orderly :=
  Ledger.orderly_new s.positions

theorem under_fresh (s : Settings) : (fresh s).book.Under s := ⟨rfl, rfl, rfl⟩

theorem validate_eq_error {s : Settings} (h : s.faults ≠ []) : ∃ e, s.validate = .error e := by
  obtain ⟨e, es, hf⟩ := List.exists_cons_of_ne_nil h
  exact ⟨e, by rw [Settings.validate, hf, firstFault]⟩

/-- The parts of an engine ask for the conditions on their own settings once more. -/
theorem parts_of_faults {s : Settings} (h : s.faults = []) :
    TrendDetector.new s.trend = .ok (.start s.trend) ∧
      PatternValidator.new s.pattern = .ok ⟨s.pattern⟩ ∧
      Ladder.new s.ladder = .ok (.start s.ladder) := by
  obtain ⟨trend, pattern, ladder⟩ := Settings.sections_of_faults h
  refine ⟨?_, ?_, ?_⟩
  · rw [TrendDetector.new, TrendSettings.validate, firstFault_eq_ok.mpr trend]
    rfl
  · rw [PatternValidator.new, PatternSettings.validate, firstFault_eq_ok.mpr pattern]
    rfl
  · rw [Ladder.new, LadderSettings.validate, firstFault_eq_ok.mpr ladder]
    rfl

theorem new_of_validate_error {s : Settings} {e : SettingsError} (refused : s.validate = .error e) :
    new s = .error e := by
  rw [new, refused]
  rfl

theorem new_eq_ok {s : Settings} {e : Engine} : new s = .ok e ↔ s.faults = [] ∧ e = fresh s := by
  by_cases hf : s.faults = []
  · obtain ⟨trend, pattern, ladder⟩ := parts_of_faults hf
    have valid : s.validate = .ok () := firstFault_eq_ok.mpr hf
    have built : new s = .ok (fresh s) := by
      rw [new, valid, trend, pattern, ladder]
      rfl
    rw [built, Except.ok.injEq]
    exact ⟨fun h => ⟨hf, h.symm⟩, fun h => h.2.symm⟩
  · obtain ⟨error, he⟩ := validate_eq_error hf
    rw [new_of_validate_error he]
    exact ⟨nofun, fun h => absurd h.1 hf⟩

/-! ## Calls -/

/-- The engine obeys a command that comes by itself. -/
def command (e : Engine) (c : Command) : Except CommandError Bool := (e.apply c).map Prod.fst

/-- The engine after a close, done or refused. -/
def afterClose (e : Engine) (id : PositionId) (price : Float) (closedAt : Timestamp) : Engine :=
  match e.close id price closedAt with
  | .ok (_, next) => next
  | .error _ => e

/-- Answers a call. -/
def call (e : Engine) : Call → Reply × Engine
  | .tick t commands => (.report (e.tick t commands).1, (e.tick t commands).2)
  | .command c => (.obeyed (e.command c), e.after c)
  | .close id price closedAt =>
    (.closed ((e.close id price closedAt).map Prod.fst), e.afterClose id price closedAt)
  | .forget => (.done, e.reinitialize)

/-- Answers calls in turn and keeps the log of them. -/
def run (e : Engine) : List Call → List (Call × Reply) × Engine
  | [] => ([], e)
  | c :: cs =>
    let answered := e.call c
    let others := answered.2.run cs
    ((c, answered.1) :: others.1, others.2)

theorem run_append (e : Engine) (xs ys : List Call) :
    e.run (xs ++ ys) =
      ((e.run xs).1 ++ ((e.run xs).2.run ys).1, ((e.run xs).2.run ys).2) := by
  induction xs generalizing e with
  | nil => rfl
  | cons c xs ih =>
    rw [List.cons_append, run, run]
    dsimp only
    rw [ih]
    rfl

theorem map_fst_run (e : Engine) (calls : List Call) : (e.run calls).1.map Prod.fst = calls := by
  induction calls generalizing e with
  | nil => rfl
  | cons c cs ih => exact congrArg (c :: ·) (ih (e.call c).2)

/-- An entry of the log is the answer of the engine that the calls before it lead to. -/
theorem mem_run {e : Engine} {calls : List Call} {c : Call} {reply : Reply}
    (h : (c, reply) ∈ (e.run calls).1) : ∃ before later, calls = before ++ c :: later ∧
      reply = ((e.run before).2.call c).1 := by
  induction calls generalizing e with
  | nil => cases h
  | cons c2 cs ih =>
    rcases List.mem_cons.mp h with here | there
    · cases here
      exact ⟨[], cs, rfl, rfl⟩
    · obtain ⟨before, later, rfl, replied⟩ := ih there
      exact ⟨c2 :: before, later, rfl, replied⟩

theorem tick_of_rejected {e : Engine} {t : Tick} {commands : List Command}
    {rejection : TickRejection}
    (h : t.screen (e.obey commands).2.latest = some rejection) :
    e.tick t commands = (⟨t.candle.timestamp, (e.obey commands).1, .error rejection,
      (e.obey commands).2.snapshot⟩, (e.obey commands).2) := by
  rw [tick, attempt_of_rejected h]

theorem tick_of_passed {e : Engine} {t : Tick} {commands : List Command}
    (h : t.screen (e.obey commands).2.latest = none) :
    e.tick t commands = (⟨t.candle.timestamp, (e.obey commands).1,
      .ok ((e.obey commands).2.evaluate t).1, ((e.obey commands).2.evaluate t).2.snapshot⟩,
      ((e.obey commands).2.evaluate t).2) := by
  rw [tick, attempt_of_passed h]

theorem rejection?_tick (e : Engine) (t : Tick) (commands : List Command) :
    (e.tick t commands).1.rejection? = t.screen (e.obey commands).2.latest := by
  cases screened : t.screen (e.obey commands).2.latest with
  | some rejection =>
    rw [tick_of_rejected screened]
    rfl
  | none =>
    rw [tick_of_passed screened]
    rfl

theorem snapshot_of_report {e : Engine} {c : Call} {r : TickReport}
    (h : (e.call c).1 = .report r) : r.snapshot = (e.call c).2.snapshot := by
  cases c with
  | tick t commands =>
    cases h
    rfl
  | command c | close id price closedAt | forget => cases h

/-- The engine of some settings that answered some calls. -/
def Reached (s : Settings) (e : Engine) : Prop :=
  ∃ e0 calls, new s = .ok e0 ∧ (e0.run calls).2 = e

/-! ## What calls leave alone -/

/-- A command touches the ladder, the bounds of a golden candle and the order to let a signal
pass, and nothing else. -/
theorem after_eq (e : Engine) (c : Command) : ∃ ladder pattern ignoresAlert,
    e.after c = { e with
      book := { e.book with ladder := ladder }
      pattern := pattern
      ignoresAlert := ignoresAlert } := by
  unfold after
  cases c with
  | pause => exact ⟨e.book.ladder.pause, e.pattern, e.ignoresAlert, rfl⟩
  | resume => exact ⟨e.book.ladder.resume, e.pattern, e.ignoresAlert, rfl⟩
  | skipToLevel level =>
    rw [apply, skipTo]
    cases e.book.ladder.skipTo level with
    | ok ladder => exact ⟨ladder, e.pattern, e.ignoresAlert, rfl⟩
    | error refusal => exact ⟨e.book.ladder, e.pattern, e.ignoresAlert, rfl⟩
  | adjustMinSize size =>
    rw [apply, adjustMinSize]
    cases e.pattern.adjustMinSize size with
    | ok pattern => exact ⟨e.book.ladder, pattern, e.ignoresAlert, rfl⟩
    | error reason => exact ⟨e.book.ladder, e.pattern, e.ignoresAlert, rfl⟩
  | ignoreAlert => exact ⟨e.book.ladder, e.pattern, true, rfl⟩

@[simp] theorem settings_after (e : Engine) (c : Command) : (e.after c).settings = e.settings := by
  obtain ⟨_, _, _, h⟩ := e.after_eq c
  rw [h]

@[simp] theorem indicators_after (e : Engine) (c : Command) :
    (e.after c).indicators = e.indicators := by
  obtain ⟨_, _, _, h⟩ := e.after_eq c
  rw [h]

@[simp] theorem latest_after (e : Engine) (c : Command) : (e.after c).latest = e.latest := by
  obtain ⟨_, _, _, h⟩ := e.after_eq c
  rw [h]

/-- What every command keeps is kept by commands that come together. -/
theorem obey_induct {P : Engine → Prop}
    (command : ∀ {e : Engine} (c : Command), P e → P (e.after c)) {e : Engine} (holds : P e)
    (cs : List Command) : P (e.obey cs).2 := by
  induction cs generalizing e with
  | nil => exact holds
  | cons c cs ih => exact ih (command c holds)

@[simp] theorem latest_obey (e : Engine) (cs : List Command) :
    (e.obey cs).2.latest = e.latest :=
  obey_induct (P := fun x => x.latest = e.latest) (fun c same => (latest_after _ c).trans same)
    rfl cs

/-- A close touches the book and nothing else. -/
theorem afterClose_eq (e : Engine) (id : PositionId) (price : Float) (closedAt : Timestamp) :
    ∃ book, e.afterClose id price closedAt = { e with book := book } := by
  unfold afterClose close
  cases e.book.close id price closedAt with
  | ok r => exact ⟨r.2, rfl⟩
  | error error => exact ⟨e.book, rfl⟩

/-- A fact about an engine that commands, evaluations, closes and forgetting keep. -/
structure Keeps (P : Engine → Prop) : Prop where
  command : ∀ {e : Engine} (c : Command), P e → P (e.after c)
  evaluate : ∀ {e : Engine} {t : Tick}, t.screen e.latest = none → P e → P (e.evaluate t).2
  close : ∀ {e : Engine} (id : PositionId) (price : Float) (closedAt : Timestamp), P e →
    P (e.afterClose id price closedAt)
  forget : ∀ {e : Engine}, P e → P e.reinitialize

namespace Keeps

variable {P : Engine → Prop} {e : Engine}

theorem obey (h : Keeps P) (holds : P e) (cs : List Command) : P (e.obey cs).2 :=
  obey_induct h.command holds cs

theorem call (h : Keeps P) (holds : P e) (c : Call) : P (e.call c).2 := by
  cases c with
  | tick t commands =>
    have obeyed := h.obey holds commands
    cases screened : t.screen (e.obey commands).2.latest with
    | some rejection =>
      rw [Engine.call, tick_of_rejected screened]
      exact obeyed
    | none =>
      rw [Engine.call, tick_of_passed screened]
      exact h.evaluate screened obeyed
  | command c => exact h.command c holds
  | close id price closedAt => exact h.close id price closedAt holds
  | forget => exact h.forget holds

theorem run (h : Keeps P) (holds : P e) (calls : List Call) : P (e.run calls).2 := by
  induction calls generalizing e with
  | nil => exact holds
  | cons c cs ih => exact ih (h.call holds c)

theorem reached (h : Keeps P) {s : Settings} (fresh : P (Engine.fresh s)) (r : Reached s e) :
    P e := by
  obtain ⟨e0, calls, built, rfl⟩ := r
  obtain ⟨-, rfl⟩ := new_eq_ok.mp built
  exact h.run fresh calls

end Keeps

/-! ## What calls do to the book -/

theorem moves_after (e : Engine) (c : Command) : e.book.Moves (e.after c).book := by
  unfold after
  cases c with
  | pause => exact .of_move .pause
  | resume => exact .of_move .resume
  | skipToLevel level =>
    rw [apply, skipTo]
    cases skipped : e.book.ladder.skipTo level with
    | ok ladder => exact .of_move (.skip skipped)
    | error refusal => exact .refl _
  | adjustMinSize size =>
    rw [apply, adjustMinSize]
    cases e.pattern.adjustMinSize size <;> exact .refl _
  | ignoreAlert => exact .refl _

theorem moves_obey (e : Engine) (cs : List Command) : e.book.Moves (e.obey cs).2.book :=
  obey_induct (P := fun x => e.book.Moves x.book) (fun c moved => moved.trans (moves_after _ c))
    (.refl _) cs

theorem moves_enter (e : Engine) (t : Tick) : e.book.Moves (e.enter t).book := by
  have updated (b : Book) : b.Moves { b with gate := b.gate.update t.account } :=
    .of_move (.update t.account)
  unfold enter
  split
  · exact (Book.Moves.of_move (.startDay t.account.balance)).trans (updated _)
  · exact updated _

theorem moves_settle {e : Engine} (h : e.book.ledger.Orderly) (c : Candle) :
    e.book.Moves (e.settle c).2.book := by
  unfold settle
  rw [Book.take_eq_closeEach h]
  exact Book.moves_closeEach _ _ _

/-- The engine of a tick when the account is taken and the positions that exit are closed. -/
def settled (e : Engine) (t : Tick) : Engine := ((e.enter t).settle t.candle).2

theorem moves_settled {e : Engine} (h : e.book.ledger.Orderly) (t : Tick) :
    e.book.Moves (e.settled t).book := by
  have entered := e.moves_enter t
  exact entered.trans (moves_settle (entered.orderly h) t.candle)

/-- The signal of a tick that is evaluated. -/
def signalOn (e : Engine) (t : Tick) : Signal :=
  signalOr t.candle.timestamp (e.evaluate t).1.composed

/-- What is done about the signal of a tick that is evaluated. -/
def actionOn (e : Engine) (t : Tick) : Action := (e.settled t).act t (e.signalOn t)

/-- An action opens one position and tells so, or opens none. -/
theorem act_cases (e : Engine) (t : Tick) (s : Signal) :
    ((e.act t s).opened = none ∧ (e.act t s).ledger = e.book.ledger ∧
      ∀ id, (e.act t s).decision ≠ .opened id) ∨
    ∃ p, e.book.ledger.openFor s e.book.ladder e.book.gate t.account t.quote =
        .ok (p, e.book.ledger.insert p) ∧
      e.act t s = ⟨.opened p.id, some p, e.book.ledger.insert p⟩ := by
  unfold act
  dsimp only
  split
  · exact .inl ⟨rfl, rfl, nofun⟩
  · split
    · exact .inl ⟨rfl, rfl, nofun⟩
    · cases opened : e.book.ledger.openFor s e.book.ladder e.book.gate t.account t.quote with
      | error rejection => exact .inl ⟨rfl, rfl, nofun⟩
      | ok r =>
        obtain ⟨p, ledger⟩ := r
        obtain ⟨direction, -, -, -, -, -, rfl⟩ := Ledger.openFor_eq_ok.mp opened
        exact .inr ⟨p, rfl, rfl⟩

theorem moves_acted (e : Engine) (t : Tick) (s : Signal) :
    e.book.Moves (e.acted (e.act t s)).book := by
  unfold acted
  rcases e.act_cases t s with ⟨-, same, -⟩ | ⟨p, opened, acts⟩
  · rw [same]
    exact .refl _
  · rw [acts]
    exact .of_move (.insert opened)

theorem moves_evaluate {e : Engine} (h : e.book.ledger.Orderly) (t : Tick) :
    e.book.Moves (e.evaluate t).2.book :=
  (moves_settled h t).trans ((e.settled t).moves_acted t (e.signalOn t))

theorem moves_afterClose (e : Engine) (id : PositionId) (price : Float) (closedAt : Timestamp) :
    e.book.Moves (e.afterClose id price closedAt).book := by
  unfold afterClose close
  cases done : e.book.close id price closedAt with
  | ok r => exact .of_move (.close done)
  | error error => exact .refl _

/-- What led from an orderly book by moves goes on by moves, and the book stays orderly. -/
theorem keeps_moves (b : Book) : Keeps fun e => e.book.ledger.Orderly ∧ b.Moves e.book := by
  have goOn {e next : Engine} (moved : e.book.Moves next.book)
      (h : e.book.ledger.Orderly ∧ b.Moves e.book) :
      next.book.ledger.Orderly ∧ b.Moves next.book := ⟨moved.orderly h.1, h.2.trans moved⟩
  constructor
  case command => exact fun c => goOn (moves_after _ c)
  case evaluate => exact fun _ h => goOn (moves_evaluate h.1 _) h
  case close => exact fun id price closedAt => goOn (moves_afterClose _ id price closedAt)
  case forget => exact fun h => h

/-- **A call changes the book by moves only.** -/
theorem moves_call {e : Engine} (h : e.book.ledger.Orderly) (c : Call) :
    e.book.Moves (e.call c).2.book :=
  ((keeps_moves e.book).call ⟨h, .refl _⟩ c).2

theorem moves_run {e : Engine} (h : e.book.ledger.Orderly) (calls : List Call) :
    e.book.Moves (e.run calls).2.book :=
  ((keeps_moves e.book).run ⟨h, .refl _⟩ calls).2

namespace Reached

variable {s : Settings} {e : Engine}

theorem call (h : Reached s e) (c : Call) : Reached s (e.call c).2 := by
  obtain ⟨e0, calls, built, rfl⟩ := h
  exact ⟨e0, calls ++ [c], built, by rw [run_append]; rfl⟩

theorem moves (h : Reached s e) : (fresh s).book.Moves e.book :=
  ((keeps_moves _).reached ⟨orderly_fresh s, .refl _⟩ h).2

theorem orderly (h : Reached s e) : e.book.ledger.Orderly :=
  h.moves.orderly (orderly_fresh s)

theorem under (h : Reached s e) : e.book.Under s := h.moves.under (under_fresh s)

theorem faults_eq_nil (h : Reached s e) : s.faults = [] := by
  obtain ⟨e0, calls, built, -⟩ := h
  exact (new_eq_ok.mp built).1

/-- A logged report is the one of an engine that is reached by the calls before. -/
theorem of_mem_run (built : new s = .ok e) {calls : List Call} {t : Tick}
    {commands : List Command} {r : TickReport}
    (logged : (.tick t commands, .report r) ∈ (e.run calls).1) :
    ∃ before, Reached s (e.run before).2 ∧ r = ((e.run before).2.tick t commands).1 := by
  obtain ⟨before, later, -, replied⟩ := mem_run logged
  exact ⟨before, ⟨e, before, built, rfl⟩, Reply.report.inj replied⟩

end Reached

/-- A fact about a log and the engine that it leads to holds of every run of a new engine if every
further call of an engine that is reached keeps it. -/
theorem run_induct {P : List (Call × Reply) → Engine → Prop} {s : Settings} {e0 : Engine}
    (built : new s = .ok e0) (start : P [] e0)
    (step : ∀ {log : List (Call × Reply)} {e : Engine} (c : Call), Reached s e → P log e →
      P (log ++ [(c, (e.call c).1)]) (e.call c).2) (calls : List Call) :
    P (e0.run calls).1 (e0.run calls).2 := by
  induction calls using List.reverseRecOn with
  | nil => exact start
  | append_singleton calls c ih =>
    rw [run_append]
    exact step c ⟨e0, calls, built, rfl⟩ ih

end Engine

/-! ## A run -/

/-- Settings under which the turn of a falling market is a signal. -/
def turningSettings : Settings :=
  { Settings.standard with
    trend := ⟨0.02, 0.2⟩
    crossover := ⟨⟨1, 0, .simple⟩, ⟨3, 0, .simple⟩⟩
    pattern := ⟨0.5, none, .minimum 0.5⟩
    pricing := ⟨0.0, 100.0⟩
    ladder := ⟨[0.01, 0.02, 0.04], [2.0, 3.0, 4.0]⟩ }

/-- A candle of an hour after 2024-03-04T00:00:00Z. -/
def hourly (hour : Nat) (opening high low closing : Float) : Candle where
  timestamp := ⟨1709510400 + 3600 * hour, 0⟩
  opening := opening
  high := high
  low := low
  closing := closing
  tickVolume := 500
  spread := 10

/-- A falling market. -/
def fallingCandles : List Candle :=
  [hourly 0 110.0 110.5 104.5 105.0, hourly 1 105.0 105.2 103.8 104.0,
    hourly 2 104.0 104.2 102.8 103.0]

/-- A candle that turns it. -/
def turningCandle : Candle := hourly 3 103.0 110.5 102.9 110.0

/-- The tick of a candle for an account without open exposure. -/
def flatTick (c : Candle) : Tick := ⟨c, .flat 10000.0, .ofClosing c.closing 0.01 c.spread, false⟩

/-- The ticks of the falling market. -/
def fallingCalls : List Call := fallingCandles.map fun c => .tick (flatTick c) []

/-- A tick that repeats the last one of the falling market. -/
def repeatedTick : Tick := flatTick (hourly 2 104.0 104.2 102.8 103.0)

/-- The engine after the falling market. -/
def fallenEngine : Engine := ((Engine.fresh turningSettings).run fallingCalls).2

theorem new_turningSettings : Engine.new turningSettings = .ok (.fresh turningSettings) :=
  Engine.new_eq_ok.mpr ⟨by decide +kernel, rfl⟩

end TrendLadder
