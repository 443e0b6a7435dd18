import TrendLadder.Proofs.Engine.Baseline
import TrendLadder.Proofs.Engine.Entry
import TrendLadder.Proofs.RiskGate.Checks

/-!
# The risk figures of a run

What the snapshots of a run say about the drawdown, the peak and the day. `coherentRisk_run` says
that after any calls of a new engine these figures fit each other.

1. The worst drawdown and the greatest balance only grow, whatever happens to a book
   (`Book.Moves.reaches`). Both stay numbers, because `maxNum` passes over a NaN.
2. The drawdown of a snapshot is taken anew from the account of the latest evaluated tick, and the
   worst one was taken when that tick came. The peak in between is the same, since a close touches
   only the profits of the gate (`gate_settle`), so the first is not above the second
   (`Engine.Measures`).
3. A tick that starts a day sets the start of the day to its own balance before the limits are
   checked, so its daily profit and its daily loss are exactly zero.
-/

namespace TrendLadder

/-! ## What only grows -/

namespace RiskGate

variable {g : RiskGate} {a : Account} {worst peak : Float}

/-- The worst drawdown and the greatest balance have come to some values. -/
def Reaches (g : RiskGate) (worst peak : Float) : Prop :=
  worst ≤ g.worstDrawdown ∧ peak ≤ g.peakBalance

theorem Reaches.update (h : g.Reaches worst peak) (a : Account) :
    (g.update a).Reaches worst peak := by
  by_cases sane : a.isSane = true
  · constructor
    · rw [worstDrawdown_update sane]
      exact float_le_trans h.1 (le_maxNum_left (not_isNaN_of_le h.1).2)
    · rw [peakBalance_update sane]
      exact float_le_trans h.2 (le_maxNum_left (not_isNaN_of_le h.2).2)
  · rwa [RiskGate.update, if_neg sane]

theorem Reaches.startDay (h : g.Reaches worst peak) (balance : Float) :
    (g.startDay balance).Reaches worst peak := by
  unfold RiskGate.startDay
  split <;> exact h

theorem Reaches.le_peak (h : g.Reaches worst peak) : peak ≤ g.peak :=
  float_le_trans h.2 (le_maxNum_left (not_isNaN_of_le h.2).2)

end RiskGate

namespace Book

theorem Move.reaches {b next : Book} {worst peak : Float} (m : b.Move next)
    (h : b.gate.Reaches worst peak) : next.gate.Reaches worst peak := by
  cases m with
  | pause | resume | skip | insert => exact h
  | startDay balance => exact h.startDay balance
  | update a => exact h.update a
  | close done =>
    obtain ⟨p, -, -, rfl⟩ := close_eq_ok_iff.mp done
    exact h

theorem Moves.reaches {b next : Book} {worst peak : Float} (h : b.Moves next) :
    b.gate.Reaches worst peak → next.gate.Reaches worst peak :=
  h.induct Move.reaches

end Book

/-! ## The start of a day -/

namespace RiskGate

variable {g : RiskGate} {a : Account}

theorem dailyProfit_of_start (sane : a.isSane = true)
    (start : g.dailyStartBalance = some a.balance) : g.dailyProfit a.balance = 0.0 := by
  have positive := Account.isPositive_balance sane
  rw [dailyProfit, start]
  exact float_sub_self (isFinite_of_isPositive positive)

theorem dailyLossPct_of_start (sane : a.isSane = true)
    (start : g.dailyStartBalance = some a.balance) : g.dailyLossPct a.balance = 0.0 := by
  have positive := Account.isPositive_balance sane
  rw [dailyLossPct, start]
  dsimp only
  rw [if_pos (lt_of_isPositive positive), float_sub_self (isFinite_of_isPositive positive),
    float_zero_div (lt_of_isPositive positive)]
  decide +kernel

end RiskGate

theorem RiskSettings.zero_le_maxDailyLossPct {s : RiskSettings} (h : s.faults = []) :
    0.0 ≤ s.maxDailyLossPct := by
  simp only [faults, List.append_eq_nil_iff] at h
  have limit : isNonNegative s.maxDailyLossPct = true := faultUnless_eq_nil.mp h.1.2
  exact of_decide_eq_true (Bool.and_eq_true_iff.mp limit).2

namespace Engine

variable {s : Settings} {e : Engine} {t : Tick}

theorem dailyStart_of_newDay (orderly : e.book.ledger.Orderly) (sane : t.account.isSane = true)
    (starts : t.newDay = true) :
    (e.settled t).book.gate.dailyStartBalance = some t.account.balance := by
  have seeded : (e.book.gate.startDay t.account.balance).IsSeeded := by
    rw [RiskGate.startDay, if_pos (Account.isPositive_balance sane)]
    rfl
  have entered : (e.enter t).book.gate.dailyStartBalance = some t.account.balance := by
    unfold enter
    dsimp only
    rw [if_pos starts, seeded.dailyStart_update, RiskGate.dailyStart_startDay sane]
  rw [← entered]
  exact dailyStart_settle ((e.moves_enter t).orderly orderly) t.candle

theorem breaches_of_blocked {sig : Signal} {v : RiskViolation}
    (blocked : (e.act t sig).decision = .blocked (.risk v)) :
    v.breaches = e.book.gate.breaches t.account t.quote e.book.ladder.paused := by
  rcases e.act_tried t sig with ⟨-, acts⟩ | ⟨-, -, acts⟩ |
    ⟨-, -, ⟨rejection, refused, acts⟩ | ⟨p, ledger, acts⟩⟩ <;> rw [acts] at blocked
  case inr.inr.inl =>
    rw [Decision.blocked.inj blocked] at refused
    exact Ledger.breaches_of_openFor refused
  all_goals cases blocked

theorem dayStart_evaluate (orderly : e.book.ledger.Orderly) (under : e.book.Under s)
    (valid : s.faults = []) (sane : t.account.isSane = true) (starts : t.newDay = true) :
    (e.evaluate t).2.snapshot.dailyProfit = 0.0 ∧
    ∀ v, (e.evaluate t).1.decision = .blocked (.risk v) →
      ∀ lossPct max, .dailyLoss lossPct max ∉ v.breaches := by
  have start := dailyStart_of_newDay orderly sane starts
  refine ⟨RiskGate.dailyProfit_of_start sane start, fun v blocked lossPct max reported => ?_⟩
  rw [breaches_of_blocked (e := e.settled t) blocked] at reported
  have above := RiskGate.lt_of_dailyLoss reported
  have limits : (e.settled t).book.gate.limits = s.risk :=
    ((moves_settled orderly t).under under).limits
  rw [limits, RiskGate.dailyLossPct_of_start sane start] at above
  exact float_not_le_of_lt above
    (RiskSettings.zero_le_maxDailyLossPct (Settings.limits_of_faults valid).1)

/-! ## The drawdown of the latest account -/

/-- The drawdown of the account of the latest evaluated tick is not above the worst one. -/
def Measures (e : Engine) : Prop :=
  ∀ a, e.account = some a → e.book.gate.drawdown a.equity ≤ e.book.gate.worstDrawdown

theorem measures_evaluate (orderly : e.book.ledger.Orderly) (sane : t.account.isSane = true) :
    (e.evaluate t).2.Measures := by
  intro a latest
  have latest : some t.account = some a := latest
  obtain rfl := Option.some.inj latest
  obtain ⟨profits, same⟩ := gate_settle ((e.moves_enter t).orderly orderly) t.candle
  have gate : (e.evaluate t).2.book.gate = { (e.enter t).book.gate with profits := profits } := same
  rw [gate]
  show (e.enter t).book.gate.drawdown _ ≤ (e.enter t).book.gate.worstDrawdown
  rw [enter, RiskGate.worstDrawdown_update sane]
  exact le_maxNum_right (not_isNaN_of_le (RiskGate.zero_le_drawdown _ _)).2

theorem keeps_measures : Keeps fun e => e.book.ledger.Orderly ∧ e.Measures := by
  constructor
  case command =>
    rintro e c ⟨orderly, measures⟩
    refine ⟨(e.moves_after c).orderly orderly, ?_⟩
    obtain ⟨ladder, pattern, ignores, after⟩ := e.after_eq c
    rw [after]
    exact measures
  case evaluate =>
    rintro e t passed ⟨orderly, -⟩
    exact ⟨(moves_evaluate orderly t).orderly orderly,
      measures_evaluate orderly (Tick.isSane_of_screen passed)⟩
  case close =>
    rintro e id price closedAt ⟨orderly, measures⟩
    refine ⟨(e.moves_afterClose id price closedAt).orderly orderly, ?_⟩
    unfold afterClose close
    cases done : e.book.close id price closedAt with
    | error error => exact measures
    | ok r =>
      obtain ⟨p, -, -, next⟩ := Book.close_eq_ok_iff.mp done
      dsimp only [Except.map]
      rw [next]
      exact measures
  case forget => exact fun h => h

namespace Reached

theorem measures (h : Reached s e) : e.Measures :=
  (keeps_measures.reached ⟨orderly_fresh s, nofun⟩ h).2

theorem reaches_zero (h : Reached s e) : e.book.gate.Reaches 0.0 0.0 := by
  have zero : (0.0 : Float) ≤ 0.0 := float_le_refl (by decide +kernel)
  exact h.moves.reaches ⟨zero, zero⟩

theorem drawdown_le (h : Reached s e) :
    0.0 ≤ e.snapshot.drawdown ∧ e.snapshot.drawdown ≤ e.snapshot.worstDrawdown := by
  unfold snapshot
  dsimp only
  cases latest : e.account with
  | none => exact ⟨float_le_refl (by decide +kernel), h.reaches_zero.1⟩
  | some a => exact ⟨e.book.gate.zero_le_drawdown a.equity, h.measures a latest⟩

theorem worstDrawdown_le_run (h : Reached s e) (calls : List Call) :
    e.snapshot.worstDrawdown ≤ (e.run calls).2.snapshot.worstDrawdown := by
  have worst := float_le_refl (not_isNaN_of_le h.reaches_zero.1).2
  have moved : (e.run calls).2.book.gate.Reaches e.book.gate.worstDrawdown 0.0 :=
    (moves_run h.orderly calls).reaches ⟨worst, h.reaches_zero.2⟩
  exact moved.1

end Reached

theorem reaches_evaluate (orderly : e.book.ledger.Orderly) (h : e.book.gate.Reaches 0.0 0.0)
    (sane : t.account.isSane = true) :
    (e.evaluate t).2.book.gate.Reaches 0.0 t.account.balance := by
  have number : ¬t.account.balance.isNaN = true :=
    not_isNaN_of_isFinite (isFinite_of_isPositive (Account.isPositive_balance sane))
  have entered : (e.enter t).book.gate.Reaches 0.0 t.account.balance := by
    constructor
    · exact ((e.moves_enter t).reaches h).1
    · rw [enter, RiskGate.peakBalance_update sane]
      exact le_maxNum_right number
  have settled : (e.enter t).book.Moves (e.settled t).book :=
    moves_settle ((e.moves_enter t).orderly orderly) t.candle
  exact (settled.trans ((e.settled t).moves_acted t (e.signalOn t))).reaches entered

end Engine

/-! ## The snapshots of a run -/

/-- The snapshot that a reply shows. -/
def Reply.snapshot? : Reply → Option Snapshot
  | .report r => some r.snapshot
  | .obeyed _ => none
  | .closed _ => none
  | .done => none

namespace Engine

variable {s : Settings} {e : Engine}

/-- The snapshots after each of some calls. -/
def shown (e : Engine) : List Call → List Snapshot
  | [] => []
  | c :: cs => (e.call c).2.snapshot :: (e.call c).2.shown cs

theorem mem_shown {calls : List Call} {x : Snapshot} (h : x ∈ e.shown calls) :
    ∃ before, x = (e.run before).2.snapshot := by
  induction calls generalizing e with
  | nil => cases h
  | cons c cs ih =>
    rcases List.mem_cons.mp h with rfl | there
    · exact ⟨[c], rfl⟩
    · obtain ⟨before, shows⟩ := ih there
      exact ⟨c :: before, shows⟩

theorem Reached.pairwise_shown (h : Reached s e) (calls : List Call) :
    (e.snapshot :: e.shown calls).Pairwise fun x later =>
      x.worstDrawdown ≤ later.worstDrawdown := by
  induction calls generalizing e with
  | nil => exact List.pairwise_singleton _ _
  | cons c cs ih =>
    refine List.pairwise_cons.mpr ⟨fun x hx => ?_, ih (h.call c)⟩
    obtain ⟨before, rfl⟩ := mem_shown hx
    exact h.worstDrawdown_le_run before

theorem sublist_shown (e : Engine) (calls : List Call) :
    ((e.run calls).1.filterMap fun x => x.2.snapshot?).Sublist (e.shown calls) := by
  induction calls generalizing e with
  | nil => exact .slnil
  | cons c cs ih =>
    rw [run, shown]
    dsimp only
    cases replied : (e.call c).1 with
    | report r =>
      rw [← snapshot_of_report replied]
      exact (ih _).cons_cons _
    | obeyed | closed | done => exact (ih _).cons _

/-- The risk figures of a run fit each other. -/
structure CoherentRisk (e0 : Engine) (calls : List Call) : Prop where
  /-- The reports show some of the snapshots, in their order. -/
  reported : ((e0.run calls).1.filterMap fun x => x.2.snapshot?).Sublist (e0.shown calls)
  drawdown : ∀ x ∈ e0.snapshot :: e0.shown calls,
    0.0 ≤ x.drawdown ∧ x.drawdown ≤ x.worstDrawdown
  worst : (e0.snapshot :: e0.shown calls).Pairwise fun x later =>
    x.worstDrawdown ≤ later.worstDrawdown
  peak : ∀ t commands r, (.tick t commands, .report r) ∈ (e0.run calls).1 →
    r.rejection? = none → t.account.balance ≤ (e0.run calls).2.book.gate.peak
  dayStart : ∀ t commands r, (.tick t commands, .report r) ∈ (e0.run calls).1 →
    r.rejection? = none → t.newDay = true → r.snapshot.dailyProfit = 0.0 ∧
      ∀ v, r.decision = .blocked (.risk v) → ∀ lossPct max, .dailyLoss lossPct max ∉ v.breaches

/-- **The risk figures are coherent over whole runs.** In every snapshot of a run of a new engine
the drawdown is between zero and the worst drawdown, which never gets less; the peak is not below
any balance that was taken; and a tick that starts a day shows no profit of that day and is not
refused for a loss of it. -/
theorem coherentRisk_run {e0 : Engine} (built : new s = .ok e0) (calls : List Call) :
    CoherentRisk e0 calls := by
  have reached (before : List Call) : Reached s (e0.run before).2 := ⟨e0, before, built, rfl⟩
  constructor
  case reported => exact e0.sublist_shown calls
  case drawdown =>
    intro x hx
    rcases List.mem_cons.mp hx with rfl | later
    · exact (reached []).drawdown_le
    · obtain ⟨before, rfl⟩ := mem_shown later
      exact (reached before).drawdown_le
  case worst => exact (reached []).pairwise_shown calls
  case peak =>
    intro t commands r told accepted
    obtain ⟨before, later, rfl, replied⟩ := mem_run told
    obtain rfl : r = ((e0.run before).2.tick t commands).1 := Reply.report.inj replied
    have obeyed := (e0.run before).2.moves_obey commands
    have orderly := obeyed.orderly (reached before).orderly
    rw [rejection?_tick] at accepted
    have evaluated := reaches_evaluate orderly (obeyed.reaches (reached before).reaches_zero)
      (Tick.isSane_of_screen accepted)
    have moved := moves_run ((moves_evaluate orderly t).orderly orderly) later
    rw [run_append, run, call, tick_of_passed accepted]
    exact (moved.reaches evaluated).le_peak
  case dayStart =>
    intro t commands r told accepted starts
    obtain ⟨before, later, -, replied⟩ := mem_run told
    obtain rfl : r = ((e0.run before).2.tick t commands).1 := Reply.report.inj replied
    have obeyed := (e0.run before).2.moves_obey commands
    rw [rejection?_tick] at accepted
    rw [tick_of_passed accepted]
    exact dayStart_evaluate (obeyed.orderly (reached before).orderly)
      (obeyed.under (reached before).under) (reached before).faults_eq_nil
      (Tick.isSane_of_screen accepted) starts

/-- A tick that starts a day after a tenth of the balance is lost. -/
def costlyTick : Tick :=
  { flatTick (hourly 3 103.0 103.2 101.8 102.0) with
    account := ⟨9000.0, 8000.0, 0.0⟩, newDay := true }

/-- The loss counts for the drawdown and not for the day. -/
theorem coherentRisk_run_costly :
    new turningSettings = .ok (fresh turningSettings) ∧
    (fallenEngine.tick costlyTick []).1.rejection? = none ∧
    (fallenEngine.tick costlyTick []).1.snapshot.dailyProfit = 0.0 ∧
    (fallenEngine.tick costlyTick []).1.snapshot.worstDrawdown = 20.0 := by
  have accepted : (fallenEngine.tick costlyTick []).1.rejection? = none := by decide +kernel
  have told : (.tick costlyTick [], .report (fallenEngine.tick costlyTick []).1) ∈
      ((fresh turningSettings).run (fallingCalls ++ [.tick costlyTick []])).1 := by
    rw [run_append]
    exact List.mem_append_right _ List.mem_cons_self
  have coherent := coherentRisk_run new_turningSettings (fallingCalls ++ [.tick costlyTick []])
  exact ⟨new_turningSettings, accepted, (coherent.dayStart _ _ _ told accepted rfl).1,
    by decide +kernel⟩

end Engine

end TrendLadder
