import TrendLadder.Proofs.Engine.Opening
import TrendLadder.Proofs.Signal.Levels

/-!
# The sides of open positions

Where the stop and the target of an open position are, and what an exit there gains. `sides_run`
says of every open position of a run which logged tick has opened it and that its levels are on
their sides, unless the open price is infinite or a level is rounded to it (`Position.KeepsSides`).

1. What is open after a call was open before it or is told opened by it (`mem_openPositions_call`),
   so every open position has a report that tells it (`opened_run`). Nothing changes the levels of
   a position in between.
2. The factors of both distances are positive at that tick: the stop distance of valid settings,
   the point of a quote that passes the screen (`Tick.isPositive_point`), and the entry of the
   table of ratios (`Reached.isPositive_rewardRatio`). Their products may still be rounded away.
-/

namespace TrendLadder

/-! ## Positions -/

namespace Position

/-- The levels between which a position is held. -/
def levels (p : Position) : PriceLevels := ⟨p.openPrice, p.stopLoss, p.takeProfit⟩

/-- The stop is on the losing side of the open price and the target on the winning one. -/
def HasSides (p : Position) : Prop :=
  (p.direction = .buy → p.stopLoss < p.openPrice ∧ p.openPrice < p.takeProfit) ∧
    (p.direction = .sell → p.takeProfit < p.openPrice ∧ p.openPrice < p.stopLoss)

instance (p : Position) : Decidable p.HasSides := inferInstanceAs (Decidable (_ ∧ _))

variable {p : Position} {distance ratio : Float}

theorem hasSides_iff_levels : p.HasSides ↔ p.levels.HasSides p.direction := by
  unfold HasSides PriceLevels.HasSides levels
  cases p.direction <;> simp [Direction.Beyond, and_comm]

theorem not_zero_lt_profitAt {price : Float} (behind : ¬p.direction.Beyond p.openPrice price)
    (lots : 0.0 < p.lots) : ¬0.0 < p.profitAt price := by
  rw [profitAt, ← float_neg_lt_zero, ← float_neg_mul]
  refine float_mul_not_lt_zero ?_ (float_lt_asymm lots)
  rw [float_neg_lt_zero, Direction.zero_lt_mul_sign_iff]
  exact behind

theorem not_profitAt_lt_zero {price : Float} (ahead : ¬p.direction.Beyond price p.openPrice)
    (lots : 0.0 < p.lots) : ¬p.profitAt price < 0.0 := by
  refine float_mul_not_lt_zero ?_ (float_lt_asymm lots)
  rw [Direction.mul_sign_lt_zero_iff]
  exact ahead

/-- The stop and the target of a position lie a distance and a multiple of it from the open price,
and are on their sides unless that is infinite or a distance is rounded away. -/
structure KeepsSides (p : Position) (distance ratio : Float) : Prop where
  spans : p.levels.Spans p.direction distance ratio
  stopLoss : ¬p.direction.Beyond p.openPrice p.stopLoss
  takeProfit : ¬p.direction.Beyond p.takeProfit p.openPrice
  hasSides_iff : p.HasSides ↔ p.openPrice.isFinite = true ∧
    (p.stopLoss == p.openPrice) = false ∧ (p.takeProfit == p.openPrice) = false
  hasSides : p.openPrice.isFinite = true → Clears distance p.openPrice →
    Clears ((p.openPrice - p.stopLoss).abs * ratio) p.openPrice → p.HasSides
  /-- On their sides the stop is a losing price and the target a winning one. -/
  prices : p.HasSides → (p.stopLoss - p.openPrice) * p.direction.sign < 0.0 ∧
    0.0 < (p.takeProfit - p.openPrice) * p.direction.sign
  stopExit : ¬0.0 < p.profitAt p.stopLoss
  targetExit : ¬p.profitAt p.takeProfit < 0.0

theorem KeepsSides.of_spans (spans : p.levels.Spans p.direction distance ratio)
    (nonneg : ¬distance < 0.0) (number : ¬distance.isNaN = true)
    (positive : isPositive ratio = true) (lots : 0.0 < p.lots) : p.KeepsSides distance ratio := by
  have stop : ¬p.direction.Beyond p.openPrice p.stopLoss := spans.not_beyond_stopLoss nonneg
  have target : ¬p.direction.Beyond p.takeProfit p.openPrice :=
    spans.not_beyond_takeProfit (lt_of_isPositive positive)
  constructor
  case spans => exact spans
  case stopLoss => exact stop
  case takeProfit => exact target
  case hasSides_iff =>
    exact hasSides_iff_levels.trans (spans.hasSides_iff nonneg number positive)
  case hasSides =>
    intro finite stop target
    exact hasSides_iff_levels.mpr (spans.hasSides finite stop target)
  case prices =>
    intro sides
    obtain ⟨stop, target⟩ := hasSides_iff_levels.mp sides
    exact ⟨Direction.mul_sign_lt_zero_iff.mpr stop, Direction.zero_lt_mul_sign_iff.mpr target⟩
  case stopExit => exact not_zero_lt_profitAt stop lots
  case targetExit => exact not_profitAt_lt_zero target lots

end Position

/-! ## Positive factors -/

/-- The point of a quote that passes the screen is positive. -/
theorem Tick.isPositive_point {t : Tick} {latest : Option Timestamp}
    (passed : t.screen latest = none) : isPositive t.quote.point = true := by
  obtain ⟨-, -, -, sane⟩ := screen_eq_none.mp passed
  unfold Quote.isSane at sane
  simp only [Bool.and_eq_true] at sane
  exact Bool.and_eq_true_iff.mpr ⟨sane.1.2, sane.2⟩

theorem Book.Move.rewardRatios {b next : Book} (m : b.Move next) :
    next.ladder.rewardRatios = b.ladder.rewardRatios := by
  cases m with
  | pause | resume | startDay | update => rfl
  | skip skipped =>
    obtain ⟨-, -, rfl⟩ := Ladder.skipTo_eq_ok.mp skipped
    rfl
  | close done =>
    obtain ⟨p, -, -, rfl⟩ := close_eq_ok_iff.mp done
    exact Ladder.rewardRatios_applyOutcome _ _
  | insert opened =>
    obtain ⟨direction, -, -, -, -, -, rfl⟩ := Ledger.openFor_eq_ok.mp opened
    rfl

namespace Engine

variable {s : Settings} {e : Engine}

theorem Reached.isPositive_rewardRatio (h : Reached s e) :
    isPositive e.book.ladder.rewardRatio = true := by
  obtain ⟨nonempty, same, -, -, positive⟩ :=
    LadderSettings.faults_eq_nil.mp (Settings.sections_of_faults h.faults_eq_nil).2.2
  have table : e.book.ladder.rewardRatios = s.ladder.rewardRatios :=
    h.moves.induct (P := fun b => b.ladder.rewardRatios = s.ladder.rewardRatios)
      (fun m kept => m.rewardRatios.trans kept) rfl
  have size : e.book.ladder.size = s.ladder.size := h.under.size_eq
  have inside : e.book.ladder.clamp e.book.ladder.level < s.ladder.rewardRatios.length := by
    have count : s.ladder.size = s.ladder.rewardRatios.length := same
    unfold Ladder.clamp
    omega
  rw [Ladder.rewardRatio, Ladder.rewardRatioAt, table, List.getElem?_eq_getElem inside,
    Option.getD_some]
  exact positive _ (List.getElem_mem inside)

/-! ## The tick that opened a position -/

theorem mem_openPositions_call (h : Reached s e) (c : Call) {p : Position}
    (hp : p ∈ (e.call c).2.book.ledger.openPositions) :
    p ∈ e.book.ledger.openPositions ∨
      ∃ t commands, c = .tick t commands ∧ p ∈ (e.tick t commands).1.openings := by
  cases c with
  | tick t commands =>
    cases screened : t.screen (e.obey commands).2.latest with
    | some rejection =>
      rw [call, tick_of_rejected screened, ledger_obey] at hp
      exact .inl hp
    | none =>
      rw [call, tick_of_passed screened, openPositions_evaluate] at hp
      rcases List.mem_append.mp hp with kept | opened
      · have positions : ((e.obey commands).2.enter t).book.ledger = e.book.ledger :=
          e.ledger_obey commands
        rw [Book.openPositions_take (positions ▸ h.orderly), positions] at kept
        exact .inl (List.mem_of_mem_filter kept)
      · refine .inr ⟨t, commands, rfl, ?_⟩
        rw [tick_of_passed screened]
        exact opened
  | command c =>
    have same : (e.after c).book.ledger = e.book.ledger := e.ledger_obey [c]
    rw [call, same] at hp
    exact .inl hp
  | close id price closedAt =>
    rw [call, afterClose, close] at hp
    cases done : e.book.close id price closedAt with
    | error error =>
      rw [done] at hp
      exact .inl hp
    | ok r =>
      rw [done] at hp
      obtain ⟨q, -, -, next⟩ := Book.close_eq_ok_iff.mp done
      have hp : p ∈ r.2.ledger.openPositions := hp
      rw [next] at hp
      exact .inl (List.mem_of_mem_filter hp)
  | forget => exact .inl hp

theorem opened_run {e0 : Engine} (built : new s = .ok e0) (calls : List Call) :
    ∀ p ∈ (e0.run calls).2.book.ledger.openPositions, ∃ t commands r,
      (.tick t commands, .report r) ∈ (e0.run calls).1 ∧ p ∈ r.openings := by
  refine run_induct (P := fun log e => ∀ p ∈ e.book.ledger.openPositions, ∃ t commands r,
    (.tick t commands, .report r) ∈ log ∧ p ∈ r.openings) built ?start ?step calls
  case start =>
    obtain ⟨-, rfl⟩ := new_eq_ok.mp built
    intro p hp
    cases hp
  case step =>
    intro log e c reached ih p hp
    rcases mem_openPositions_call reached c hp with kept | ⟨t, commands, rfl, told⟩
    · obtain ⟨t, commands, r, logged, told⟩ := ih p kept
      exact ⟨t, commands, r, List.mem_append_left _ logged, told⟩
    · have logged := List.mem_append_right log (List.mem_singleton_self
        (Call.tick t commands, (e.call (.tick t commands)).1))
      exact ⟨t, commands, _, logged, told⟩

/-- What a tick tells opened agrees with its report, and the tick was not rejected. -/
theorem opens_of_mem_openings (h : Reached s e) {t : Tick} {commands : List Command}
    {p : Position} (told : p ∈ (e.tick t commands).1.openings) :
    (e.tick t commands).1.Opens s t p ∧ t.screen (e.obey commands).2.latest = none := by
  cases screened : t.screen (e.obey commands).2.latest with
  | some rejection =>
    rw [tick_of_rejected screened] at told
    cases told
  | none =>
    have obeyed := e.moves_obey commands
    have moved := obeyed.trans (moves_settled (obeyed.orderly h.orderly) t)
    have observes := (keeps_observes h.faults_eq_nil).obey h.observes commands
    refine ⟨?_, rfl⟩
    rw [tick_of_passed screened] at told ⊢
    have openings : p ∈ ((e.obey commands).2.actionOn t).opened.toList := by
      rw [← openings_evaluate]
      exact told
    rcases ((e.obey commands).2.settled t).act_cases t ((e.obey commands).2.signalOn t) with
      ⟨idle, -, -⟩ | ⟨q, opened, acts⟩
    · rw [actionOn, idle] at openings
      cases openings
    · rw [actionOn, acts] at openings
      obtain rfl := List.mem_singleton.mp openings
      exact opens_evaluate h.faults_eq_nil observes (moved.under h.under)
        (moved.onLadder h.onLadder) opened acts rfl rfl

/-- A position has its sides, as far as doubles have them, from the tick that opens it. -/
theorem keepsSides_of_opens (h : Reached s e) {t : Tick} {commands : List Command} {p : Position}
    (opens : (e.tick t commands).1.Opens s t p)
    (passed : t.screen (e.obey commands).2.latest = none) :
    p.KeepsSides (s.pricing.stopLossPoints * t.quote.point)
      (e.tick t commands).1.snapshot.rewardRatio := by
  have valid := h.faults_eq_nil
  have point := Tick.isPositive_point passed
  have stop : isPositive s.pricing.stopLossPoints = true := by
    have faults := (Settings.limits_of_faults valid).2
    simp only [PricingSettings.faults, List.append_eq_nil_iff, faultUnless_eq_nil] at faults
    exact faults.2
  have ratio : isPositive (e.tick t commands).1.snapshot.rewardRatio = true := by
    rw [snapshot_of_report (e := e) (c := .tick t commands) rfl]
    exact (h.call (.tick t commands)).isPositive_rewardRatio
  have lots : 0.0 < p.lots := by
    obtain ⟨-, -, -, positive, -⟩ :=
      LadderSettings.faults_eq_nil.mp (Settings.sections_of_faults valid).2.2
    exact lt_of_isPositive (positive _ (List.mem_of_getElem? opens.entry))
  have nonneg : ¬s.pricing.stopLossPoints * t.quote.point < 0.0 :=
    float_mul_not_lt_zero (float_lt_asymm (lt_of_isPositive stop))
      (float_lt_asymm (lt_of_isPositive point))
  have number : ¬(s.pricing.stopLossPoints * t.quote.point).isNaN = true :=
    not_isNaN_mul (not_isNaN_of_isFinite (isFinite_of_isPositive stop))
      (isFinite_of_isPositive point) (lt_of_isPositive point)
  refine .of_spans ?_ nonneg number ratio lots
  rw [Position.levels, opens.priced]
  exact PriceLevels.spans_priceLevels ..

/-- **The levels of open positions keep their sides.** Every open position of a run has been opened
by a logged tick, and neither its stop nor its target is on the wrong side of the open price. They
are on their sides if the open price is finite and no level is rounded to it. -/
theorem sides_run {e0 : Engine} (built : new s = .ok e0) (calls : List Call) :
    ∀ p ∈ (e0.run calls).2.book.ledger.openPositions, ∃ t commands r,
      (.tick t commands, .report r) ∈ (e0.run calls).1 ∧ r.Opens s t p ∧
      p.KeepsSides (s.pricing.stopLossPoints * t.quote.point) r.snapshot.rewardRatio := by
  intro p hp
  obtain ⟨t, commands, r, logged, told⟩ := opened_run built calls p hp
  -- the factors of the distances are positive at the state in which the position was opened
  obtain ⟨before, later, -, replied⟩ := mem_run logged
  have reached : Reached s (e0.run before).2 := ⟨e0, before, built, rfl⟩
  obtain rfl : r = ((e0.run before).2.tick t commands).1 := Reply.report.inj replied
  obtain ⟨opens, passed⟩ := opens_of_mem_openings reached told
  exact ⟨t, commands, _, logged, opens, keepsSides_of_opens reached opens passed⟩

/-- The calls after which the position of the turn is open. -/
def boughtCalls : List Call := fallingCalls ++ [.tick (flatTick turningCandle) []]

/-- The levels of that position differ from its open price, so they are on their sides. -/
theorem sides_run_bought :
    new turningSettings = .ok (fresh turningSettings) ∧
    boughtPosition ∈
      ((fresh turningSettings).run boughtCalls).2.book.ledger.openPositions ∧
    boughtPosition.HasSides := by
  have held : boughtPosition ∈
      ((fresh turningSettings).run boughtCalls).2.book.ledger.openPositions := by
    decide +kernel
  obtain ⟨t, commands, r, -, -, keeps⟩ :=
    sides_run new_turningSettings boughtCalls boughtPosition held
  exact ⟨new_turningSettings, held, keeps.hasSides_iff.mpr (by decide +kernel)⟩

/-- The turn of the falling market with a quote whose point is too small to move a price. -/
def finePointedTick : Tick :=
  { flatTick turningCandle with quote := { (flatTick turningCandle).quote with point := 1e-18 } }

/-- A stop distance that is rounded away leaves all three levels at one price. -/
theorem sides_run_rounded :
    new turningSettings = .ok (fresh turningSettings) ∧
    ∃ p ∈ ((fresh turningSettings).run
        (fallingCalls ++ [.tick finePointedTick []])).2.book.ledger.openPositions,
      p.direction = .buy ∧ ¬p.stopLoss < p.openPrice ∧ ¬p.openPrice < p.takeProfit ∧
      ¬p.HasSides := by
  refine ⟨new_turningSettings, ?_⟩
  decide +kernel

end Engine

end TrendLadder
