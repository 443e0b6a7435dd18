import Mathlib.Data.List.Infix
import TrendLadder.Proofs.Number.Extremum
import TrendLadder.Proofs.Recent
import TrendLadder.Proofs.Settings.Reals
import TrendLadder.RiskGate

/-!
# The state of the gate in closed form

What a gate remembers after any reports to it, in terms of the reports alone. `state_run` says of
every sequence of accounts, starts of a day and profits, with any doubles in them, which of the
balances are the two baselines, that the peak and the worst drawdown are the highest of what was
reported and measured, and that the profits are the latest hundred.

A report of an account that is not sane, or of a start of a day at a balance that is not positive,
is void and leaves the gate as it is (`call_of_void`). The reports that count are read off the
calls by `RiskCall.account?` and `RiskCall.dayStart?`. Each field of the state is a function of the
lists of them, and one more report adds at most one entry to each list (`Remembers.call`).
-/

namespace TrendLadder

/-! ## Sane accounts -/

theorem Account.isPositive_balance {a : Account} (sane : a.isSane = true) :
    isPositive a.balance = true := by
  unfold isSane at sane
  simp only [Bool.and_eq_true] at sane
  obtain ⟨⟨⟨⟨finite, -⟩, -⟩, positive⟩, -⟩ := sane
  rw [isPositive, finite, positive]
  rfl

theorem Account.isFinite_equity {a : Account} (sane : a.isSane = true) :
    a.equity.isFinite = true := by
  unfold isSane at sane
  simp only [Bool.and_eq_true] at sane
  exact sane.1.1.1.2

/-! ## What one report does -/

namespace RiskGate

variable {g : RiskGate} {a : Account}

/-- The gate has an initial balance. -/
def IsSeeded (g : RiskGate) : Prop := g.initialBalance.isSome = true

theorem setBaseline_eq (g : RiskGate) (balance : Float) : g.setBaseline balance =
    { g with
      initialBalance := some (g.initialBalance.getD balance)
      dailyStartBalance :=
        if g.initialBalance.isNone then some balance else g.dailyStartBalance } := by
  obtain ⟨limits, _ | first, dailyStart, peak, worst, profits⟩ := g <;> rfl

theorem initialBalance_update (sane : a.isSane = true) :
    (g.update a).initialBalance = some (g.initialBalance.getD a.balance) := by
  rw [update, if_pos sane, setBaseline_eq]

theorem dailyStartBalance_update (sane : a.isSane = true) :
    (g.update a).dailyStartBalance =
      if g.initialBalance.isNone then some a.balance else g.dailyStartBalance := by
  rw [update, if_pos sane, setBaseline_eq]

theorem peakBalance_update (sane : a.isSane = true) :
    (g.update a).peakBalance = maxNum g.peakBalance a.balance := by
  rw [update, if_pos sane, setBaseline_eq]

theorem worstDrawdown_update (sane : a.isSane = true) :
    (g.update a).worstDrawdown = maxNum g.worstDrawdown ((g.update a).drawdown a.equity) := by
  rw [update, if_pos sane, setBaseline_eq]
  rfl

theorem profits_update (g : RiskGate) (a : Account) : (g.update a).profits = g.profits := by
  rw [update, setBaseline_eq]
  split <;> rfl

theorem profits_startDay (g : RiskGate) (balance : Float) :
    (g.startDay balance).profits = g.profits := by
  unfold startDay
  split <;> rfl

theorem dailyStart_startDay (sane : a.isSane = true) :
    (g.startDay a.balance).dailyStartBalance = some a.balance := by
  rw [startDay, if_pos (Account.isPositive_balance sane)]

theorem isSeeded_update (sane : a.isSane = true) : (g.update a).IsSeeded := by
  rw [IsSeeded, initialBalance_update sane]
  rfl

namespace IsSeeded

theorem dailyStart_update (h : g.IsSeeded) (a : Account) :
    (g.update a).dailyStartBalance = g.dailyStartBalance := by
  by_cases sane : a.isSane = true
  · rw [dailyStartBalance_update sane, Option.isNone_eq_false_iff.mpr h]
    rfl
  · rw [RiskGate.update, if_neg sane]

theorem update (h : g.IsSeeded) (a : Account) : (g.update a).IsSeeded := by
  by_cases sane : a.isSane = true
  · exact isSeeded_update sane
  · rwa [RiskGate.update, if_neg sane]

theorem startDay (h : g.IsSeeded) (balance : Float) : (g.startDay balance).IsSeeded := by
  unfold RiskGate.startDay
  split
  · rfl
  · exact h

end IsSeeded

theorem zero_le_drawdown (g : RiskGate) (equity : Float) : 0.0 ≤ g.drawdown equity := by
  have zero : ¬(0.0 : Float).isNaN = true := by decide +kernel
  unfold drawdown
  split
  · exact float_le_refl zero
  · exact le_maxNum_right zero

end RiskGate

/-! ## Reports to a gate -/

/-- What a gate is told. -/
inductive RiskCall where
  | update (a : Account)
  | startDay (balance : Float)
  | profit (x : Float)

namespace RiskCall

/-- The account that an update reports, if it is sane. -/
def account? : RiskCall → Option Account
  | .update a => if a.isSane then some a else none
  | .startDay _ => none
  | .profit _ => none

/-- The balance at which a day starts, if it is positive. -/
def dayStart? : RiskCall → Option Float
  | .startDay balance => if isPositive balance then some balance else none
  | .update _ => none
  | .profit _ => none

/-- The profit that is reported. -/
def profit? : RiskCall → Option Float
  | .profit x => some x
  | .update _ => none
  | .startDay _ => none

/-- The balance of a sane account. -/
def balance? (c : RiskCall) : Option Float := c.account?.map Account.balance

/-- The balance that counts for the baselines. -/
def baseline? (c : RiskCall) : Option Float := c.balance?.or c.dayStart?

/-- A report that tells nothing the gate can use. -/
def IsVoid : RiskCall → Prop
  | .update a => a.isSane = false
  | .startDay balance => isPositive balance = false
  | .profit _ => False

variable (calls : List RiskCall) (c : RiskCall)

/-- The balances of the accounts that are sane. -/
def balances : List Float := calls.filterMap balance?

/-- The balances at which days start. -/
def dayStarts : List Float := calls.filterMap dayStart?

/-- The balances of sane accounts and of starts of days, as they come. -/
def baselines : List Float := calls.filterMap baseline?

def profits : List Float := calls.filterMap RiskCall.profit?

/-- What a drawdown is measured from: the highest balance or the first one, if that is higher. -/
def reference : Float := maxNum (highest (balances calls)) ((baselines calls).head?.getD 0.0)

/-- The way from a reference down to an equity in percent, zero if it leads up. -/
def drawdownFrom (reference equity : Float) : Float :=
  maxNum ((reference - equity) / reference * 100.0) 0.0

/-- The drawdowns of the sane accounts, each from the reference when it was reported. -/
def drawdowns : List Float :=
  calls.inits.filterMap fun told => (told.getLast?.bind account?).map fun a =>
    drawdownFrom (reference told) a.equity

theorem filterMap_concat {β : Type} (f : RiskCall → Option β) :
    (calls ++ [c]).filterMap f = calls.filterMap f ++ (f c).toList := by
  rw [List.filterMap_append]
  cases same : f c <;> simp [same]

theorem balances_concat : balances (calls ++ [c]) = balances calls ++ c.balance?.toList :=
  filterMap_concat calls c balance?

theorem dayStarts_concat : dayStarts (calls ++ [c]) = dayStarts calls ++ c.dayStart?.toList :=
  filterMap_concat calls c dayStart?

theorem baselines_concat : baselines (calls ++ [c]) = baselines calls ++ c.baseline?.toList :=
  filterMap_concat calls c baseline?

theorem profits_concat :
    RiskCall.profits (calls ++ [c]) = RiskCall.profits calls ++ c.profit?.toList :=
  filterMap_concat calls c profit?

theorem drawdowns_concat : drawdowns (calls ++ [c]) = drawdowns calls ++
    (c.account?.map fun a => drawdownFrom (reference (calls ++ [c])) a.equity).toList := by
  have longer : (calls ++ [c]).inits = calls.inits ++ [calls ++ [c]] := by
    simp [List.inits_append]
  rw [drawdowns, longer, List.filterMap_append]
  cases same : c.account? <;> simp [drawdowns, same]

theorem baselines_eq_nil : baselines calls = [] ↔ balances calls = [] ∧ dayStarts calls = [] := by
  simp only [baselines, balances, dayStarts, List.filterMap_eq_nil_iff, baseline?,
    Option.or_eq_none_iff]
  exact ⟨fun h => ⟨fun c hc => (h c hc).1, fun c hc => (h c hc).2⟩,
    fun h c hc => ⟨h.1 c hc, h.2 c hc⟩⟩

theorem isPositive_of_balance? {c : RiskCall} {x : Float} (h : c.balance? = some x) :
    isPositive x = true := by
  obtain ⟨a, found, rfl⟩ := Option.map_eq_some_iff.mp h
  cases c with
  | update a2 =>
    obtain ⟨sane, same⟩ := Option.ite_none_right_eq_some.mp found
    cases same
    exact Account.isPositive_balance sane
  | startDay | profit => cases found

theorem isPositive_of_dayStart? {c : RiskCall} {x : Float} (h : c.dayStart? = some x) :
    isPositive x = true := by
  cases c with
  | startDay balance =>
    obtain ⟨positive, same⟩ := Option.ite_none_right_eq_some.mp h
    cases same
    exact positive
  | update | profit => cases h

theorem isPositive_of_mem_baselines {calls : List RiskCall} {x : Float}
    (h : x ∈ baselines calls) : isPositive x = true := by
  obtain ⟨c, -, found⟩ := List.mem_filterMap.mp h
  rcases Option.or_eq_some_iff.mp found with found | ⟨-, found⟩
  · exact isPositive_of_balance? found
  · exact isPositive_of_dayStart? found

theorem isHighest_balances : IsHighest (balances calls) (highest (balances calls)) := by
  refine isHighest_highest fun x hx => ?_
  obtain ⟨c, -, found⟩ := List.mem_filterMap.mp hx
  exact not_isNaN_of_isFinite (isFinite_of_isPositive (isPositive_of_balance? found))

/-- No drawdown is a NaN, whatever the equity. -/
theorem isHighest_drawdowns : IsHighest (drawdowns calls) (highest (drawdowns calls)) := by
  refine isHighest_highest fun x hx => ?_
  obtain ⟨told, -, measured⟩ := List.mem_filterMap.mp hx
  obtain ⟨a, -, rfl⟩ := Option.map_eq_some_iff.mp measured
  exact (not_isNaN_of_le (le_maxNum_right (by decide +kernel))).2

/-- Once an account was sane there is something to measure from. -/
theorem reference_pos {calls : List RiskCall} {x : Float} (told : x ∈ balances calls) :
    0.0 < reference calls := by
  obtain ⟨c, -, found⟩ := List.mem_filterMap.mp told
  have above := (isHighest_balances calls).above x told
  have higher : x ≤ reference calls :=
    float_le_trans above (le_maxNum_left (not_isNaN_of_le above).2)
  exact float_lt_of_lt_of_le (lt_of_isPositive (isPositive_of_balance? found)) higher

end RiskCall

/-! ## The closed form -/

namespace RiskGate

open RiskCall

/-- The gate after a report. -/
def call (g : RiskGate) : RiskCall → RiskGate
  | .update a => g.update a
  | .startDay balance => g.startDay balance
  | .profit x => g.recordProfit x

/-- The gate after some reports. -/
def run (g : RiskGate) (calls : List RiskCall) : RiskGate := calls.foldl call g

/-- What a gate remembers of some reports. -/
def closedForm (calls : List RiskCall) : RiskState where
  initialBalance := (baselines calls).head?
  dailyStartBalance := (dayStarts calls).getLast?.or (balances calls).head?
  peakBalance := highest (balances calls)
  worstDrawdown := highest (drawdowns calls)
  profits := lastItems profitCapacity (RiskCall.profits calls)

/-- A gate for some limits that remembers what it should of some reports. -/
structure Remembers (g : RiskGate) (limits : RiskSettings) (calls : List RiskCall) : Prop where
  limits : g.limits = limits
  initialBalance : g.initialBalance = (baselines calls).head?
  dailyStartBalance : g.dailyStartBalance = (dayStarts calls).getLast?.or (balances calls).head?
  peakBalance : g.peakBalance = highest (balances calls)
  worstDrawdown : g.worstDrawdown = highest (drawdowns calls)
  room : g.profits.capacity = profitCapacity
  profits : g.profits.Holds (RiskCall.profits calls)

variable {g : RiskGate} {limits : RiskSettings} {calls : List RiskCall}

theorem call_of_void {c : RiskCall} (void : c.IsVoid) : g.call c = g := by
  cases c with
  | update a => exact if_neg (void ▸ Bool.false_ne_true)
  | startDay balance => exact if_neg (void ▸ Bool.false_ne_true)
  | profit x => exact void.elim

section Fields

variable (g : RiskGate) (c : RiskCall)

theorem limits_call : (g.call c).limits = g.limits := by
  cases c with
  | update a =>
    rw [call, update, setBaseline_eq]
    split <;> rfl
  | startDay balance =>
    show (g.startDay balance).limits = _
    unfold startDay
    split <;> rfl
  | profit x => rfl

theorem initialBalance_call : (g.call c).initialBalance = g.initialBalance.or c.baseline? := by
  cases c with
  | update a =>
    by_cases sane : a.isSane = true
    · rw [call, initialBalance_update sane, baseline?, balance?, account?, if_pos sane]
      cases g.initialBalance <;> rfl
    · simp [call, update, baseline?, balance?, account?, dayStart?, sane]
  | startDay balance =>
    by_cases positive : isPositive balance = true
    · rw [call, startDay, if_pos positive, baseline?, balance?, account?, dayStart?,
        if_pos positive]
      cases g.initialBalance <;> rfl
    · simp [call, startDay, baseline?, balance?, account?, dayStart?, positive]
  | profit x => simp [call, recordProfit, baseline?, balance?, account?, dayStart?]

/-- A start of a day sets the start of the day, and so does an account where there is no initial
balance yet. -/
theorem dailyStartBalance_call : (g.call c).dailyStartBalance = c.dayStart?.or
    (if g.initialBalance.isNone then c.balance?.or g.dailyStartBalance
      else g.dailyStartBalance) := by
  cases c with
  | update a =>
    by_cases sane : a.isSane = true
    · rw [call, dailyStartBalance_update sane, balance?, account?, if_pos sane]
      rfl
    · simp [call, update, balance?, account?, dayStart?, sane]
  | startDay balance =>
    by_cases positive : isPositive balance = true
    · rw [call, startDay, if_pos positive, dayStart?, if_pos positive]
      rfl
    · simp [call, startDay, balance?, account?, dayStart?, positive]
  | profit x => simp [call, recordProfit, balance?, account?, dayStart?]

theorem peakBalance_call :
    (g.call c).peakBalance = c.balance?.elim g.peakBalance (maxNum g.peakBalance) := by
  cases c with
  | update a =>
    by_cases sane : a.isSane = true
    · rw [call, peakBalance_update sane, balance?, account?, if_pos sane]
      rfl
    · simp [call, update, balance?, account?, sane]
  | startDay balance =>
    show (g.startDay balance).peakBalance = g.peakBalance
    unfold startDay
    split <;> rfl
  | profit x => rfl

theorem worstDrawdown_call : (g.call c).worstDrawdown = c.account?.elim g.worstDrawdown fun a =>
    maxNum g.worstDrawdown ((g.call c).drawdown a.equity) := by
  cases c with
  | update a =>
    by_cases sane : a.isSane = true
    · rw [account?, if_pos sane]
      exact worstDrawdown_update sane
    · simp [call, update, account?, sane]
  | startDay balance =>
    show (g.startDay balance).worstDrawdown = g.worstDrawdown
    unfold startDay
    split <;> rfl
  | profit x => rfl

theorem profits_call : (g.call c).profits = c.profit?.elim g.profits g.profits.push := by
  cases c with
  | update a => exact g.profits_update a
  | startDay balance => exact g.profits_startDay balance
  | profit x => rfl

end Fields

theorem remembers_new (limits : RiskSettings) : Remembers (new limits) limits [] where
  limits := rfl
  initialBalance := rfl
  dailyStartBalance := rfl
  peakBalance := rfl
  worstDrawdown := rfl
  room := rfl
  profits := Recent.holds_empty profitCapacity

theorem drawdown_eq (initialBalance : g.initialBalance = (baselines calls).head?)
    (peakBalance : g.peakBalance = highest (balances calls)) {x : Float}
    (told : x ∈ balances calls) (equity : Float) :
    g.drawdown equity = drawdownFrom (reference calls) equity := by
  have peak : g.peak = reference calls := by
    rw [RiskGate.peak, peakBalance, initialBalance, reference]
  rw [drawdown, peak, if_neg (float_not_le_of_lt (reference_pos told))]
  rfl

theorem Remembers.call (h : Remembers g limits calls) (c : RiskCall) :
    Remembers (g.call c) limits (calls ++ [c]) := by
  have initialBalance : (g.call c).initialBalance = (baselines (calls ++ [c])).head? := by
    rw [initialBalance_call, h.initialBalance, baselines_concat, List.head?_append,
      Option.head?_toList]
  have peakBalance : (g.call c).peakBalance = highest (balances (calls ++ [c])) := by
    rw [peakBalance_call, h.peakBalance, balances_concat, highest_append_toList]
  constructor
  case limits => rw [limits_call, h.limits]
  case initialBalance => exact initialBalance
  case dailyStartBalance =>
    have starts : (dayStarts calls ++ c.dayStart?.toList).getLast? =
        c.dayStart?.or (dayStarts calls).getLast? := by
      rw [List.getLast?_append]
      cases c.dayStart? <;> rfl
    rw [dailyStartBalance_call, h.dailyStartBalance, h.initialBalance, dayStarts_concat,
      balances_concat, starts, List.head?_append, Option.head?_toList, Option.or_assoc]
    congr 1
    by_cases first : baselines calls = []
    · obtain ⟨noBalance, noStart⟩ := (baselines_eq_nil calls).mp first
      simp [first, noBalance, noStart]
    · -- a day start or a balance before decides about the start of the day
      rw [if_neg (by rwa [Option.isNone_iff_eq_none, List.head?_eq_none_iff])]
      rw [baselines_eq_nil] at first
      cases started : (dayStarts calls).getLast? with
      | some x => rfl
      | none =>
        have balance : balances calls ≠ [] :=
          fun none => first ⟨none, List.getLast?_eq_none_iff.mp started⟩
        obtain ⟨x, xs, same⟩ := List.exists_cons_of_ne_nil balance
        rw [same]
        rfl
  case peakBalance => exact peakBalance
  case worstDrawdown =>
    rw [worstDrawdown_call, h.worstDrawdown, drawdowns_concat, highest_append_toList]
    cases found : c.account? with
    | none => rfl
    | some a =>
      have told : a.balance ∈ balances (calls ++ [c]) := by
        simp [balances_concat, balance?, found]
      exact congrArg (maxNum _) (drawdown_eq initialBalance peakBalance told a.equity)
  case room =>
    rw [profits_call, ← h.room]
    cases c.profit? <;> rfl
  case profits =>
    rw [profits_call, profits_concat]
    cases c.profit? with
    | none =>
      rw [Option.toList_none, List.append_nil]
      exact h.profits
    | some x => exact h.profits.push (h.room ▸ by decide) x

theorem remembers_run (limits : RiskSettings) (calls : List RiskCall) :
    Remembers ((new limits).run calls) limits calls := by
  induction calls using List.reverseRecOn with
  | nil => exact remembers_new limits
  | append_singleton calls c ih =>
    rw [run, List.foldl_concat]
    exact ih.call c

theorem initialBalance_run {x : Float} (known : g.initialBalance = some x)
    (later : List RiskCall) : (g.run later).initialBalance = some x := by
  induction later generalizing g with
  | nil => exact known
  | cons c later ih =>
    refine ih ?_
    rw [initialBalance_call, known]
    rfl

/-- The state of a gate is the closed form of what it was told. -/
structure HasClosedForm (g : RiskGate) (limits : RiskSettings) (calls : List RiskCall) :
    Prop where
  limits : g.limits = limits
  state : g.state = closedForm calls
  peakBalance : IsHighest (balances calls) g.peakBalance
  worstDrawdown : IsHighest (drawdowns calls) g.worstDrawdown
  /-- The latest hundred profits are remembered, or all of them if they are fewer. -/
  profits : g.state.profits <:+ RiskCall.profits calls ∧
    g.state.profits.length = min 100 (RiskCall.profits calls).length
  /-- Both baselines are finite and positive. -/
  isPositive : ∀ x, g.initialBalance = some x ∨ g.dailyStartBalance = some x →
    isPositive x = true
  /-- Both baselines are set by the same call. -/
  together : g.dailyStartBalance = none ↔ g.initialBalance = none
  /-- Reports that are void change nothing. -/
  void : ∀ c : RiskCall, c.IsVoid → g.call c = g
  /-- The initial balance never changes again. -/
  still : ∀ x later, g.initialBalance = some x → (g.run later).initialBalance = some x

/-- **The state of a gate in closed form**, for every sequence of reports to a new gate. -/
theorem state_run (limits : RiskSettings) (calls : List RiskCall) :
    HasClosedForm ((new limits).run calls) limits calls := by
  have h := remembers_run limits calls
  constructor
  case limits => exact h.limits
  case state =>
    rw [state, closedForm, h.initialBalance, h.dailyStartBalance, h.peakBalance, h.worstDrawdown,
      h.profits, h.room]
  case profits =>
    rw [state, h.profits, h.room]
    exact ⟨List.drop_suffix _ _, length_lastItems _ _⟩
  case peakBalance => exact h.peakBalance ▸ isHighest_balances calls
  case worstDrawdown => exact h.worstDrawdown ▸ isHighest_drawdowns calls
  case isPositive =>
    rw [h.initialBalance, h.dailyStartBalance]
    rintro x (first | start)
    · exact isPositive_of_mem_baselines (List.mem_of_mem_head? first)
    · rcases Option.or_eq_some_iff.mp start with start | ⟨-, first⟩
      · obtain ⟨c, -, found⟩ := List.mem_filterMap.mp (List.mem_of_getLast? start)
        exact isPositive_of_dayStart? found
      · obtain ⟨c, -, found⟩ := List.mem_filterMap.mp (List.mem_of_mem_head? first)
        exact isPositive_of_balance? found
  case together =>
    rw [h.initialBalance, h.dailyStartBalance, Option.or_eq_none_iff, List.getLast?_eq_none_iff,
      List.head?_eq_none_iff, List.head?_eq_none_iff, baselines_eq_nil, and_comm]
  case void => exact fun c void => call_of_void void
  case still => exact fun x later known => initialBalance_run known later

end RiskGate

end TrendLadder
