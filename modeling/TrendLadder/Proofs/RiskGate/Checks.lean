import TrendLadder.Proofs.Findings
import TrendLadder.Proofs.Number.Distance
import TrendLadder.Proofs.RiskGate.State

/-!
# The checks of the gate

An entry is put to six checks. `Fails` says when each of them fails and `finding` what is then
reported, with the measured value and the limit. `authorize_reports` says that the gate reports the
findings of the failed checks, each once and in their order, and lets an entry pass exactly if there
are none, for every state and limits of the gate.

1. The breaches of the gate are the findings of the checks, one after the other (`reported_eq`), so
   the breaches of some of the checks are found by looking at these checks alone
   (`filter_reported`).
2. What only one check is about changes no finding of another one (`reported_apply`).
3. A limit that is no number fails no check. Against limits that are numbers a check fails exactly
   if its limit is not kept (`not_fails_iff_within`), since what is measured of a sane account is a
   number.
-/

namespace TrendLadder

/-! ## Checks and findings -/

/-- What is checked about an entry. -/
inductive RiskCheck where
  | paused
  | account
  | marginLevel
  | drawdown
  | dailyLoss
  | spread
deriving DecidableEq

def RiskCheck.all : List RiskCheck :=
  [.paused, .account, .marginLevel, .drawdown, .dailyLoss, .spread]

theorem RiskCheck.mem_all (c : RiskCheck) : c ∈ RiskCheck.all := by
  cases c <;> decide

/-- The check that a breach is of. -/
def Breach.check : Breach → RiskCheck
  | .paused => .paused
  | .invalidAccount => .account
  | .marginLevel .. => .marginLevel
  | .drawdown .. => .drawdown
  | .dailyLoss .. => .dailyLoss
  | .spread .. => .spread

/-- An entry for which a gate is asked. -/
structure EntryRequest where
  gate : RiskGate
  account : Account
  quote : Quote
  paused : Bool

namespace EntryRequest

def authorize (r : EntryRequest) : Except RiskViolation Unit :=
  r.gate.authorize r.account r.quote r.paused

/-- The breaches that the answer reports. -/
def reported (r : EntryRequest) : List Breach :=
  match r.authorize with
  | .ok () => []
  | .error v => v.breaches

/-- When a check fails. Only a sane account is checked against the limits on accounts. -/
def Fails (r : EntryRequest) : RiskCheck → Prop
  | .paused => r.paused = true
  | .account => r.account.isSane = false
  | .marginLevel => r.account.isSane = true ∧
    ∃ level ∈ r.account.marginLevel, level < r.gate.limits.marginMinimumPct
  | .drawdown => r.account.isSane = true ∧
    r.gate.limits.maxDrawdownPct < r.gate.drawdown r.account.equity
  | .dailyLoss => r.account.isSane = true ∧
    r.gate.limits.maxDailyLossPct < r.gate.dailyLossPct r.account.balance
  | .spread => r.gate.limits.maxSpreadPoints < r.quote.spreadPoints

instance (r : EntryRequest) : DecidablePred r.Fails := fun c =>
  match c with
  | .paused | .account => inferInstanceAs (Decidable (_ = _))
  | .marginLevel | .drawdown | .dailyLoss => inferInstanceAs (Decidable (_ ∧ _))
  | .spread => inferInstanceAs (Decidable (_ < _))

/-- What a failed check reports: the measured value and the limit. -/
def finding (r : EntryRequest) : RiskCheck → Breach
  | .paused => .paused
  | .account => .invalidAccount
  | .marginLevel => .marginLevel (r.account.equity / r.account.margin * 100.0)
    r.gate.limits.marginMinimumPct
  | .drawdown => .drawdown (r.gate.drawdown r.account.equity) r.gate.limits.maxDrawdownPct
  | .dailyLoss => .dailyLoss (r.gate.dailyLossPct r.account.balance) r.gate.limits.maxDailyLossPct
  | .spread => .spread r.quote.spreadPoints r.gate.limits.maxSpreadPoints

@[simp] theorem check_finding (r : EntryRequest) (c : RiskCheck) : (r.finding c).check = c := by
  cases c <;> rfl

/-- The finding of a check, if it fails. -/
def findings (r : EntryRequest) (c : RiskCheck) : List Breach :=
  RiskGate.breachIf (r.Fails c) (r.finding c)

theorem reported_eq_breaches (r : EntryRequest) :
    r.reported = r.gate.breaches r.account r.quote r.paused := by
  unfold reported authorize RiskGate.authorize
  cases r.gate.breaches r.account r.quote r.paused <;> rfl

theorem marginBreaches_eq (r : EntryRequest) (sane : r.account.isSane = true) :
    r.gate.marginBreaches r.account = r.findings .marginLevel := by
  unfold RiskGate.marginBreaches findings Account.marginLevel
  by_cases inUse : 0.0 < r.account.margin
  · simp [Fails, finding, sane, Account.marginLevel, inUse]
  · simp [Fails, Account.marginLevel, inUse, RiskGate.breachIf]

theorem accountBreaches_eq (r : EntryRequest) : r.gate.accountBreaches r.account =
    r.findings .account ++ r.findings .marginLevel ++ r.findings .drawdown ++
      r.findings .dailyLoss := by
  unfold RiskGate.accountBreaches
  by_cases sane : r.account.isSane = true
  · rw [if_pos sane, marginBreaches_eq r sane]
    simp [findings, Fails, finding, sane, RiskGate.breachIf]
  · simp [findings, Fails, finding, sane, RiskGate.breachIf]

theorem reported_eq (r : EntryRequest) :
    r.reported = (RiskCheck.all.filter r.Fails).map r.finding := by
  have paused : RiskGate.breachIf r.paused .paused = r.findings .paused := by
    have same : decide (r.Fails .paused) = r.paused := by
      rw [Bool.eq_iff_iff, decide_eq_true_iff]
      exact Iff.rfl
    rw [findings, same]
    rfl
  rw [reported_eq_breaches, RiskGate.breaches, accountBreaches_eq, paused, findings_eq_flatMap]
  simp only [RiskCheck.all, List.flatMap_cons, List.flatMap_nil, List.append_assoc, List.append_nil]
  rfl

theorem filter_reported (r : EntryRequest) (p : RiskCheck → Bool) :
    (r.reported.filter fun b => p b.check) =
      ((RiskCheck.all.filter p).filter r.Fails).map r.finding := by
  rw [reported_eq, filter_findings r.check_finding]

theorem authorize_eq_ok_iff (r : EntryRequest) : r.authorize = .ok () ↔ ∀ c, ¬r.Fails c := by
  rw [authorize, RiskGate.authorize_eq_ok, ← reported_eq_breaches, reported_eq, List.map_eq_nil_iff,
    List.filter_eq_nil_iff]
  simp [RiskCheck.mem_all]

theorem authorize_eq_error_iff (r : EntryRequest) (v : RiskViolation) :
    r.authorize = .error v ↔
      (∃ c, r.Fails c) ∧ v.breaches = (RiskCheck.all.filter r.Fails).map r.finding := by
  rw [authorize, RiskGate.authorize_eq_error, ne_eq, ← RiskGate.authorize_eq_ok,
    ← reported_eq_breaches, reported_eq]
  refine and_congr_left fun _ => ?_
  have passes := authorize_eq_ok_iff r
  rw [authorize] at passes
  rw [passes]
  simp

end EntryRequest

/-! ## Changes that one check is about -/

/-- A change of what one check alone is about. -/
inductive EntryChange where
  | pausing (paused : Bool)
  | quote (q : Quote)
  | marginMinimum (pct : Float)
  | maxDrawdown (pct : Float)
  | maxDailyLoss (pct : Float)
  | maxSpread (points : Nat)

namespace EntryChange

/-- The check that the change is about. -/
def check : EntryChange → RiskCheck
  | .pausing _ => .paused
  | .quote _ => .spread
  | .marginMinimum _ => .marginLevel
  | .maxDrawdown _ => .drawdown
  | .maxDailyLoss _ => .dailyLoss
  | .maxSpread _ => .spread

/-- The limits after a change. -/
def limits (l : RiskSettings) : EntryChange → RiskSettings
  | .pausing _ => l
  | .quote _ => l
  | .marginMinimum pct => { l with marginMinimumPct := pct }
  | .maxDrawdown pct => { l with maxDrawdownPct := pct }
  | .maxDailyLoss pct => { l with maxDailyLossPct := pct }
  | .maxSpread points => { l with maxSpreadPoints := points }

/-- The request after a change. -/
def apply (r : EntryRequest) (k : EntryChange) : EntryRequest where
  gate := { r.gate with limits := k.limits r.gate.limits }
  account := r.account
  quote := match k with
    | .quote q => q
    | _ => r.quote
  paused := match k with
    | .pausing paused => paused
    | _ => r.paused

variable {r : EntryRequest} {k : EntryChange} {c : RiskCheck}

theorem fails_apply (other : c ≠ k.check) : (k.apply r).Fails c ↔ r.Fails c := by
  cases k <;> cases c <;> first | exact Iff.rfl | exact absurd rfl other

theorem finding_apply (other : c ≠ k.check) : (k.apply r).finding c = r.finding c := by
  cases k <;> cases c <;> first | rfl | exact absurd rfl other

/-- A change leaves the findings of all checks but its own as they are. -/
theorem reported_apply (r : EntryRequest) (k : EntryChange) :
    ((k.apply r).reported.filter fun b => b.check ≠ k.check) =
      r.reported.filter fun b => b.check ≠ k.check := by
  have others : ∀ c ∈ RiskCheck.all.filter fun c => c ≠ k.check, c ≠ k.check :=
    fun c hc => of_decide_eq_true (List.mem_filter.mp hc).2
  rw [EntryRequest.filter_reported _ fun c => c ≠ k.check,
    EntryRequest.filter_reported _ fun c => c ≠ k.check,
    List.filter_congr fun c hc => decide_eq_decide.mpr (fails_apply (others c hc))]
  exact List.map_congr_left fun c hc => finding_apply (others c (List.mem_of_mem_filter hc))

end EntryChange

/-! ## Limits that are numbers -/

namespace EntryRequest

/-- What is checked is as the limit asks. -/
def Within (r : EntryRequest) : RiskCheck → Prop
  | .paused => r.paused = false
  | .account => r.account.isSane = true
  | .marginLevel =>
    ∀ level ∈ r.account.marginLevel, r.gate.limits.marginMinimumPct ≤ level
  | .drawdown => r.gate.drawdown r.account.equity ≤ r.gate.limits.maxDrawdownPct
  | .dailyLoss => r.gate.dailyLossPct r.account.balance ≤ r.gate.limits.maxDailyLossPct
  | .spread => r.quote.spreadPoints ≤ r.gate.limits.maxSpreadPoints

theorem not_isNaN_marginLevel {a : Account} (sane : a.isSane = true) {level : Float}
    (measured : level ∈ a.marginLevel) : ¬level.isNaN = true := by
  obtain ⟨inUse, same⟩ := Option.ite_none_right_eq_some.mp measured
  rw [← Option.some.inj same]
  exact not_isNaN_mul (not_isNaN_div (Account.isFinite_equity sane) inUse) (by decide +kernel)
    (by decide +kernel)

theorem not_isNaN_dailyLossPct (g : RiskGate) (balance : Float) :
    ¬(g.dailyLossPct balance).isNaN = true := by
  have zero : ¬(0.0 : Float).isNaN = true := by decide +kernel
  unfold RiskGate.dailyLossPct
  split
  · split
    · exact (not_isNaN_of_le (le_maxNum_right zero)).2
    · exact zero
  · exact zero

/-- What is measured of a sane account is a number, so against limits that are numbers a check
fails exactly if the limit is not kept. -/
theorem not_fails_iff_within (r : EntryRequest)
    (numbers : ∀ x ∈ r.gate.limits.reals, ¬x.isNaN = true) (sane : r.account.isSane = true)
    (c : RiskCheck) : ¬r.Fails c ↔ r.Within c := by
  simp only [RiskSettings.reals, List.forall_mem_cons] at numbers
  obtain ⟨maxDrawdown, maxDailyLoss, marginMinimum, -⟩ := numbers
  cases c with
  | paused => exact Bool.not_eq_true _ ▸ Iff.rfl
  | account => exact Bool.not_eq_false _ ▸ Iff.rfl
  | marginLevel =>
    constructor
    · intro passes level measured
      exact (float_not_lt_iff (not_isNaN_marginLevel sane measured) marginMinimum).mp
        fun below => passes ⟨sane, level, measured, below⟩
    · rintro kept ⟨-, level, measured, below⟩
      exact float_not_lt_of_le (kept level measured) below
  | drawdown =>
    have number := (not_isNaN_of_le (r.gate.zero_le_drawdown r.account.equity)).2
    exact (not_congr (and_iff_right sane)).trans (float_not_lt_iff maxDrawdown number)
  | dailyLoss =>
    have number := not_isNaN_dailyLossPct r.gate r.account.balance
    exact (not_congr (and_iff_right sane)).trans (float_not_lt_iff maxDailyLoss number)
  | spread => exact not_lt

/-! ## The answer of the gate -/

/-- What the answer of a gate tells of a request. -/
structure Reports (r : EntryRequest) : Prop where
  passes : r.authorize = .ok () ↔ ∀ c, ¬r.Fails c
  refused : ∀ v, r.authorize = .error v ↔
    (∃ c, r.Fails c) ∧ v.breaches = (RiskCheck.all.filter r.Fails).map r.finding
  /-- A failed check is reported once and no other one is. -/
  once : ∀ c, (r.reported.filter fun b => b.check = c) = if r.Fails c then [r.finding c] else []
  ordered : (r.reported.map Breach.check).Sublist RiskCheck.all
  /-- Of an account that is not sane nothing is measured. -/
  unusable : r.account.isSane = false → ∀ b ∈ r.reported,
    b = .paused ∨ b = .invalidAccount ∨ ∃ points max, b = .spread points max
  paused : r.paused = true → ∃ v, r.authorize = .error v ∧ v.breaches.head? = some .paused
  independent : ∀ k : EntryChange, ((k.apply r).reported.filter fun b => b.check ≠ k.check) =
    r.reported.filter fun b => b.check ≠ k.check
  /-- Against limits that are numbers the gate lets an entry pass exactly if they are kept. -/
  within : (∀ x ∈ r.gate.limits.reals, ¬x.isNaN = true) →
    (r.authorize = .ok () ↔ ∀ c, r.Within c)

/-- **The gate reports exactly the failed checks**, for every state and limits of the gate, account,
quote and ladder, paused or not. -/
theorem authorize_reports (r : EntryRequest) : r.Reports := by
  constructor
  case passes => exact r.authorize_eq_ok_iff
  case refused => exact r.authorize_eq_error_iff
  case once =>
    intro c
    rw [reported_eq, findings_once r.check_finding (by decide) (RiskCheck.mem_all c)]
    exact if_congr decide_eq_true_iff rfl rfl
  case ordered =>
    rw [reported_eq]
    exact findings_ordered r.check_finding RiskCheck.all
  case unusable =>
    intro void b reported
    rw [reported_eq] at reported
    obtain ⟨c, failed, rfl⟩ := List.mem_map.mp reported
    have failed : r.Fails c := of_decide_eq_true (List.mem_filter.mp failed).2
    cases c with
    | paused => exact .inl rfl
    | account => exact .inr (.inl rfl)
    | spread => exact .inr (.inr ⟨_, _, rfl⟩)
    | marginLevel | drawdown | dailyLoss => exact absurd failed.1 (void ▸ Bool.false_ne_true)
  case paused =>
    intro paused
    have failed : r.Fails .paused := paused
    refine ⟨⟨_⟩, (r.authorize_eq_error_iff _).mpr ⟨⟨.paused, failed⟩, rfl⟩, ?_⟩
    simp [RiskCheck.all, failed, finding]
  case independent => exact EntryChange.reported_apply r
  case within =>
    intro numbers
    rw [authorize_eq_ok_iff]
    constructor
    · intro passes c
      have sane : r.account.isSane = true := Bool.eq_true_of_not_eq_false (passes .account)
      exact (r.not_fails_iff_within numbers sane c).mp (passes c)
    · exact fun kept c => (r.not_fails_iff_within numbers (kept .account) c).mpr (kept c)

end EntryRequest

theorem RiskGate.lt_of_dailyLoss {g : RiskGate} {a : Account} {q : Quote} {paused : Bool}
    {lossPct max : Float} (h : .dailyLoss lossPct max ∈ g.breaches a q paused) :
    g.limits.maxDailyLossPct < g.dailyLossPct a.balance := by
  have reported := EntryRequest.reported_eq_breaches ⟨g, a, q, paused⟩
  rw [← reported, EntryRequest.reported_eq] at h
  obtain ⟨c, failed, same⟩ := List.mem_map.mp h
  have failed : EntryRequest.Fails ⟨g, a, q, paused⟩ c :=
    of_decide_eq_true (List.mem_filter.mp failed).2
  cases c with
  | dailyLoss => exact failed.2
  | paused | account | marginLevel | drawdown | spread => cases same

end TrendLadder
