import TrendLadder.Ladder
import TrendLadder.Proofs.Settings.Valid

/-!
# The ladder in closed form

What a ladder holds after any calls, read off the calls alone (`Ladder.isAfter_run`): the level is
the one that the latest win or accepted skip set, plus the losses since, as far as there are
levels. A skip is pending until the next outcome, only the latest switch decides about the pause,
and the tables stay those of the settings, so that every query finds its entry
(`Ladder.answers_run`).
-/

namespace TrendLadder

/-- What can be asked of a ladder. -/
inductive LadderCall where
  | outcome (o : TradeOutcome)
  | skipTo (level : Nat)
  | pause
  | resume
deriving DecidableEq

namespace LadderCall

/-! ## What the calls say -/

/-- The level that a call sets whatever the level before: a win the bottom, and a skip to a level
that the ladder has that level, counted from zero. -/
def target? (size : Nat) : LadderCall → Option Nat
  | .outcome .win => some 0
  | .skipTo level => if 1 ≤ level ∧ level ≤ size then some (level - 1) else none
  | _ => none

/-- Whether a call is an outcome or a skip to a level that the ladder has. -/
def isMove (size : Nat) : LadderCall → Bool
  | .outcome _ => true
  | .skipTo level => 1 ≤ level ∧ level ≤ size
  | _ => false

/-- Whether a call pauses or resumes. -/
def isSwitch : LadderCall → Bool
  | .pause => true
  | .resume => true
  | _ => false

/-- The level that the latest win or accepted skip set, the bottom before the first one. -/
def base (size : Nat) (calls : List LadderCall) : Nat :=
  (calls.reverse.findSome? (·.target? size)).getD 0

/-- The losses since the latest win or accepted skip. -/
def lossesSince (size : Nat) (calls : List LadderCall) : Nat :=
  (calls.reverse.takeWhile fun c => (c.target? size).isNone).count (.outcome .loss)

/-- The latest outcome or accepted skip. -/
def latestMove (size : Nat) (calls : List LadderCall) : Option LadderCall :=
  calls.reverse.find? (·.isMove size)

/-- The latest pause or resume. -/
def latestSwitch (calls : List LadderCall) : Option LadderCall := calls.reverse.find? isSwitch

section Concat

variable {size : Nat} (calls : List LadderCall) {c : LadderCall}

theorem base_concat : base size (calls ++ [c]) = (c.target? size).getD (base size calls) := by
  cases h : c.target? size <;> simp [base, h]

theorem lossesSince_concat_of_some {level : Nat} (h : c.target? size = some level) :
    lossesSince size (calls ++ [c]) = 0 := by
  simp [lossesSince, h]

theorem lossesSince_concat_of_none (h : c.target? size = none) :
    lossesSince size (calls ++ [c]) =
      lossesSince size calls + if c = .outcome .loss then 1 else 0 := by
  simp [lossesSince, h, List.count_cons]

theorem latestMove_concat :
    latestMove size (calls ++ [c]) = if c.isMove size then some c else latestMove size calls := by
  cases h : c.isMove size <;> simp [latestMove, h]

theorem latestSwitch_concat :
    latestSwitch (calls ++ [c]) = if c.isSwitch then some c else latestSwitch calls := by
  cases h : c.isSwitch <;> simp [latestSwitch, h]

end Concat

end LadderCall

namespace Ladder

open LadderCall

/-- The ladder after a call; a refused skip changes nothing. -/
def call (l : Ladder) : LadderCall → Ladder
  | .outcome o => l.applyOutcome o
  | .skipTo level =>
    match l.skipTo level with
    | .ok next => next
    | .error _ => l
  | .pause => l.pause
  | .resume => l.resume

/-- The ladder after calls. -/
def run (l : Ladder) (calls : List LadderCall) : Ladder := calls.foldl call l

theorem call_skipTo_of_accepted {l : Ladder} {level : Nat} (h : 1 ≤ level ∧ level ≤ l.size) :
    l.call (.skipTo level) = { l with level := level - 1, pendingSkip := some (level - 1) } := by
  rw [call, skipTo_eq_ok.mpr ⟨h.1, h.2, rfl⟩]

theorem call_skipTo_of_refused {l : Ladder} {level : Nat} (h : ¬(1 ≤ level ∧ level ≤ l.size)) :
    l.call (.skipTo level) = l := by
  unfold call
  dsimp only
  split
  · next skipped =>
    obtain ⟨one, le, -⟩ := skipTo_eq_ok.mp skipped
    exact absurd ⟨one, le⟩ h
  · rfl

/-! ## What a ladder holds after calls -/

/-- What a ladder with the tables of some settings holds after some calls. -/
structure IsAfter (s : LadderSettings) (calls : List LadderCall) (l : Ladder) : Prop where
  level : l.level = min (s.size - 1) (base s.size calls + lossesSince s.size calls)
  pendingSkip : ∀ p, l.pendingSkip = some p ↔ latestMove s.size calls = some (.skipTo (p + 1))
  /-- A pending skip is where the ladder stands. -/
  level_of_pendingSkip : ∀ p, l.pendingSkip = some p → l.level = p
  paused : l.paused = true ↔ latestSwitch calls = some .pause
  lots : l.lots = s.lots
  rewardRatios : l.rewardRatios = s.rewardRatios

theorem isAfter_start (s : LadderSettings) : IsAfter s [] (start s) where
  level := (Nat.min_zero _).symm
  pendingSkip := by simp [start, latestMove]
  level_of_pendingSkip := nofun
  paused := by simp [start, latestSwitch]
  lots := rfl
  rewardRatios := rfl

section Step

variable {s : LadderSettings} {calls : List LadderCall} {l : Ladder}

theorem IsAfter.size_eq (h : IsAfter s calls l) : l.size = s.size := congrArg List.length h.lots

theorem IsAfter.outcome (h : IsAfter s calls l) (o : TradeOutcome) :
    IsAfter s (calls ++ [.outcome o]) (l.applyOutcome o) where
  level := by
    have before := h.level
    rw [base_concat]
    cases o with
    | win =>
      rw [lossesSince_concat_of_some calls rfl]
      simp [applyOutcome, reset, target?]
    | loss =>
      rw [lossesSince_concat_of_none calls rfl, if_pos rfl]
      simp only [applyOutcome, advance, clamp, h.size_eq, target?, Option.getD_none]
      omega
    | breakeven =>
      rw [lossesSince_concat_of_none calls rfl, if_neg nofun]
      exact before
  pendingSkip := by simp [latestMove_concat, isMove]
  level_of_pendingSkip := by simp
  paused := by simp [latestSwitch_concat, isSwitch, h.paused]
  lots := (lots_applyOutcome l o).trans h.lots
  rewardRatios := (rewardRatios_applyOutcome l o).trans h.rewardRatios

theorem IsAfter.skipTo (h : IsAfter s calls l) (level : Nat) :
    IsAfter s (calls ++ [.skipTo level]) (l.call (.skipTo level)) := by
  by_cases accepted : 1 ≤ level ∧ level ≤ s.size
  · have target : (LadderCall.skipTo level).target? s.size = some (level - 1) := if_pos accepted
    rw [call_skipTo_of_accepted (h.size_eq ▸ accepted)]
    constructor
    case level =>
      rw [base_concat, lossesSince_concat_of_some calls target, target, Option.getD_some]
      dsimp only
      omega
    case pendingSkip =>
      intro p
      simp only [latestMove_concat, isMove, accepted, decide_true, if_true, Option.some.injEq,
        LadderCall.skipTo.injEq, and_self]
      omega
    case level_of_pendingSkip => simp
    case paused => simp [latestSwitch_concat, isSwitch, h.paused]
    case lots => exact h.lots
    case rewardRatios => exact h.rewardRatios
  · have target : (LadderCall.skipTo level).target? s.size = none := if_neg accepted
    have idle : (LadderCall.skipTo level).isMove s.size = false := decide_eq_false accepted
    rw [call_skipTo_of_refused (h.size_eq ▸ accepted)]
    constructor
    case level =>
      rw [base_concat, lossesSince_concat_of_none calls target, target, if_neg nofun]
      exact h.level
    case pendingSkip =>
      intro p
      rw [latestMove_concat, idle]
      exact h.pendingSkip p
    case level_of_pendingSkip => exact h.level_of_pendingSkip
    case paused => simp [latestSwitch_concat, isSwitch, h.paused]
    case lots => exact h.lots
    case rewardRatios => exact h.rewardRatios

/-- A pause or a resume leaves all but the pause as it is. -/
theorem IsAfter.switch (h : IsAfter s calls l) {c : LadderCall} (switch : c.isSwitch = true) :
    IsAfter s (calls ++ [c]) { l with paused := c = .pause } := by
  have still : c.target? s.size = none ∧ c.isMove s.size = false ∧ c ≠ .outcome .loss := by
    cases c with
    | pause | resume => exact ⟨rfl, rfl, nofun⟩
    | outcome | skipTo => cases switch
  obtain ⟨target, idle, noLoss⟩ := still
  constructor
  case level =>
    rw [base_concat, lossesSince_concat_of_none calls target, target, if_neg noLoss]
    exact h.level
  case pendingSkip =>
    intro p
    rw [latestMove_concat, idle]
    exact h.pendingSkip p
  case level_of_pendingSkip => exact h.level_of_pendingSkip
  case paused => simp [latestSwitch_concat, switch]
  case lots => exact h.lots
  case rewardRatios => exact h.rewardRatios

theorem IsAfter.call (h : IsAfter s calls l) (c : LadderCall) :
    IsAfter s (calls ++ [c]) (l.call c) := by
  cases c with
  | outcome o => exact h.outcome o
  | skipTo level => exact h.skipTo level
  | pause => exact h.switch rfl
  | resume => exact h.switch rfl

theorem IsAfter.run (h : IsAfter s calls l) (later : List LadderCall) :
    IsAfter s (calls ++ later) (l.run later) := by
  induction later generalizing calls l with
  | nil =>
    rw [List.append_nil]
    exact h
  | cons c cs ih =>
    have called := ih (h.call c)
    rwa [List.append_assoc] at called

end Step

theorem isAfter_run (s : LadderSettings) (calls : List LadderCall) :
    IsAfter s calls ((start s).run calls) :=
  (isAfter_start s).run calls

/-! ## What a ladder answers -/

/-- What a ladder with the tables of some settings answers about a level: the entries of the
nearest level that there is, which both tables have. -/
structure Answers (s : LadderSettings) (l : Ladder) (level : Nat) : Prop where
  inLots : l.clamp level < l.lots.length
  inRewardRatios : l.clamp level < l.rewardRatios.length
  rewardRatio : ∃ h : min level (s.size - 1) < s.rewardRatios.length,
    l.rewardRatioAt level = s.rewardRatios[min level (s.size - 1)]
  paused : l.paused = true → l.lotsAt level = 0.0
  running : l.paused = false → ∃ h : min level (s.size - 1) < s.lots.length,
    l.lotsAt level = s.lots[min level (s.size - 1)] ∧ 0.0 < l.lotsAt level

/-- Settings without a fault leave no query without its entry. -/
theorem IsAfter.answers {s : LadderSettings} {calls : List LadderCall} {l : Ladder}
    (h : IsAfter s calls l) (valid : s.faults = []) (level : Nat) : Answers s l level := by
  obtain ⟨nonempty, same, -, positive, -⟩ := LadderSettings.faults_eq_nil.mp valid
  have inLots : min level (s.size - 1) < s.lots.length := by
    unfold LadderSettings.size at *
    omega
  have inRewardRatios : min level (s.size - 1) < s.rewardRatios.length := same ▸ inLots
  have clamped : l.clamp level = min level (s.size - 1) := by rw [clamp, h.size_eq]
  constructor
  case inLots => rwa [clamped, h.lots]
  case inRewardRatios => rwa [clamped, h.rewardRatios]
  case rewardRatio =>
    refine ⟨inRewardRatios, ?_⟩
    rw [rewardRatioAt, clamped, h.rewardRatios, List.getElem?_eq_getElem inRewardRatios,
      Option.getD_some]
  case paused => exact fun paused => lotsAt_of_paused paused level
  case running =>
    intro running
    have entry : l.lotsAt level = s.lots[min level (s.size - 1)] := by
      rw [lotsAt, running, clamped, h.lots, List.getElem?_eq_getElem inLots]
      rfl
    refine ⟨inLots, entry, ?_⟩
    rw [entry]
    exact lt_of_isPositive (positive _ (List.getElem_mem inLots))

/-- **The ladder in closed form.** Valid settings make a ladder, and after any calls, refused
skips among them, it holds what the calls say and answers from the tables about every level. -/
theorem answers_run {s : LadderSettings} (valid : s.validate = .ok ()) :
    new s = .ok (start s) ∧
    ∀ calls, IsAfter s calls ((start s).run calls) ∧
      ∀ level, Answers s ((start s).run calls) level := by
  have none : s.faults = [] := firstFault_eq_ok.mp valid
  refine ⟨by rw [new, valid]; rfl, fun calls => ?_⟩
  have after := isAfter_run s calls
  exact ⟨after, after.answers none⟩

/-- A ladder of three levels. -/
def threeLevels : LadderSettings := ⟨[0.01, 0.02, 0.04], [2.0, 3.0, 4.0]⟩

/-- A win, a loss, a skip that is refused and one that is not, a pause, and losses past the top. -/
def climbingCalls : List LadderCall :=
  [.outcome .win, .outcome .loss, .skipTo 4, .skipTo 2, .pause, .outcome .breakeven,
    .outcome .loss, .outcome .loss]

theorem answers_run_climbing :
    threeLevels.validate = .ok () ∧
    (base 3 climbingCalls = 1 ∧ lossesSince 3 climbingCalls = 2) ∧
    ((start threeLevels).run climbingCalls).level = 2 ∧
    ((start threeLevels).run climbingCalls).lotsAt 7 = 0.0 ∧
    ((start threeLevels).run climbingCalls).rewardRatioAt 7 = 4.0 := by
  have valid : threeLevels.validate = .ok () := firstFault_eq_ok.mpr (by decide +kernel)
  obtain ⟨after, answers⟩ := (answers_run valid).2 climbingCalls
  refine ⟨valid, by decide, ?_, ?_, ?_⟩
  · rw [after.level]
    decide
  · exact (answers 7).paused (after.paused.mpr (by decide))
  · obtain ⟨_, found⟩ := (answers 7).rewardRatio
    exact found

end Ladder

end TrendLadder
