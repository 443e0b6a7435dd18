import Mathlib.Data.List.Forall2
import TrendLadder.Engine.Indicators
import TrendLadder.Proofs.Number.Negation
import TrendLadder.Proofs.Signal.Compose

/-!
# Mirrored markets

The mirror image of a candle has its prices negated, so that its high and its low change places.
On mirrored candles the indicators read mirrored: each average, level and extreme is the opposite
one, up is down, and the upper wick is the lower one. `a.Mirrors b` says that `b` is a mirror image
of `a`. The only candle whose reading has no mirror image is one that starts a trend without having
moved, since what has not risen starts a down trend on both sides of the mirror.
-/

namespace TrendLadder

/-! ## Related containers -/

/-- Two results of which both failed in the same way or both succeeded, with related values. -/
inductive ExceptRel {ε α β : Type} (r : α → β → Prop) : Except ε α → Except ε β → Prop
  | error (e : ε) : ExceptRel r (.error e) (.error e)
  | ok {a : α} {b : β} (h : r a b) : ExceptRel r (.ok a) (.ok b)

theorem ExceptRel.toOption {ε α β : Type} {r : α → β → Prop} {x : Except ε α} {y : Except ε β}
    (h : ExceptRel r x y) : Option.Rel r x.toOption y.toOption := by
  cases h with
  | error e => exact .none
  | ok h => exact .some h

/-- Two lists of recent items of one capacity, with related items. -/
structure Recent.Rel {α β : Type} (r : α → β → Prop) (a : Recent α) (b : Recent β) : Prop where
  capacity : b.capacity = a.capacity
  items : List.Forall₂ r a.items b.items

theorem forall₂_getLast? {α β : Type} {r : α → β → Prop} {l : List α} {m : List β}
    (h : List.Forall₂ r l m) : Option.Rel r l.getLast? m.getLast? := by
  have turned : List.Forall₂ r l.reverse m.reverse := List.rel_reverse h
  rw [List.getLast?_eq_head?_reverse, List.getLast?_eq_head?_reverse]
  generalize l.reverse = newest, m.reverse = newest2 at turned ⊢
  cases turned with
  | nil => exact .none
  | cons h _ => exact .some h

namespace Recent.Rel

variable {α β : Type} {r : α → β → Prop} {a : Recent α} {b : Recent β}

theorem empty (capacity : Nat) : Recent.Rel r (.empty capacity) (.empty capacity) := ⟨rfl, .nil⟩

theorem push (h : Recent.Rel r a b) {x : α} {y : β} (hx : r x y) :
    Recent.Rel r (a.push x) (b.push y) := by
  refine ⟨h.capacity, ?_⟩
  unfold Recent.push
  rw [← h.items.length_eq, h.capacity]
  dsimp only
  split
  · rw [← List.drop_one, ← List.drop_one]
    exact List.rel_append (List.forall₂_drop 1 h.items) (.cons hx .nil)
  · exact List.rel_append h.items (.cons hx .nil)

theorem clear (h : Recent.Rel r a b) : Recent.Rel r a.clear b.clear := ⟨h.capacity, .nil⟩

theorem latest (h : Recent.Rel r a b) : Option.Rel r a.latest b.latest := forall₂_getLast? h.items

theorem previous (h : Recent.Rel r a b) : Option.Rel r a.previous b.previous := by
  unfold Recent.previous
  rw [List.dropLast_eq_take, List.dropLast_eq_take, ← h.items.length_eq]
  exact forall₂_getLast? (List.forall₂_take _ h.items)

theorem size (h : Recent.Rel r a b) : b.size = a.size := h.items.length_eq.symm

end Recent.Rel

/-! ## Candles -/

/-- The other direction. -/
def TrendDirection.opposite : TrendDirection → TrendDirection
  | .up => .down
  | .down => .up
  | .unknown => .unknown

/-- The cross the other way. -/
def Cross.opposite : Cross → Cross
  | .bullish => .bearish
  | .bearish => .bullish

namespace Candle

/-- The candle with negated prices. -/
def mirror (c : Candle) : Candle :=
  { c with opening := -c.opening, high := -c.low, low := -c.high, closing := -c.closing }

theorem isVoid_mirror (c : Candle) : c.mirror.isVoid = c.isVoid := by
  unfold isVoid mirror
  simp only [isFinite_neg, Bool.and_assoc, Bool.and_left_comm c.low.isFinite]

theorem isSane_mirror (c : Candle) : c.mirror.isSane = c.isSane := by
  unfold isSane
  rw [isVoid_mirror]
  unfold mirror
  simp only [float_neg_le_neg]
  grind

theorem isBullish_mirror (c : Candle) : c.mirror.isBullish = c.isBearish :=
  decide_eq_decide.mpr float_neg_lt_neg

theorem isBearish_mirror (c : Candle) : c.mirror.isBearish = c.isBullish :=
  decide_eq_decide.mpr float_neg_lt_neg

theorem isBearish_of_isBullish {c : Candle} (h : c.isBullish = true) : c.isBearish = false :=
  decide_eq_false (float_lt_asymm (of_decide_eq_true h))

theorem polarity_mirror (c : Candle) : c.mirror.polarity = c.polarity.map Direction.opposite := by
  unfold polarity
  rw [isBullish_mirror, isBearish_mirror]
  cases rises : c.isBullish with
  | true =>
    rw [isBearish_of_isBullish rises]
    rfl
  | false => cases c.isBearish <;> rfl

theorem follows_mirror (c : Candle) (trend : TrendDirection) :
    c.mirror.follows trend.opposite = c.follows trend := by
  unfold follows
  rw [polarity_mirror]
  rcases c.polarity with _ | _ | _ <;> cases trend <;> rfl

theorem body_mirror (c : Candle) : Alike c.body c.mirror.body :=
  Opposite.abs (.sub (.refl _) (.refl _))

theorem upperWick_mirror (c : Candle) : Alike c.upperWick c.mirror.lowerWick := by
  unfold lowerWick mirror
  rw [minNum_neg_neg]
  exact Opposite.sub_swap (.refl _) (.refl _)

theorem lowerWick_mirror (c : Candle) : Alike c.lowerWick c.mirror.upperWick := by
  unfold upperWick mirror
  rw [maxNum_neg_neg]
  exact Opposite.sub_swap (.refl _) (.refl _)

end Candle

/-! ## Averages -/

theorem zero_opposite : Opposite 0.0 0.0 := .inl (by decide +kernel)

theorem minusZero_opposite : Opposite (-0.0) (-0.0) := .inl (by decide +kernel)

/-- The mean starts from a zero, whose sign is lost. -/
theorem simpleMean_mirror (period : Nat) {xs ys : List Float} (h : List.Forall₂ Opposite xs ys) :
    Opposite (simpleMean period xs) (simpleMean period ys) := by
  have total : ∀ {x y : Float}, Opposite x y →
      Opposite (xs.foldl (· + ·) x) (ys.foldl (· + ·) y) := by
    induction h with
    | nil => exact fun h => h
    | cons price _ ih => exact fun h => ih (h.add price)
  exact (total minusZero_opposite).div _

theorem exponentialMean_mirror (period : Nat) {xs ys : List Float}
    (h : List.Forall₂ Opposite xs ys) {x y : Float} (oldest : Opposite x y) :
    Opposite (exponentialMean period x xs) (exponentialMean period y ys) := by
  unfold exponentialMean
  dsimp only
  induction h generalizing x y with
  | nil => exact oldest
  | cons price _ ih =>
    exact ih (.add (.mul_left (.refl _) price) (.mul_left (.refl _) oldest))

theorem windowMean_mirror (method : AverageMethod) (period : Nat) {xs ys : List Float}
    (h : List.Forall₂ Opposite xs ys) :
    Opposite (windowMean method period xs) (windowMean method period ys) := by
  cases method with
  | simple => exact simpleMean_mirror period h
  | exponential =>
    cases h with
    | nil => exact zero_opposite
    | cons oldest later => exact exponentialMean_mirror period later oldest

theorem average_mirror {xs ys : List Float} (h : List.Forall₂ Opposite xs ys)
    (s : AverageSettings) : ExceptRel Opposite (average xs s) (average ys s) := by
  unfold average
  rw [h.length_eq]
  split
  · exact .error _
  · refine .ok (windowMean_mirror _ _ ?_)
    unfold AverageSettings.select
    rw [h.length_eq]
    exact List.forall₂_take _ (List.forall₂_drop _ h)

namespace AverageSeries

/-- The values of one average on both sides of the mirror. -/
structure Mirrors (a b : AverageSeries) : Prop where
  settings : b.settings = a.settings
  recent : Recent.Rel Opposite a.recent b.recent

theorem Mirrors.update {a b : AverageSeries} (h : a.Mirrors b) {xs ys : List Float}
    (closings : List.Forall₂ Opposite xs ys) :
    ExceptRel Opposite (a.update xs).1 (b.update ys).1 ∧
      (a.update xs).2.Mirrors (b.update ys).2 := by
  have averages := average_mirror closings a.settings
  unfold AverageSeries.update
  rw [h.settings]
  generalize average xs a.settings = x, average ys a.settings = y at averages ⊢
  cases averages with
  | error e => exact ⟨.error e, h⟩
  | ok value => exact ⟨.ok value, rfl, h.recent.push value⟩

theorem Mirrors.clear {a b : AverageSeries} (h : a.Mirrors b) : a.clear.Mirrors b.clear :=
  ⟨h.settings, h.recent.clear⟩

end AverageSeries

/-! ## Crossover -/

theorem crossOf_mirror {x1 x2 x3 x4 y1 y2 y3 y4 : Float} (h1 : Opposite x1 y1)
    (h2 : Opposite x2 y2) (h3 : Opposite x3 y3) (h4 : Opposite x4 y4) :
    crossOf y1 y2 y3 y4 = (crossOf x1 x2 x3 x4).map Cross.opposite := by
  have risen : y1 < y2 ∧ y4 < y3 ↔ x2 < x1 ∧ x3 < x4 :=
    and_congr (h2.lt_iff h1).symm (h3.lt_iff h4).symm
  have fallen : y2 < y1 ∧ y3 < y4 ↔ x1 < x2 ∧ x4 < x3 :=
    and_congr (h1.lt_iff h2).symm (h4.lt_iff h3).symm
  unfold crossOf
  simp only [risen, fallen]
  by_cases crosses : x1 < x2 ∧ x4 < x3
  · have other : ¬(x2 < x1 ∧ x3 < x4) := fun h => float_lt_asymm crosses.1 h.1
    rw [if_neg other, if_pos crosses, if_pos crosses]
    rfl
  · rw [if_neg crosses, if_neg crosses]
    split <;> rfl

structure CrossoverReading.Mirrors (a b : CrossoverReading) : Prop where
  fast : Option.Rel Opposite a.fast b.fast
  slow : Option.Rel Opposite a.slow b.slow
  cross : b.cross = a.cross.map Cross.opposite

namespace CrossoverDetector

structure Mirrors (a b : CrossoverDetector) : Prop where
  closings : Recent.Rel Opposite a.closings b.closings
  fast : a.fast.Mirrors b.fast
  slow : a.slow.Mirrors b.slow

namespace Mirrors

variable {a b : CrossoverDetector}

theorem new (settings : CrossoverSettings) (capacity : Nat) :
    (CrossoverDetector.new settings capacity).Mirrors (.new settings capacity) :=
  ⟨.empty _, ⟨rfl, .empty _⟩, ⟨rfl, .empty _⟩⟩

theorem crossover (h : a.Mirrors b) :
    ExceptRel (fun x y => y = x.map Cross.opposite) a.crossover b.crossover := by
  have fastBefore : Option.Rel Opposite a.fast.previous b.fast.previous := h.fast.recent.previous
  have slowBefore : Option.Rel Opposite a.slow.previous b.slow.previous := h.slow.recent.previous
  have fast : Option.Rel Opposite a.fast.latest b.fast.latest := h.fast.recent.latest
  have slow : Option.Rel Opposite a.slow.latest b.slow.latest := h.slow.recent.latest
  have missing : (⟨b.warmup, b.closings.size⟩ : InsufficientHistory) =
      ⟨a.warmup, a.closings.size⟩ := by
    unfold warmup
    rw [h.fast.settings, h.slow.settings, h.closings.size]
  unfold CrossoverDetector.crossover
  rw [missing]
  generalize a.fast.previous = x1, b.fast.previous = y1 at fastBefore ⊢
  generalize a.slow.previous = x2, b.slow.previous = y2 at slowBefore ⊢
  generalize a.fast.latest = x3, b.fast.latest = y3 at fast ⊢
  generalize a.slow.latest = x4, b.slow.latest = y4 at slow ⊢
  cases fastBefore <;> cases slowBefore <;> cases fast <;> cases slow <;> try exact .error _
  exact .ok (crossOf_mirror ‹_› ‹_› ‹_› ‹_›)

theorem update (h : a.Mirrors b) {x y : Float} (closing : Opposite x y) :
    (a.update x).1.Mirrors (b.update y).1 ∧ (a.update x).2.Mirrors (b.update y).2 := by
  have closings := h.closings.push closing
  have fast := h.fast.update closings.items
  have slow := h.slow.update closings.items
  have next : (a.update x).2.Mirrors (b.update y).2 := ⟨closings, fast.2, slow.2⟩
  have crosses := next.crossover
  refine ⟨⟨fast.1.toOption, slow.1.toOption, ?_⟩, next⟩
  show (b.update y).2.crossover.toOption.join =
    (a.update x).2.crossover.toOption.join.map Cross.opposite
  generalize (a.update x).2.crossover = made, (b.update y).2.crossover = made2 at crosses ⊢
  cases crosses with
  | error e => rfl
  | ok same => exact same

theorem reset (h : a.Mirrors b) : a.reset.Mirrors b.reset :=
  ⟨h.closings.clear, h.fast.clear, h.slow.clear⟩

end Mirrors

end CrossoverDetector

/-! ## Trend -/

structure TrendReading.Mirrors (a b : TrendReading) : Prop where
  value : Opposite a.value b.value
  direction : b.direction = a.direction.opposite
  reversed : b.reversed = a.reversed
  isContinuous : b.isContinuous = a.isContinuous

namespace TrendState

structure Mirrors (a b : TrendState) : Prop where
  level : Opposite a.level b.level
  extremePoint : Opposite a.extremePoint b.extremePoint
  acceleration : b.acceleration = a.acceleration
  direction : b.direction = a.direction.opposite
  isContinuous : b.isContinuous = a.isContinuous
  count : b.count = a.count

theorem Mirrors.unknown (step : Float) : (TrendState.unknown step).Mirrors (.unknown step) :=
  ⟨zero_opposite, zero_opposite, rfl, rfl, rfl, rfl⟩

theorem mirrors_seed (s : TrendSettings) {c : Candle} (sane : c.isSane = true)
    (moved : (c.closing == c.opening) = false) : (seed s c).Mirrors (seed s c.mirror) := by
  have finite : c.opening.isFinite = true ∧ c.closing.isFinite = true := by
    unfold Candle.isSane Candle.isVoid at sane
    grind
  unfold seed
  rw [Candle.isBullish_mirror]
  rcases float_lt_or_lt finite.2 finite.1 moved with falls | rises
  · have bearish : c.isBearish = true := decide_eq_true falls
    have bullish : c.isBullish = false := decide_eq_false (float_lt_asymm falls)
    rw [bearish, bullish]
    exact ⟨.refl _, .refl _, rfl, rfl, rfl, rfl⟩
  · have bullish : c.isBullish = true := decide_eq_true rises
    rw [bullish, Candle.isBearish_of_isBullish bullish]
    exact ⟨.refl _, .refl _, rfl, rfl, rfl, rfl⟩

namespace Mirrors

variable {a b : TrendState}

theorem nextLevel (h : a.Mirrors b) : Opposite a.nextLevel b.nextLevel := by
  unfold TrendState.nextLevel
  rw [h.acceleration]
  exact h.level.add (.mul_left (.refl _) (h.extremePoint.sub h.level))

theorem reverse (h : a.Mirrors b) (s : TrendSettings) (d : TrendDirection) {x y : Float}
    (extreme : Opposite x y) : (a.reverse s d x).Mirrors (b.reverse s d.opposite y) :=
  ⟨h.extremePoint, extreme, rfl, rfl, rfl, rfl⟩

theorem extend (h : a.Mirrors b) (s : TrendSettings) {x y : Option Float}
    (extreme : Option.Rel Opposite x y) : (a.extend s x).Mirrors (b.extend s y) := by
  have count : b.count + 1 = a.count + 1 := by rw [h.count]
  have continuous : decide (continuityThreshold ≤ b.count + 1) =
      decide (continuityThreshold ≤ a.count + 1) := by rw [count]
  cases extreme with
  | none => exact ⟨h.nextLevel, h.extremePoint, h.acceleration, h.direction, continuous, count⟩
  | some extreme =>
    have acceleration : minNum (b.acceleration + s.step) s.maximum =
      minNum (a.acceleration + s.step) s.maximum := by rw [h.acceleration]
    exact ⟨h.nextLevel, extreme, acceleration, h.direction, continuous, count⟩

theorem advance (h : a.Mirrors b) (s : TrendSettings) (c : Candle) :
    (b.advance s c.mirror).1 = (a.advance s c).1 ∧
      (a.advance s c).2.Mirrors (b.advance s c.mirror).2 := by
  have low : Opposite c.low c.mirror.high := .refl _
  have high : Opposite c.high c.mirror.low := .refl _
  have direction := h.direction
  unfold TrendState.advance
  cases moves : a.direction with
  | up =>
    have reaches : b.nextLevel < c.mirror.high ↔ c.low < a.nextLevel :=
      (low.lt_iff h.nextLevel).symm
    have further : c.mirror.low < b.extremePoint ↔ a.extremePoint < c.high :=
      (h.extremePoint.lt_iff high).symm
    rw [moves, TrendDirection.opposite] at direction
    rw [direction]
    simp only [reaches, further]
    split
    · exact ⟨rfl, h.reverse s .down low⟩
    · refine ⟨rfl, h.extend s ?_⟩
      split
      · exact .some high
      · exact .none
  | down =>
    have reaches : c.mirror.low < b.nextLevel ↔ a.nextLevel < c.high :=
      (h.nextLevel.lt_iff high).symm
    have further : b.extremePoint < c.mirror.high ↔ c.low < a.extremePoint :=
      (low.lt_iff h.extremePoint).symm
    rw [moves, TrendDirection.opposite] at direction
    rw [direction]
    simp only [reaches, further]
    split
    · exact ⟨rfl, h.reverse s .up high⟩
    · refine ⟨rfl, h.extend s ?_⟩
      split
      · exact .some low
      · exact .none
  | unknown =>
    have count : b.count + 1 = a.count + 1 := by rw [h.count]
    rw [moves, TrendDirection.opposite] at direction
    rw [direction]
    dsimp only
    rw [count]
    exact ⟨rfl, h.level, h.extremePoint, h.acceleration, rfl, rfl, rfl⟩

end Mirrors

end TrendState

namespace TrendDetector

structure Mirrors (a b : TrendDetector) : Prop where
  settings : b.settings = a.settings
  state : a.state.Mirrors b.state
  seen : b.seen = a.seen
  reversed : b.reversed = a.reversed

namespace Mirrors

variable {a b : TrendDetector}

theorem start (s : TrendSettings) : (TrendDetector.start s).Mirrors (.start s) :=
  ⟨rfl, .unknown _, rfl, rfl⟩

theorem reading (h : a.Mirrors b) : a.reading.Mirrors b.reading :=
  ⟨h.state.level, h.state.direction, h.reversed, h.state.isContinuous⟩

theorem next (h : a.Mirrors b) {c : Candle} (sane : c.isSane = true)
    (moved : a.seen = 0 → (c.closing == c.opening) = false) :
    (a.next c).Mirrors (b.next c.mirror) := by
  have advanced := h.state.advance a.settings c
  unfold TrendDetector.next
  rw [h.seen, h.settings]
  split
  · next unseen => exact ⟨rfl, TrendState.mirrors_seed _ sane (moved unseen), rfl, rfl⟩
  · exact ⟨rfl, advanced.2, rfl, advanced.1⟩

theorem evaluable (h : a.Mirrors b) : ExceptRel TrendReading.Mirrors a.evaluable b.evaluable := by
  unfold TrendDetector.evaluable
  rw [h.seen]
  split
  · exact .error _
  · exact .ok h.reading

theorem reset (h : a.Mirrors b) : a.reset.Mirrors b.reset := by
  unfold TrendDetector.reset
  rw [h.settings]
  exact start _

end Mirrors

end TrendDetector

/-! ## Golden candles -/

/-- A golden candle on both sides of the mirror; its wicks change places. -/
structure GoldenCandle.Mirrors (a b : GoldenCandle) : Prop where
  timestamp : b.timestamp = a.timestamp
  direction : b.direction = a.direction.opposite
  body : Alike a.body b.body
  upperWick : Alike a.upperWick b.lowerWick
  lowerWick : Alike a.lowerWick b.upperWick

inductive Verdict.Mirrors : Verdict → Verdict → Prop
  | valid {a b : GoldenCandle} (h : a.Mirrors b) : Mirrors (.valid a) (.valid b)
  | rejected (fs gs : List Flaw) : Mirrors (.rejected fs) (.rejected gs)

theorem SizeRule.flaws_eq_nil_of_alike (rule : SizeRule) {x y : Float} (h : Alike x y) :
    rule.flaws x = [] ↔ rule.flaws y = [] := by
  have small : x < rule.minSize ↔ y < rule.minSize := h.lt_iff (.refl _)
  unfold SizeRule.flaws
  simp only [small]
  split
  · exact iff_of_false (List.cons_ne_nil _ _) (List.cons_ne_nil _ _)
  · cases rule with
    | minimum baseSize => exact Iff.rfl
    | band minSize maxSize =>
      have large : maxSize < x ↔ maxSize < y := Alike.lt_iff (.refl _) h
      simp only [flawIf_eq_nil, large]

theorem volumeFlaws_mirror (multiplier : Float) (c : Candle) (previous : Option Candle) :
    volumeFlaws multiplier c.mirror (previous.map Candle.mirror) =
      volumeFlaws multiplier c previous := by
  cases previous <;> rfl

/-- The checks fail on both sides of the mirror or on none. -/
theorem PatternSettings.flaws_mirror (s : PatternSettings) (c : Candle) (previous : Option Candle)
    (trend : TrendDirection) :
    s.flaws c.mirror (previous.map Candle.mirror) trend.opposite = [] ↔
      s.flaws c previous trend = [] := by
  have limit : Alike (s.maxWickRatio * c.body) (s.maxWickRatio * c.mirror.body) :=
    .mul (.refl _) c.body_mirror
  have upper := limit.lt_iff c.upperWick_mirror
  have lower := limit.lt_iff c.lowerWick_mirror
  unfold PatternSettings.flaws
  simp only [List.append_eq_nil_iff, flawIf_eq_nil, Candle.follows_mirror, volumeFlaws_mirror,
    decide_eq_false_iff_not, s.size.flaws_eq_nil_of_alike c.body_mirror, upper, lower]
  -- the wicks are swapped, so their checks come in the other order
  exact and_congr (and_congr and_right_comm Iff.rfl) Iff.rfl

theorem PatternValidator.validate_mirror (v : PatternValidator) (c : Candle)
    (previous : Option Candle) (trend : TrendDirection) :
    (v.validate c previous trend).Mirrors
      (v.validate c.mirror (previous.map Candle.mirror) trend.opposite) := by
  have same := v.settings.flaws_mirror c previous trend
  unfold PatternValidator.validate
  rw [Candle.polarity_mirror]
  generalize v.settings.flaws c previous trend = fs at same ⊢
  generalize v.settings.flaws c.mirror (previous.map Candle.mirror) trend.opposite = gs at same ⊢
  cases c.polarity with
  | none => exact .rejected _ _
  | some direction =>
    cases fs with
    | nil =>
      rw [same.mpr rfl]
      exact .valid ⟨rfl, rfl, c.body_mirror, c.upperWick_mirror, c.lowerWick_mirror⟩
    | cons f fs =>
      cases gs with
      | nil => exact absurd (same.mp rfl) (List.cons_ne_nil _ _)
      | cons g gs => exact .rejected _ _

/-! ## Indicators -/

structure Observation.Mirrors (a b : Observation) : Prop where
  previous : b.previous = a.previous.map Candle.mirror
  trend : a.trend.Mirrors b.trend
  crossover : a.crossover.Mirrors b.crossover

structure Readings.Mirrors (a b : Readings) : Prop where
  trend : ExceptRel TrendReading.Mirrors a.trend b.trend
  crossover : ExceptRel (fun x y => y = x.map Cross.opposite) a.crossover b.crossover
  pattern : a.pattern.Mirrors b.pattern

def History.Mirrors (a b : History) : Prop := Recent.Rel (fun c d => d = c.mirror) a.recent b.recent

namespace History.Mirrors

variable {a b : History}

theorem latest (h : a.Mirrors b) : b.recent.latest = a.recent.latest.map Candle.mirror := by
  have latest := Recent.Rel.latest h
  generalize a.recent.latest = x, b.recent.latest = y at latest ⊢
  cases latest with
  | none => rfl
  | some same => exact congrArg some same

theorem push (h : a.Mirrors b) (c : Candle) : (a.push c).Mirrors (b.push c.mirror) := by
  have accepts : b.accepts c.mirror = a.accepts c := by
    unfold History.accepts
    rw [h.latest]
    cases a.recent.latest <;> rfl
  cases accepted : a.accepts c with
  | true =>
    rw [push_of_accepts accepted, push_of_accepts (accepts.trans accepted)]
    exact Recent.Rel.push h rfl
  | false =>
    rw [push_of_refused accepted, push_of_refused (accepts.trans accepted)]
    exact h

end History.Mirrors

namespace Indicators

structure Mirrors (a b : Indicators) : Prop where
  history : a.history.Mirrors b.history
  trend : a.trend.Mirrors b.trend
  crossover : a.crossover.Mirrors b.crossover

namespace Mirrors

variable {a b : Indicators}

theorem start (s : Settings) : (Indicators.start s (.start s.trend)).Mirrors
    (Indicators.start s (.start s.trend)) :=
  ⟨.empty _, .start _, .new _ _⟩

/-- **The indicators tell mirrored things of a mirrored candle,** if it moved or does not start a
trend. -/
theorem observe (h : a.Mirrors b) {c : Candle} (sane : c.isSane = true)
    (moved : a.trend.seen = 0 → (c.closing == c.opening) = false) :
    (a.observe c).1.Mirrors (b.observe c.mirror).1 ∧
      (a.observe c).2.Mirrors (b.observe c.mirror).2 := by
  have trend := h.trend.next sane moved
  have crossover := h.crossover.update (.refl (-c.closing) : Opposite c.closing c.mirror.closing)
  exact ⟨⟨h.history.latest, trend.reading, crossover.1⟩, h.history.push c, trend, crossover.2⟩

theorem readings (h : a.Mirrors b) {x y : Verdict} (pattern : x.Mirrors y) :
    (a.readings x).Mirrors (b.readings y) :=
  ⟨h.trend.evaluable, h.crossover.crossover, pattern⟩

theorem reset (h : a.Mirrors b) : a.reset.Mirrors b.reset :=
  ⟨Recent.Rel.clear h.history, h.trend.reset, h.crossover.reset⟩

end Mirrors

end Indicators

end TrendLadder
