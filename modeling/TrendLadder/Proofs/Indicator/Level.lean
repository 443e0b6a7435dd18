import TrendLadder.Proofs.Indicator.Trend
import TrendLadder.Proofs.Number.Range

/-!
# The level of the trend as a number

A level that is not a number is never passed by a candle, so it would keep its trend for ever.
`level_run` says when a detector gets there: exactly after a state that stalls, which has lost its
level to an infinity or weighs no distance with an infinite acceleration (`TrendState.Stalls`).
Under a maximum below one no state of any run over sane candles stalls; valid settings with a
greater one can (`level_lost`).

1. The next level is an approach to the extreme point, which is finite, and an approach fails
   exactly from a state that stalls (`Moves.isNaN_nextLevel_iff`).
2. A state is tame if its level is finite and either not past the extreme point or a finite distance
   away from it. An acceleration below one keeps states tame (`IsTame.advance`): the level stays
   between the old level and the extreme point or the latest candle, and where a distance overflows
   the prices on both sides of it are too far apart for a second one to overflow.
-/

namespace TrendLadder

/-! ## Prices in a direction -/

namespace Direction

variable {d : Direction} {x y z a : Float} {c : Candle}

theorem isFinite_leading (d : Direction) (sane : c.isSane = true) :
    (d.leading c).isFinite = true := by
  cases d with
  | buy => exact Candle.isFinite_high sane
  | sell => exact Candle.isFinite_low sane

theorem within_leading (d : Direction) (sane : c.isSane = true) :
    d.Within (d.leading c) (d.opposite.leading c) := by
  cases d <;> exact Candle.low_le_high sane

theorem not_isNaN_of_beyond (h : d.Beyond x y) : ¬x.isNaN = true ∧ ¬y.isNaN = true := by
  cases d with
  | buy => exact not_isNaN_of_le (float_le_of_lt h)
  | sell => exact (not_isNaN_of_le (float_le_of_lt h)).symm

/-- What lies between two finite prices is finite. -/
theorem Within.isFinite (h : d.Within x y) (h2 : d.Within y z) (hx : x.isFinite = true)
    (hz : z.isFinite = true) : y.isFinite = true := by
  cases d with
  | buy => exact isFinite_of_le_of_le hz hx h2 h
  | sell => exact isFinite_of_le_of_le hx hz h h2

theorem Within.mem_uIcc (h : d.Within x y) (h2 : d.Within y z) (hx : x.isFinite = true)
    (hz : z.isFinite = true) : rational y ∈ Set.uIcc (rational x) (rational z) := by
  have hy := h.isFinite h2 hx hz
  cases d with
  | buy => exact Set.mem_uIcc_of_ge (rational_le_of_le hz hy h2) (rational_le_of_le hy hx h)
  | sell => exact Set.mem_uIcc_of_le (rational_le_of_le hx hy h) (rational_le_of_le hy hz h2)

/-- An approach to a price ahead does not lead back. -/
theorem within_approach (ahead : d.Within y x) (nonneg : ¬a < 0.0)
    (number : ¬(x + a * (y - x)).isNaN = true) : d.Within (x + a * (y - x)) x := by
  cases d with
  | buy =>
    obtain ⟨hx, -⟩ := not_isNaN_of_le ahead
    have forward : ¬y - x < 0.0 :=
      fun less => float_not_lt_of_le ahead (float_sub_lt_zero_iff.mp less)
    exact float_le_of_not_lt hx number
      (float_add_not_lt (float_mul_not_lt_zero nonneg forward))
  | sell =>
    obtain ⟨-, hx⟩ := not_isNaN_of_le ahead
    have back : ¬-(y - x) < 0.0 := fun less =>
      float_not_lt_of_le ahead (float_zero_lt_sub_iff.mp (float_neg_lt_zero.mp less))
    have mirrored : x + a * (y - x) = x - -(y - x) * a := by
      rw [float_sub_eq_add_neg x, float_neg_mul, float_neg_neg, float_mul_comm]
    refine float_le_of_not_lt number hx ?_
    rw [mirrored]
    exact float_not_lt_sub (float_mul_not_lt_zero back nonneg)

end Direction

/-! ## States that stall -/

namespace TrendState

/-- A state from which no level follows: the level is infinite or no number, or it is at the extreme
point already and the acceleration is infinite. -/
def Stalls (t : TrendState) : Prop :=
  t.level.isFinite = false ∨ t.acceleration.isFinite = false ∧ (t.level == t.extremePoint) = true

instance (t : TrendState) : Decidable t.Stalls :=
  inferInstanceAs (Decidable (_ ∨ _))

/-- A trend that follows a finite extreme point, accelerated a number of times. -/
structure Moves (s : TrendSettings) (d : Direction) (t : TrendState) : Prop where
  direction : t.direction = d.trend
  extremePoint : t.extremePoint.isFinite = true
  acceleration : ∃ n, t.acceleration = s.accelerationAfter n

/-- A state of a trend whose level is finite, and either not past the extreme point or at a finite
distance from it. -/
structure IsTame (d : Direction) (t : TrendState) : Prop where
  direction : t.direction = d.trend
  level : t.level.isFinite = true
  near : d.Within t.extremePoint t.level ∨ (t.extremePoint - t.level).isFinite = true

variable {s : TrendSettings} {d : Direction} {t : TrendState} {c : Candle}

/-- The extreme point of a trend is not short of the candle that carried it on. -/
theorem within_carriedOn (finite : t.extremePoint.isFinite = true) (sane : c.isSane = true) :
    d.Within (t.carriedOn s d c).extremePoint (d.leading c) := by
  have number := d.not_isNaN_leading sane
  by_cases beyond : d.Beyond t.extremePoint (d.leading c)
  · rw [carriedOn, if_pos beyond]
    exact (Direction.isExtreme_singleton sane).within c (List.mem_singleton_self c)
  · rw [carriedOn, if_neg beyond]
    exact Direction.within_of_not_beyond (not_isNaN_of_isFinite finite) number beyond

namespace Moves

variable (moves : Moves s d t) (valid : s.faults = [])

include moves valid

theorem isNaN_nextLevel_iff : t.nextLevel.isNaN = true ↔ t.Stalls := by
  obtain ⟨n, acceleration⟩ := moves.acceleration
  refine isNaN_approach_iff moves.extremePoint ?_
  rw [acceleration]
  exact TrendSettings.accelerationAfter_pos valid n

/-- A level that is not a number follows exactly a state that stalls. -/
theorem isNaN_advance_iff (c : Candle) :
    (t.advance s c).2.level.isNaN = true ↔ t.Stalls := by
  rw [advance_of_trend moves.direction]
  split
  · next through =>
    have number := (Direction.not_isNaN_of_beyond through).1
    rw [moves.isNaN_nextLevel_iff valid] at number
    exact iff_of_false (not_isNaN_of_isFinite moves.extremePoint) number
  · exact moves.isNaN_nextLevel_iff valid

/-- A trend that stalls is frozen: no candle passes a level that is not a number. -/
theorem advance_of_stalls (stalls : t.Stalls) (c : Candle) :
    (t.advance s c).2.Stalls ∧ (t.advance s c).2.direction = t.direction ∧
      (t.advance s c).1 = false := by
  have lost := (moves.isNaN_advance_iff valid c).mpr stalls
  refine ⟨.inl (Bool.eq_false_of_not_eq_true fun finite => not_isNaN_of_isFinite finite lost), ?_⟩
  rw [advance_of_trend moves.direction, if_neg]
  · exact ⟨rfl, rfl⟩
  · intro through
    exact (Direction.not_isNaN_of_beyond through).1 ((moves.isNaN_nextLevel_iff valid).mpr stalls)

end Moves

namespace IsTame

theorem seed (s : TrendSettings) (sane : c.isSane = true) : ∃ d, IsTame d (.seed s c) := by
  obtain ⟨d, seeded⟩ := seed_cases s c
  rw [seeded]
  exact ⟨d, rfl, d.opposite.isFinite_leading sane, .inl (d.within_leading sane)⟩

variable (tame : IsTame d t) (moves : Moves s d t) (valid : s.faults = [])
  (maximum : s.maximum < 1.0)

include tame moves valid maximum

theorem not_stalls : ¬t.Stalls := by
  obtain ⟨n, acceleration⟩ := moves.acceleration
  rintro (lost | ⟨infinite, -⟩)
  · exact absurd tame.level (lost ▸ Bool.false_ne_true)
  · have finite : t.acceleration.isFinite = true := by
      rw [acceleration]
      exact isFinite_of_between (TrendSettings.accelerationAfter_pos valid n)
        (TrendSettings.accelerationAfter_lt_one valid maximum n)
    exact absurd finite (infinite ▸ Bool.false_ne_true)

/-- Without an overflow the next level is between level and extreme point. -/
theorem nextLevel_mem_uIcc (room : (t.extremePoint - t.level).isFinite = true) :
    t.nextLevel.isFinite = true ∧
      rational t.nextLevel ∈ Set.uIcc (rational t.level) (rational t.extremePoint) := by
  obtain ⟨n, acceleration⟩ := moves.acceleration
  refine approach_mem_uIcc tame.level moves.extremePoint room ?_ ?_ <;> rw [acceleration]
  · exact float_lt_asymm (TrendSettings.accelerationAfter_pos valid n)
  · exact TrendSettings.accelerationAfter_lt_one valid maximum n

/-- A candle that the next level has not passed keeps it finite. -/
theorem isFinite_nextLevel (sane : c.isSane = true)
    (held : d.Within (d.leading c) t.nextLevel) : t.nextLevel.isFinite = true := by
  rcases tame.near with ahead | room
  · -- the next level is between the level and the end of the candle, even if it overflowed
    obtain ⟨n, acceleration⟩ := moves.acceleration
    have number : ¬t.nextLevel.isNaN = true := by
      rw [moves.isNaN_nextLevel_iff valid]
      exact tame.not_stalls moves valid maximum
    have forward : d.Within t.nextLevel t.level := by
      refine Direction.within_approach ahead ?_ number
      rw [acceleration]
      exact float_lt_asymm (TrendSettings.accelerationAfter_pos valid n)
    exact held.isFinite forward (d.isFinite_leading sane) tame.level
  · exact (tame.nextLevel_mem_uIcc moves valid maximum room).1

/-- A price past the extreme point that the next level has passed is not far from it. -/
theorem isFinite_sub_of_past {price : Float} (finite : price.isFinite = true)
    (through : d.Beyond price t.nextLevel) (past : d.Beyond t.extremePoint price) :
    (price - t.extremePoint).isFinite = true := by
  have passed := Direction.within_of_beyond through
  have beside := Direction.within_of_beyond past
  by_cases room : (t.extremePoint - t.level).isFinite = true
  · obtain ⟨next, between⟩ := tame.nextLevel_mem_uIcc moves valid maximum room
    have inside := passed.mem_uIcc beside next moves.extremePoint
    have wide := Set.uIcc_subset_uIcc between Set.right_mem_uIcc inside
    rw [Set.uIcc_comm] at wide
    exact isFinite_sub_of_mem_uIcc moves.extremePoint finite tame.level wide
      (isFinite_sub_comm t.level t.extremePoint ▸ room)
  · have ahead := tame.near.resolve_right room
    have inside := beside.mem_uIcc ahead finite tame.level
    rw [Set.uIcc_comm] at inside
    exact isFinite_sub_or tame.level moves.extremePoint finite inside room

theorem advance (sane : c.isSane = true) : ∃ d2, IsTame d2 (t.advance s c).2 := by
  have near := d.opposite.isFinite_leading sane
  rw [advance_of_trend moves.direction]
  split
  · next through =>
    refine ⟨d.opposite, rfl, moves.extremePoint, ?_⟩
    rw [Direction.beyond_opposite] at through
    by_cases past : d.Beyond t.extremePoint (d.opposite.leading c)
    · exact .inr (tame.isFinite_sub_of_past moves valid maximum near through past)
    · refine .inl (Direction.within_of_not_beyond (not_isNaN_of_isFinite near)
        (not_isNaN_of_isFinite moves.extremePoint) ?_)
      rwa [Direction.beyond_opposite]
  · next held =>
    have number : ¬t.nextLevel.isNaN = true := by
      rw [moves.isNaN_nextLevel_iff valid]
      exact tame.not_stalls moves valid maximum
    have above : d.Within (d.opposite.leading c) t.nextLevel := by
      refine Direction.within_of_not_beyond (not_isNaN_of_isFinite near) number ?_
      rwa [← Direction.beyond_opposite]
    have below := (d.within_leading sane).trans above
    exact ⟨d, moves.direction, tame.isFinite_nextLevel moves valid maximum sane below,
      .inl ((within_carriedOn moves.extremePoint sane).trans below)⟩

end IsTame

end TrendState

/-! ## Runs of a detector -/

theorem candle_mem_of_mem_candlesSinceReset {calls : List TrendCall} {c : Candle}
    (h : c ∈ candlesSinceReset calls) : .candle c ∈ calls := by
  obtain ⟨call, mem, same⟩ := List.mem_filterMap.mp h
  have earlier := (List.rtakeWhile_suffix _ _).subset mem
  cases call with
  | candle c2 => exact Option.some.inj same ▸ earlier
  | reset => cases same

namespace TrendDetector

/-- What a candle of a log tells of the state before it: its level is no number exactly if that
state stalls, and a trend that stalls is frozen. -/
structure LevelFollows (x y : TrendEntry) : Prop where
  isNaN_iff : y.reading.value.isNaN = true ↔ x.state.Stalls
  frozen : x.state.Stalls →
    y.state.Stalls ∧ y.reading.direction = x.reading.direction ∧ y.reading.reversed = false

/-- What the levels of a log are. -/
structure HasLevels (s : TrendSettings) (log : List TrendEntry) : Prop where
  first : ∀ x ∈ log.head?, x.reading.value.isFinite = true
  follows : log.IsChain LevelFollows
  tame : s.maximum < 1.0 → ∀ x ∈ log, ∃ d, x.state.IsTame d

variable {s : TrendSettings} {d : TrendDetector} {log : List TrendEntry} {c : Candle}

theorem HasClosedForm.exists_moves (h : HasClosedForm s d log) (nonempty : log ≠ [])
    (sane : ∀ x ∈ log, x.candle.isSane = true) : ∃ direction, d.state.Moves s direction := by
  obtain ⟨direction, earlier, turn, rest, rfl, -, -, leg⟩ := h.leg nonempty
  refine ⟨direction, leg.direction, ?_, _, leg.acceleration⟩
  obtain ⟨c, mem, attained⟩ := leg.extremePoint.attained
  obtain ⟨x, hx, rfl⟩ := List.mem_map.mp mem
  rw [← attained]
  exact direction.isFinite_leading (sane x (List.mem_append_right _ hx))

theorem HasLevels.first_next (start : d.seen = 0) (settings : d.settings = s)
    (sane : c.isSane = true) : HasLevels s [d.entry c] := by
  have state : (d.entry c).state = .seed s c := by
    rw [entry, next, if_pos start, settings]
  obtain ⟨direction, tame⟩ := TrendState.IsTame.seed s sane
  rw [← state] at tame
  constructor
  case first =>
    intro x hx
    cases hx
    exact tame.level
  case follows => exact .singleton _
  case tame =>
    intro _ x hx
    rw [List.mem_singleton.mp hx]
    exact ⟨direction, tame⟩

theorem HasLevels.isTame_state (h : HasLevels s log) (form : HasClosedForm s d log)
    (nonempty : log ≠ []) (maximum : s.maximum < 1.0) {direction : Direction}
    (moves : d.state.Moves s direction) : d.state.IsTame direction := by
  obtain ⟨latest, ends⟩ := Option.isSome_iff_exists.mp (List.getLast?_isSome.mpr nonempty)
  obtain ⟨direction2, tame⟩ := h.tame maximum latest (List.mem_of_getLast? ends)
  rw [form.latest latest ends] at tame
  have same : direction = direction2 := by
    rw [← Direction.trend_inj, ← moves.direction, tame.direction]
  exact same ▸ tame

theorem HasLevels.later_next (h : HasLevels s log) (form : HasClosedForm s d log)
    (nonempty : log ≠ []) (valid : s.faults = []) {direction : Direction}
    (moves : d.state.Moves s direction) (sane : c.isSane = true) :
    HasLevels s (log ++ [d.entry c]) := by
  have seen : d.seen ≠ 0 := by
    rw [form.seen]
    exact fun zero => nonempty (List.length_eq_zero_iff.mp zero)
  have advanced : d.next c = ⟨s, (d.state.advance s c).2, d.seen + 1, (d.state.advance s c).1⟩ := by
    rw [next, if_neg seen, form.settings_eq]
  constructor
  case first =>
    intro x head
    rw [List.head?_append_of_ne_nil _ nonempty] at head
    exact h.first x head
  case follows =>
    refine List.isChain_append.mpr ⟨h.follows, .singleton _, ?_⟩
    intro latest last x here
    obtain rfl : d.entry c = x := by simpa using here
    have told := form.reading latest (List.mem_of_getLast? last)
    have state := form.latest latest last
    constructor
    case isNaN_iff =>
      rw [entry, advanced, state]
      exact moves.isNaN_advance_iff valid c
    case frozen =>
      rw [entry, advanced, state, told, state]
      exact fun stalls => moves.advance_of_stalls valid stalls c
  case tame =>
    intro maximum x hx
    rcases List.mem_append.mp hx with earlier | now
    · exact h.tame maximum x earlier
    · rw [List.mem_singleton.mp now, entry, advanced]
      exact (h.isTame_state form nonempty maximum moves).advance moves valid maximum sane

theorem hasLevels_run {d0 : TrendDetector} (built : new s = .ok d0) (calls : List TrendCall)
    (sane : ∀ c, .candle c ∈ calls → c.isSane = true) : HasLevels s (d0.run calls).1 := by
  have empty : HasLevels s [] :=
    ⟨fun _ mem => absurd mem (Option.not_mem_none _), .nil,
      fun _ _ mem => absurd mem List.not_mem_nil⟩
  induction calls using List.reverseRecOn with
  | nil => exact empty
  | append_singleton calls call ih =>
    have before : ∀ c, .candle c ∈ calls → c.isSane = true :=
      fun c hc => sane c (List.mem_append_left _ hc)
    obtain ⟨candles, form⟩ := hasClosedForm_run built calls before
    rw [run_concat]
    cases call with
    | reset => exact empty
    | candle c =>
      have sane2 := sane c (List.mem_append_right _ (List.mem_singleton_self _))
      by_cases nonempty : (d0.run calls).1 = []
      · rw [nonempty] at form
        show HasLevels s ((d0.run calls).1 ++ [_])
        rw [nonempty]
        exact .first_next form.seen form.settings_eq sane2
      · obtain ⟨direction, moves⟩ := form.exists_moves nonempty fun x hx => before _
          (candle_mem_of_mem_candlesSinceReset (candles ▸ List.mem_map_of_mem hx))
        exact (ih before).later_next form nonempty (new_eq_ok.mp built).1 moves sane2

/-- **When the level is a number.** After any sane candles and resets of a detector for valid
settings, the first level of the log is finite, and each later one is no number exactly if the state
before stalls, from where on the trend is frozen. Under a maximum below one no state stalls, so that
every level is finite and the next candle is compared with a number. -/
theorem level_run {d0 : TrendDetector} (built : new s = .ok d0) (calls : List TrendCall)
    (sane : ∀ c, .candle c ∈ calls → c.isSane = true) :
    (d0.run calls).1.map TrendEntry.candle = candlesSinceReset calls ∧
    (∀ x ∈ (d0.run calls).1.head?, x.reading.value.isFinite = true) ∧
    (d0.run calls).1.IsChain LevelFollows ∧
    (s.maximum < 1.0 → (∀ x ∈ (d0.run calls).1, x.reading.value.isFinite = true) ∧
      ((d0.run calls).1 ≠ [] → (d0.run calls).2.state.level.isFinite = true ∧
        ¬(d0.run calls).2.state.Stalls ∧ ¬(d0.run calls).2.state.nextLevel.isNaN = true)) := by
  have valid := (new_eq_ok.mp built).1
  obtain ⟨candles, form⟩ := hasClosedForm_run built calls sane
  have levels := hasLevels_run built calls sane
  refine ⟨candles, levels.first, levels.follows, fun maximum => ⟨?_, fun nonempty => ?_⟩⟩
  · intro x hx
    obtain ⟨direction, tame⟩ := levels.tame maximum x hx
    rw [form.reading x hx]
    exact tame.level
  · obtain ⟨direction, moves⟩ := form.exists_moves nonempty fun x hx => sane _
      (candle_mem_of_mem_candlesSinceReset (candles ▸ List.mem_map_of_mem hx))
    have tame := levels.isTame_state form nonempty maximum moves
    have goes := tame.not_stalls moves valid maximum
    exact ⟨tame.level, goes, fun nan => goes ((moves.isNaN_nextLevel_iff valid).mp nan)⟩

/-- Candles whose distances overflow: a rise, a fall through the level, and a rise again. -/
def wideCalls : List TrendCall :=
  [.candle ⟨⟨0, 0⟩, -1.7e308, 1.0e308, -1.7e308, 0.9e308, 500, 10⟩,
    .candle ⟨⟨3600, 0⟩, 1.2e308, 1.6e308, 1.1e308, 1.5e308, 500, 10⟩,
    .candle ⟨⟨7200, 0⟩, -1.6e308, -1.5e308, -1.7e308, -1.5e308, 500, 10⟩]

/-- Under a maximum of 0.2 the level is finite through all overflows. -/
theorem level_run_wide :
    new ⟨0.02, 0.2⟩ = .ok (start ⟨0.02, 0.2⟩) ∧ (∀ c, .candle c ∈ wideCalls → c.isSane = true) ∧
    (0.2 : Float) < 1.0 ∧
    ∀ x ∈ ((start ⟨0.02, 0.2⟩).run wideCalls).1, x.reading.value.isFinite = true := by
  have built : new ⟨0.02, 0.2⟩ = .ok (start ⟨0.02, 0.2⟩) :=
    new_eq_ok.mpr ⟨by decide +kernel, rfl⟩
  have sane : ∀ c ∈ wideCalls.filterMap TrendCall.candle?, c.isSane = true := by decide +kernel
  have calls (c : Candle) (mem : .candle c ∈ wideCalls) : c.isSane = true :=
    sane c (List.mem_filterMap.mpr ⟨_, mem, rfl⟩)
  have maximum : (0.2 : Float) < 1.0 := by decide +kernel
  exact ⟨built, calls, maximum, ((level_run built wideCalls calls).2.2.2 maximum).1⟩

/-- Two candles at one price. -/
def flatCalls : List TrendCall :=
  [.candle ⟨⟨0, 0⟩, 100.0, 100.0, 100.0, 100.0, 500, 10⟩,
    .candle ⟨⟨3600, 0⟩, 100.0, 100.0, 100.0, 100.0, 500, 10⟩]

/-- A candle far below zero, and three at one price above. -/
def leapingCalls : List TrendCall :=
  [.candle ⟨⟨0, 0⟩, -1.7e308, -1.0e308, -1.7e308, -1.1e308, 500, 10⟩,
    .candle ⟨⟨3600, 0⟩, 0.3e308, 0.3e308, 0.3e308, 0.3e308, 500, 10⟩,
    .candle ⟨⟨7200, 0⟩, 0.3e308, 0.3e308, 0.3e308, 0.3e308, 500, 10⟩,
    .candle ⟨⟨10800, 0⟩, 0.3e308, 0.3e308, 0.3e308, 0.3e308, 500, 10⟩]

/-- Valid settings lose the level: an infinite acceleration does on flat candles, and a finite one
above one on candles whose distance overflows. -/
theorem level_lost :
    (new ⟨1.0 / 0.0, 1.0 / 0.0⟩ = .ok (start ⟨1.0 / 0.0, 1.0 / 0.0⟩) ∧
      (∀ c ∈ candlesSinceReset flatCalls, c.isSane = true) ∧
      ((start ⟨1.0 / 0.0, 1.0 / 0.0⟩).run flatCalls).1.map (·.reading.value.isNaN) =
        [false, true]) ∧
    (new ⟨3.0, 3.0⟩ = .ok (start ⟨3.0, 3.0⟩) ∧
      (∀ c ∈ candlesSinceReset leapingCalls, c.isSane = true) ∧
      ((start ⟨3.0, 3.0⟩).run leapingCalls).1.map (·.reading.value.isNaN) =
        [false, false, false, true]) := by
  refine ⟨⟨new_eq_ok.mpr ⟨?_, rfl⟩, ?_, ?_⟩, new_eq_ok.mpr ⟨?_, rfl⟩, ?_, ?_⟩ <;> decide +kernel

end TrendDetector

end TrendLadder
