import Mathlib.Data.List.DropRight
import Mathlib.Logic.Function.Iterate
import TrendLadder.Indicator.Trend
import TrendLadder.Proofs.Market.Candle
import TrendLadder.Proofs.Settings.Reals
import TrendLadder.Proofs.Signal.Compose

/-!
# The trend in closed form

What a trend detector tells after any candles, in terms of the candles alone. The latest candle that
reversed the trend, or the first candle, starts a leg; `closedForm_run` says of every sequence of
sane candles that the count is the number of candles after the start of the leg, that the extreme
point is the extreme price of the leg, that the acceleration has grown once for each new extreme,
and that a leg that a reversal starts has its level at the extreme point before.

1. The two directions are one with the direction as a parameter: `Direction.leading` is the price of
   a candle that carries the trend on, and the leading price of the opposite direction is the one
   that may reverse it (`TrendState.advance_of_trend`).
2. `TrendState.IsLeg` is what one leg knows of itself. The first candle and a reversal start one
   (`isLeg_start`), any other candle makes it longer (`IsLeg.extend`). Both are carried through a
   run by `HasClosedForm.next`.
-/

namespace TrendLadder

/-! ## Prices in a direction -/

namespace Direction

variable {d : Direction} {x y z : Float} {c : Candle} {cs : List Candle}

instance : Decidable (d.Beyond x y) :=
  match d with
  | .buy => inferInstanceAs (Decidable (x < y))
  | .sell => inferInstanceAs (Decidable (y < x))

/-- The price of a candle that is farthest in a direction. -/
def leading (d : Direction) (c : Candle) : Float :=
  match d with
  | .buy => c.high
  | .sell => c.low

/-- The price is at the level or on the near side of it. -/
def Within (d : Direction) (level price : Float) : Prop :=
  match d with
  | .buy => price ≤ level
  | .sell => level ≤ price

/-- The price is the farthest one of some candles. -/
structure IsExtreme (d : Direction) (x : Float) (cs : List Candle) : Prop where
  attained : ∃ c ∈ cs, d.leading c = x
  within : ∀ c ∈ cs, d.Within x (d.leading c)

theorem not_isNaN_leading (d : Direction) (sane : c.isSane = true) :
    ¬(d.leading c).isNaN = true := by
  cases d with
  | buy => exact not_isNaN_of_isFinite (Candle.isFinite_high sane)
  | sell => exact not_isNaN_of_isFinite (Candle.isFinite_low sane)

theorem within_of_not_beyond (hx : ¬x.isNaN = true) (hy : ¬y.isNaN = true)
    (h : ¬d.Beyond x y) : d.Within x y := by
  cases d with
  | buy => exact float_le_of_not_lt hy hx h
  | sell => exact float_le_of_not_lt hx hy h

theorem within_of_beyond (h : d.Beyond x y) : d.Within y x := by
  cases d with
  | buy => exact float_le_of_lt h
  | sell => exact float_le_of_lt h

theorem Within.trans (h : d.Within x y) (h2 : d.Within y z) : d.Within x z := by
  cases d with
  | buy => exact float_le_trans h2 h
  | sell => exact float_le_trans h h2

/-- What is beyond a level is beyond all on the near side of it. -/
theorem Within.beyond (h : d.Within x y) (h2 : d.Beyond x z) : d.Beyond y z := by
  cases d with
  | buy => exact float_lt_of_le_of_lt h h2
  | sell => exact float_lt_of_lt_of_le h2 h

theorem isExtreme_singleton (sane : c.isSane = true) : d.IsExtreme (d.leading c) [c] where
  attained := ⟨c, List.mem_singleton_self c, rfl⟩
  within := by
    intro c2 hc2
    have number := d.not_isNaN_leading sane
    rw [List.mem_singleton.mp hc2]
    cases d <;> exact float_le_refl number

namespace IsExtreme

theorem not_isNaN (h : d.IsExtreme x cs) : ¬x.isNaN = true := by
  obtain ⟨c, hc, -⟩ := h.attained
  have within := h.within c hc
  cases d with
  | buy => exact (not_isNaN_of_le within).2
  | sell => exact (not_isNaN_of_le within).1

/-- A price beyond the extreme is one beyond each of the candles. -/
theorem beyond_iff (h : d.IsExtreme x cs) :
    d.Beyond x y ↔ ∀ c ∈ cs, d.Beyond (d.leading c) y := by
  constructor
  · exact fun beyond c hc => (h.within c hc).beyond beyond
  · intro beyond
    obtain ⟨c, hc, rfl⟩ := h.attained
    exact beyond c hc

theorem concat_of_beyond (h : d.IsExtreme x cs) (sane : c.isSane = true)
    (beyond : d.Beyond x (d.leading c)) : d.IsExtreme (d.leading c) (cs ++ [c]) where
  attained := ⟨c, List.mem_append_right _ (List.mem_singleton_self c), rfl⟩
  within := by
    intro c2 hc2
    rcases List.mem_append.mp hc2 with earlier | now
    · exact (within_of_beyond beyond).trans (h.within c2 earlier)
    · exact (isExtreme_singleton sane).within c2 now

theorem concat_of_not_beyond (h : d.IsExtreme x cs) (sane : c.isSane = true)
    (near : ¬d.Beyond x (d.leading c)) : d.IsExtreme x (cs ++ [c]) where
  attained := by
    obtain ⟨first, mem, same⟩ := h.attained
    exact ⟨first, List.mem_append_left _ mem, same⟩
  within := by
    intro c2 hc2
    rcases List.mem_append.mp hc2 with earlier | now
    · exact h.within c2 earlier
    · rw [List.mem_singleton.mp now]
      exact within_of_not_beyond h.not_isNaN (d.not_isNaN_leading sane) near

end IsExtreme

end Direction

/-! ## The acceleration -/

/-- The acceleration after a number of new extremes: each adds the step, up to the maximum. -/
def TrendSettings.accelerationAfter (s : TrendSettings) (extremes : Nat) : Float :=
  (fun a => minNum (a + s.step) s.maximum)^[extremes] s.step

theorem TrendSettings.accelerationAfter_succ (s : TrendSettings) (n : Nat) :
    s.accelerationAfter (n + 1) = minNum (s.accelerationAfter n + s.step) s.maximum :=
  Function.iterate_succ_apply' ..

section Acceleration

variable {s : TrendSettings} (valid : s.faults = [])

include valid

theorem TrendSettings.step_le_maximum : s.step ≤ s.maximum := by
  obtain ⟨step, maximum⟩ := pos_of_faults valid
  simp only [TrendSettings.faults, List.append_eq_nil_iff, faultUnless_eq_nil,
    Bool.not_eq_true', decide_eq_false_iff_not] at valid
  exact float_le_of_not_lt (not_isNaN_of_le (float_le_of_lt step)).2
    (not_isNaN_of_le (float_le_of_lt maximum)).2 valid.2

theorem TrendSettings.accelerationAfter_le (n : Nat) : s.accelerationAfter n ≤ s.maximum := by
  have least := step_le_maximum valid
  cases n with
  | zero => exact least
  | succ n =>
    rw [accelerationAfter_succ]
    exact minNum_le (not_isNaN_of_le least).2

/-- No new extreme makes the acceleration less than the step. -/
theorem TrendSettings.step_le_accelerationAfter (n : Nat) : s.step ≤ s.accelerationAfter n := by
  have least := step_le_maximum valid
  have number := (not_isNaN_of_le least).1
  induction n with
  | zero => exact float_le_refl number
  | succ n ih =>
    have grows : ¬s.accelerationAfter n + s.step < s.step := by
      rw [float_add_comm]
      refine float_add_not_lt (float_lt_asymm ?_)
      exact float_lt_of_lt_of_le (pos_of_faults valid).1 ih
    rw [accelerationAfter_succ, minNum]
    split
    · exact least
    · next sum =>
      split
      · exact least
      · exact float_le_of_not_lt number sum grows

theorem TrendSettings.accelerationAfter_pos (n : Nat) : 0.0 < s.accelerationAfter n :=
  float_lt_of_lt_of_le (pos_of_faults valid).1 (step_le_accelerationAfter valid n)

/-- Under a maximum below one the acceleration is always a part. -/
theorem TrendSettings.accelerationAfter_lt_one (maximum : s.maximum < 1.0) (n : Nat) :
    s.accelerationAfter n < 1.0 :=
  float_lt_of_le_of_lt (accelerationAfter_le valid n) maximum

end Acceleration

/-- The number of candles that set a new extreme, which is beyond all candles before. -/
def newExtremes (d : Direction) (before : List Candle) : List Candle → Nat
  | [] => 0
  | c :: cs =>
    (if ∀ b ∈ before, d.Beyond (d.leading b) (d.leading c) then 1 else 0) +
      newExtremes d (before ++ [c]) cs

theorem newExtremes_concat (d : Direction) (before cs : List Candle) (c : Candle) :
    newExtremes d before (cs ++ [c]) = newExtremes d before cs +
      if ∀ b ∈ before ++ cs, d.Beyond (d.leading b) (d.leading c) then 1 else 0 := by
  induction cs generalizing before with
  | nil => simp [newExtremes]
  | cons c2 cs ih =>
    rw [List.cons_append, newExtremes, newExtremes, ih, List.append_assoc, List.singleton_append,
      Nat.add_assoc]

/-! ## Legs -/

/-- A candle that the detector took, what it said, and the state after it. -/
structure TrendEntry where
  candle : Candle
  reading : TrendReading
  state : TrendState

namespace TrendState

variable {s : TrendSettings} {d : Direction} {t : TrendState} {turn : TrendEntry}
  {rest : List TrendEntry} {c : Candle}

theorem seed_cases (s : TrendSettings) (c : Candle) : ∃ d : Direction,
    seed s c = ⟨d.opposite.leading c, d.leading c, s.step, d.trend, false, 0⟩ := by
  unfold seed
  split
  · exact ⟨.buy, rfl⟩
  · exact ⟨.sell, rfl⟩

/-- The trend in a direction, carried on by a candle, which may set a new extreme point. -/
def carriedOn (s : TrendSettings) (d : Direction) (c : Candle) (t : TrendState) : TrendState :=
  t.extend s (if d.Beyond t.extremePoint (d.leading c) then some (d.leading c) else none)

/-- A later candle reverses the trend if it reaches through the next level, and else carries it
on. -/
theorem advance_of_trend (moves : t.direction = d.trend) (s : TrendSettings) (c : Candle) :
    t.advance s c =
      if d.opposite.Beyond t.nextLevel (d.opposite.leading c) then
        (true, t.reverse s d.opposite.trend (d.opposite.leading c))
      else (false, t.carriedOn s d c) := by
  unfold advance
  rw [moves]
  cases d <;> rfl

/-- What the state after a leg knows of it: a turn and the candles that carried the trend on. -/
structure IsLeg (s : TrendSettings) (d : Direction) (t : TrendState) (turn : TrendEntry)
    (rest : List TrendEntry) : Prop where
  direction : t.direction = d.trend
  directions : ∀ x ∈ turn :: rest, x.reading.direction = d.trend
  carried : ∀ x ∈ rest, x.reading.reversed = false
  count : t.count = rest.length
  isContinuous : t.isContinuous = true ↔ 3 ≤ rest.length
  extremePoint : d.IsExtreme t.extremePoint ((turn :: rest).map TrendEntry.candle)
  acceleration : t.acceleration =
    s.accelerationAfter (newExtremes d [turn.candle] (rest.map TrendEntry.candle))

theorem isLeg_start (turn : TrendEntry) (sane : turn.candle.isSane = true)
    (moves : turn.reading.direction = d.trend) (level : Float) :
    IsLeg s d ⟨level, d.leading turn.candle, s.step, d.trend, false, 0⟩ turn [] where
  direction := rfl
  directions := by
    intro x hx
    rw [List.mem_singleton.mp hx]
    exact moves
  carried := fun _ mem => absurd mem List.not_mem_nil
  count := rfl
  isContinuous := iff_of_false Bool.false_ne_true (Nat.not_succ_le_zero 2)
  extremePoint := Direction.isExtreme_singleton sane
  acceleration := rfl

theorem IsLeg.extend (h : IsLeg s d t turn rest) {x : TrendEntry}
    (sane : x.candle.isSane = true) (moves : x.reading.direction = d.trend)
    (carries : x.reading.reversed = false) :
    IsLeg s d (t.carriedOn s d x.candle) turn (rest ++ [x]) := by
  have candles : (turn :: (rest ++ [x])).map TrendEntry.candle =
      (turn :: rest).map TrendEntry.candle ++ [x.candle] := by
    simp
  have extremes : newExtremes d [turn.candle] ((rest ++ [x]).map TrendEntry.candle) =
      newExtremes d [turn.candle] (rest.map TrendEntry.candle) +
        if d.Beyond t.extremePoint (d.leading x.candle) then 1 else 0 := by
    rw [List.map_append, List.map_singleton, newExtremes_concat]
    simp only [h.extremePoint.beyond_iff, List.map_cons, List.singleton_append]
  constructor
  case direction => exact h.direction
  case directions =>
    intro y hy
    rw [← List.cons_append] at hy
    rcases List.mem_append.mp hy with earlier | now
    · exact h.directions y earlier
    · rw [List.mem_singleton.mp now]
      exact moves
  case carried =>
    intro y hy
    rcases List.mem_append.mp hy with earlier | now
    · exact h.carried y earlier
    · rw [List.mem_singleton.mp now]
      exact carries
  case count =>
    rw [List.length_append, ← h.count]
    rfl
  case isContinuous =>
    rw [List.length_append, ← h.count]
    exact decide_eq_true_iff
  case extremePoint =>
    rw [candles, carriedOn]
    by_cases beyond : d.Beyond t.extremePoint (d.leading x.candle)
    · rw [if_pos beyond]
      exact h.extremePoint.concat_of_beyond sane beyond
    · rw [if_neg beyond]
      exact h.extremePoint.concat_of_not_beyond sane beyond
  case acceleration =>
    rw [extremes, carriedOn]
    by_cases beyond : d.Beyond t.extremePoint (d.leading x.candle)
    · rw [if_pos beyond, if_pos beyond, TrendSettings.accelerationAfter_succ, ← h.acceleration]
      rfl
    · rw [if_neg beyond, if_neg beyond, Nat.add_zero, ← h.acceleration]
      rfl

end TrendState

/-! ## Runs of a detector -/

/-- What a detector is asked to do. -/
inductive TrendCall where
  | candle (c : Candle)
  | reset

def TrendCall.candle? : TrendCall → Option Candle
  | .candle c => some c
  | .reset => none

/-- The candles since the latest reset. -/
def candlesSinceReset (calls : List TrendCall) : List Candle :=
  (calls.rtakeWhile fun c => c.candle?.isSome).filterMap TrendCall.candle?

theorem candlesSinceReset_concat_candle (calls : List TrendCall) (c : Candle) :
    candlesSinceReset (calls ++ [.candle c]) = candlesSinceReset calls ++ [c] := by
  rw [candlesSinceReset, List.rtakeWhile_concat, if_pos (by rfl), List.filterMap_append]
  rfl

theorem candlesSinceReset_concat_reset (calls : List TrendCall) :
    candlesSinceReset (calls ++ [.reset]) = [] := by
  rw [candlesSinceReset, List.rtakeWhile_concat, if_neg (by decide)]
  rfl

namespace TrendDetector

/-- The log since the latest reset and the detector, after one more call. -/
def take (told : List TrendEntry × TrendDetector) : TrendCall → List TrendEntry × TrendDetector
  | .candle c =>
    let updated := told.2.update c
    (told.1 ++ [⟨c, updated.1, updated.2.state⟩], updated.2)
  | .reset => ([], told.2.reset)

/-- The log since the latest reset and the detector, after some calls. -/
def run (d : TrendDetector) (calls : List TrendCall) : List TrendEntry × TrendDetector :=
  calls.foldl take ([], d)

theorem run_concat (d : TrendDetector) (calls : List TrendCall) (call : TrendCall) :
    d.run (calls ++ [call]) = take (d.run calls) call := List.foldl_concat ..

/-- A log ends with a leg, which starts at the latest reversal or at the first candle. A reversal
puts the level at the extreme point before. -/
def EndsInLeg (s : TrendSettings) (t : TrendState) (log : List TrendEntry) : Prop :=
  ∃ direction earlier turn rest, log = earlier ++ turn :: rest ∧
    (turn.reading.reversed = true ∨ earlier = []) ∧
    (∀ before ∈ earlier.getLast?, turn.state.level = before.state.extremePoint) ∧
    t.IsLeg s direction turn rest

/-- A detector for some settings, and its log since the latest reset, in closed form. -/
structure HasClosedForm (s : TrendSettings) (d : TrendDetector) (log : List TrendEntry) :
    Prop where
  settings_eq : d.settings = s
  seen : d.seen = log.length
  latest : ∀ x ∈ log.getLast?, x.state = d.state
  reading : ∀ x ∈ log, x.reading =
    ⟨x.state.level, x.state.direction, x.reading.reversed, x.state.isContinuous⟩
  first : ∀ x ∈ log.head?, x.reading.reversed = false
  turns : log.IsChain fun x y =>
    y.reading.reversed = true ↔ y.reading.direction ≠ x.reading.direction
  leg : log ≠ [] → EndsInLeg s d.state log

variable {s : TrendSettings} {d : TrendDetector} {log : List TrendEntry} {c : Candle}

theorem new_eq_ok {d0 : TrendDetector} : new s = .ok d0 ↔ s.faults = [] ∧ d0 = start s := by
  unfold new TrendSettings.validate
  rw [← firstFault_eq_ok]
  cases firstFault s.faults with
  | error e => exact iff_of_false nofun nofun
  | ok u => exact ⟨fun h => ⟨rfl, (Except.ok.inj h).symm⟩, fun h => congrArg Except.ok h.2.symm⟩

@[simp] theorem seen_next (d : TrendDetector) (c : Candle) : (d.next c).seen = d.seen + 1 := by
  unfold next
  split
  · next h => rw [h]
  · rfl

@[simp] theorem settings_next (d : TrendDetector) (c : Candle) :
    (d.next c).settings = d.settings := by
  unfold next
  split <;> rfl

theorem hasClosedForm_start (s : TrendSettings) : HasClosedForm s (start s) [] where
  settings_eq := rfl
  seen := rfl
  latest := fun _ mem => absurd mem (Option.not_mem_none _)
  reading := fun _ mem => absurd mem List.not_mem_nil
  first := fun _ mem => absurd mem (Option.not_mem_none _)
  turns := .nil
  leg := fun h => absurd rfl h

/-- The entry that a detector adds to its log. -/
def entry (d : TrendDetector) (c : Candle) : TrendEntry := ⟨c, (d.next c).reading, (d.next c).state⟩

theorem HasClosedForm.first_next (h : HasClosedForm s d []) (sane : c.isSane = true) :
    HasClosedForm s (d.next c) [d.entry c] := by
  have next : d.next c = { d with state := .seed d.settings c, seen := 1, reversed := false } := by
    rw [TrendDetector.next, if_pos (show d.seen = 0 from h.seen)]
  constructor
  case settings_eq =>
    rw [next]
    exact h.settings_eq
  case seen => rw [next]; rfl
  case latest =>
    intro x hx
    cases hx
    rfl
  case reading =>
    intro x hx
    rw [List.mem_singleton.mp hx]
    rfl
  case first =>
    intro x hx
    cases hx
    show (d.next c).reversed = false
    rw [next]
  case turns => exact .singleton _
  case leg =>
    intro _
    obtain ⟨direction, seeded⟩ := TrendState.seed_cases s c
    have state : (d.next c).state = .seed s c := by rw [next, ← h.settings_eq]
    refine ⟨direction, [], d.entry c, [], rfl, .inr rfl,
      fun _ mem => absurd mem (Option.not_mem_none _), ?_⟩
    rw [state, seeded]
    refine TrendState.isLeg_start (d.entry c) sane ?_ _
    show (d.next c).state.direction = direction.trend
    rw [state, seeded]

section Step

variable {direction : Direction} (settings : d.settings = s) (seen : d.seen ≠ 0)
  (moves : d.state.direction = direction.trend)

include settings seen moves

theorem next_of_through
    (through : direction.opposite.Beyond d.state.nextLevel (direction.opposite.leading c)) :
    d.next c = ⟨s, d.state.reverse s direction.opposite.trend (direction.opposite.leading c),
      d.seen + 1, true⟩ := by
  rw [next, if_neg seen, settings, TrendState.advance_of_trend moves, if_pos through]

theorem next_of_held
    (held : ¬direction.opposite.Beyond d.state.nextLevel (direction.opposite.leading c)) :
    d.next c = ⟨s, d.state.carriedOn s direction c, d.seen + 1, false⟩ := by
  rw [next, if_neg seen, settings, TrendState.advance_of_trend moves, if_neg held]

end Step

/-- What a later candle adds to the closed form, whether it turns the trend or not. -/
theorem HasClosedForm.concat (h : HasClosedForm s d log) (nonempty : log ≠ [])
    {direction : Direction} (moves : d.state.direction = direction.trend)
    (turned : (d.entry c).reading.reversed = true ↔
      (d.entry c).reading.direction ≠ direction.trend)
    (leg : EndsInLeg s (d.next c).state (log ++ [d.entry c])) :
    HasClosedForm s (d.next c) (log ++ [d.entry c]) := by
  constructor
  case settings_eq => rw [settings_next, h.settings_eq]
  case seen => rw [seen_next, h.seen, List.length_append, List.length_singleton]
  case latest =>
    intro x last
    rw [List.getLast?_concat, Option.mem_some_iff] at last
    rw [← last]
    rfl
  case reading =>
    intro x hx
    rcases List.mem_append.mp hx with earlier | now
    · exact h.reading x earlier
    · rw [List.mem_singleton.mp now]
      rfl
  case first =>
    intro x head
    rw [List.head?_append_of_ne_nil _ nonempty] at head
    exact h.first x head
  case turns =>
    refine List.isChain_append.mpr ⟨h.turns, .singleton _, ?_⟩
    intro before last x here
    obtain rfl : d.entry c = x := by simpa using here
    have kept : before.reading.direction = direction.trend := by
      rw [h.reading before (List.mem_of_getLast? last), ← moves, h.latest before last]
    rw [kept]
    exact turned
  case leg => exact fun _ => leg

theorem HasClosedForm.later_next (h : HasClosedForm s d log) (nonempty : log ≠ [])
    (sane : c.isSane = true) : HasClosedForm s (d.next c) (log ++ [d.entry c]) := by
  have seen : d.seen ≠ 0 := by
    rw [h.seen]
    exact fun zero => nonempty (List.length_eq_zero_iff.mp zero)
  obtain ⟨direction, earlier, turn, rest, rfl, starts, level, leg⟩ := h.leg nonempty
  have entry : d.entry c = ⟨c, (d.next c).reading, (d.next c).state⟩ := rfl
  by_cases through : direction.opposite.Beyond d.state.nextLevel (direction.opposite.leading c)
  · rw [next_of_through h.settings_eq seen leg.direction through] at entry
    have turns : (d.entry c).reading.direction = direction.opposite.trend := by rw [entry]; rfl
    have other : direction.opposite.trend ≠ direction.trend := by cases direction <;> exact nofun
    refine h.concat nonempty leg.direction ?_ ?_
    · rw [turns, entry]
      exact iff_of_true rfl other
    · refine ⟨direction.opposite, _, d.entry c, [], rfl, .inl (by rw [entry]; rfl), ?_, ?_⟩
      · intro before last
        rw [h.latest before last, entry]
        rfl
      · rw [next_of_through h.settings_eq seen leg.direction through]
        exact TrendState.isLeg_start (d.entry c) sane turns _
  · rw [next_of_held h.settings_eq seen leg.direction through] at entry
    have carries : (d.entry c).reading.direction = direction.trend := by
      rw [entry]
      exact leg.direction
    refine h.concat nonempty leg.direction ?_ ?_
    · rw [carries, entry]
      exact iff_of_false Bool.false_ne_true (absurd rfl)
    · refine ⟨direction, earlier, turn, rest ++ [d.entry c], by simp, starts, level, ?_⟩
      rw [next_of_held h.settings_eq seen leg.direction through]
      exact leg.extend (x := d.entry c) sane carries (by rw [entry]; rfl)

theorem HasClosedForm.next (h : HasClosedForm s d log) (sane : c.isSane = true) :
    HasClosedForm s (d.next c) (log ++ [d.entry c]) := by
  cases log with
  | nil => exact h.first_next sane
  | cons x xs => exact h.later_next (List.cons_ne_nil x xs) sane

/-- The log of a run tells the candles since the latest reset, and log and detector are in closed
form. -/
theorem hasClosedForm_run {d0 : TrendDetector} (built : new s = .ok d0) (calls : List TrendCall)
    (sane : ∀ c, .candle c ∈ calls → c.isSane = true) :
    (d0.run calls).1.map TrendEntry.candle = candlesSinceReset calls ∧
    HasClosedForm s (d0.run calls).2 (d0.run calls).1 := by
  obtain ⟨-, rfl⟩ := new_eq_ok.mp built
  clear built
  induction calls using List.reverseRecOn with
  | nil => exact ⟨rfl, hasClosedForm_start s⟩
  | append_singleton calls call ih =>
    obtain ⟨candles, form⟩ := ih fun c hc => sane c (List.mem_append_left _ hc)
    rw [run_concat]
    cases call with
    | candle c =>
      rw [candlesSinceReset_concat_candle, ← candles]
      refine ⟨List.map_append, form.next (sane c ?_)⟩
      exact List.mem_append_right _ (List.mem_singleton_self _)
    | reset =>
      rw [candlesSinceReset_concat_reset]
      refine ⟨rfl, ?_⟩
      show HasClosedForm s (start ((start s).run calls).2.settings) []
      rw [form.settings_eq]
      exact hasClosedForm_start s

/-- **The trend in closed form.** After any sane candles and resets of a detector for valid
settings, its log tells the candles since the latest reset, and readings and state are those that
the legs of the trend determine; the acceleration never exceeds the maximum. -/
theorem closedForm_run {d0 : TrendDetector} (built : new s = .ok d0) (calls : List TrendCall)
    (sane : ∀ c, .candle c ∈ calls → c.isSane = true) :
    (d0.run calls).1.map TrendEntry.candle = candlesSinceReset calls ∧
    HasClosedForm s (d0.run calls).2 (d0.run calls).1 ∧
    ((d0.run calls).1 ≠ [] → (d0.run calls).2.state.acceleration ≤ s.maximum) := by
  obtain ⟨candles, form⟩ := hasClosedForm_run built calls sane
  refine ⟨candles, form, fun nonempty => ?_⟩
  obtain ⟨direction, earlier, turn, rest, -, -, -, leg⟩ := form.leg nonempty
  rw [leg.acceleration]
  exact TrendSettings.accelerationAfter_le (new_eq_ok.mp built).1 _

/-- A candle, a reset, two candles of a rise, and one that falls through the level. -/
def turnedCalls : List TrendCall :=
  [.candle ⟨⟨0, 0⟩, 90.0, 91.0, 89.0, 89.5, 500, 10⟩, .reset,
    .candle ⟨⟨3600, 0⟩, 100.0, 110.0, 99.0, 109.0, 500, 10⟩,
    .candle ⟨⟨7200, 0⟩, 111.0, 114.0, 110.5, 113.0, 500, 10⟩,
    .candle ⟨⟨10800, 0⟩, 113.0, 113.5, 98.0, 99.0, 500, 10⟩]

/-- The fall starts a leg, whose level is the high of the rise. -/
theorem closedForm_run_turned :
    new ⟨0.02, 0.2⟩ = .ok (start ⟨0.02, 0.2⟩) ∧
    (∀ c, .candle c ∈ turnedCalls → c.isSane = true) ∧
    HasClosedForm ⟨0.02, 0.2⟩ ((start ⟨0.02, 0.2⟩).run turnedCalls).2
      ((start ⟨0.02, 0.2⟩).run turnedCalls).1 ∧
    ((start ⟨0.02, 0.2⟩).run turnedCalls).2.reversed = true ∧
    ((start ⟨0.02, 0.2⟩).run turnedCalls).2.state.level = 114.0 := by
  have built : new ⟨0.02, 0.2⟩ = .ok (start ⟨0.02, 0.2⟩) :=
    new_eq_ok.mpr ⟨by decide +kernel, rfl⟩
  have sane : ∀ c ∈ turnedCalls.filterMap TrendCall.candle?, c.isSane = true := by decide +kernel
  have calls (c : Candle) (mem : .candle c ∈ turnedCalls) : c.isSane = true :=
    sane c (List.mem_filterMap.mpr ⟨_, mem, rfl⟩)
  exact ⟨built, calls, (closedForm_run built turnedCalls calls).2.1, by decide +kernel,
    by decide +kernel⟩

end TrendDetector

end TrendLadder
