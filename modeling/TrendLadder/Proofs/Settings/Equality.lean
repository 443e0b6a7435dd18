import TrendLadder.Proofs.Settings.Reals

/-!
# Equal settings

Settings are compared with `==` field by field, and so as their doubles are. They are the same if
they are equal and hold no negative zero, and equal to themselves if all their doubles are numbers
(`Settings.comparesBy`).
-/

namespace TrendLadder

/-! ## Doubles -/

theorem unsigned_of_ne {x : Float} (h : x ≠ -0.0) : unsigned (unpacked x) = unpacked x := by
  cases u : unpacked x with
  | zero s =>
    cases s with
    | positive => rfl
    | negative => exact absurd (eq_of_unpacked_eq (u.trans rfl)) h
  | notANumber | infinity | finite => rfl

/-- Equal doubles are the same unless one of them is the negative zero. -/
theorem eq_of_float_beq {x y : Float} (hx : x ≠ -0.0) (hy : y ≠ -0.0) (h : (x == y) = true) :
    x = y := by
  have same := (unsigned_eq_iff _ _).mpr (.inl (beq_iff_compare.mp h))
  rw [unsigned_of_ne hx, unsigned_of_ne hy] at same
  exact eq_of_unpacked_eq same

/-- A double equals itself unless it is not a number. -/
theorem float_beq_self {x : Float} (h : x.isNaN = false) : (x == x) = true := by
  rcases (unsigned_eq_iff (unpacked x) (unpacked x)).mp rfl with same | ⟨nan, -⟩
  · exact beq_iff_compare.mpr same
  · rw [isNaN_iff.mpr nan] at h
    cases h

/-! ## Sections -/

/-- How `==` compares values with some doubles in them: values that are equal are the same unless
there is a negative zero, and a value equals itself unless a double is not a number. -/
structure ComparesBy {α : Type} [BEq α] (reals : α → List Float) : Prop where
  eq_of_beq : ∀ a b, (∀ x ∈ reals a, x ≠ -0.0) → (∀ x ∈ reals b, x ≠ -0.0) → (a == b) = true →
    a = b
  beq_self : ∀ a, (∀ x ∈ reals a, x.isNaN = false) → (a == a) = true

theorem comparesBy_list : ComparesBy (id : List Float → List Float) where
  eq_of_beq xs ys hx hy h := by
    induction xs generalizing ys with
    | nil =>
      cases ys with
      | nil => rfl
      | cons => cases h
    | cons x xs ih =>
      cases ys with
      | nil => cases h
      | cons y ys =>
        obtain ⟨first, others⟩ := Bool.and_eq_true_iff.mp h
        rw [eq_of_float_beq (hx x List.mem_cons_self) (hy y List.mem_cons_self) first,
          ih ys (fun z hz => hx z (List.mem_cons_of_mem x hz))
            (fun z hz => hy z (List.mem_cons_of_mem y hz)) others]
  beq_self xs h := by
    induction xs with
    | nil => rfl
    | cons x xs ih =>
      exact Bool.and_eq_true_iff.mpr ⟨float_beq_self (h x List.mem_cons_self),
        ih fun y hy => h y (List.mem_cons_of_mem x hy)⟩

theorem comparesBy_option : ComparesBy (Option.toList : Option Float → List Float) where
  eq_of_beq x y hx hy h := by
    cases x <;> cases y
    case none.none => rfl
    case some.some x y => rw [eq_of_float_beq (hx x (by simp)) (hy y (by simp)) h]
    case none.some | some.none => cases h
  beq_self x h := by
    cases x with
    | none => rfl
    | some x => exact float_beq_self (h x (by simp))

/-- A section that consists of its doubles and of a rest is compared as they are. -/
theorem ComparesBy.of_rest {α β : Type} [BEq α] {reals : α → List Float} (rest : α → β)
    (beq_iff : ∀ a b, (a == b) = true ↔ (reals a == reals b) = true ∧ rest a = rest b)
    (ext : ∀ a b, reals a = reals b → rest a = rest b → a = b) : ComparesBy reals where
  eq_of_beq a b ha hb h := by
    obtain ⟨same, others⟩ := (beq_iff a b).mp h
    exact ext a b (comparesBy_list.eq_of_beq _ _ ha hb same) others
  beq_self a h := (beq_iff a a).mpr ⟨comparesBy_list.beq_self _ h, rfl⟩

theorem TrendSettings.comparesBy : ComparesBy TrendSettings.reals := by
  refine .of_rest (fun _ => ()) (fun a b => ?_) (fun a b doubles _ => ?_)
  · show (a.step == b.step && a.maximum == b.maximum) = true ↔ _
    simp [reals]
  · obtain ⟨step, maximum⟩ := a
    obtain ⟨step', maximum'⟩ := b
    simpa [reals] using doubles

theorem AverageMethod.beq_iff_eq {a b : AverageMethod} : (a == b) = true ↔ a = b := by
  cases a <;> cases b <;> decide

theorem AverageSettings.beq_iff_eq {a b : AverageSettings} : (a == b) = true ↔ a = b := by
  obtain ⟨period, shift, method⟩ := a
  obtain ⟨period', shift', method'⟩ := b
  show (period == period' && (shift == shift' && method == method')) = true ↔ _
  simp [AverageMethod.beq_iff_eq]

theorem CrossoverSettings.beq_iff_eq {a b : CrossoverSettings} : (a == b) = true ↔ a = b := by
  obtain ⟨fast, slow⟩ := a
  obtain ⟨fast', slow'⟩ := b
  show (fast == fast' && slow == slow') = true ↔ _
  simp [AverageSettings.beq_iff_eq]

theorem SizeRule.comparesBy : ComparesBy SizeRule.reals := by
  refine .of_rest (fun r => r.maxSize?.isSome) (fun a b => ?_) (fun a b doubles kind => ?_)
  · cases a <;> cases b
    case minimum.minimum x y =>
      show (x == y) = true ↔ _
      simp [reals, maxSize?]
    case band.band x y z w =>
      show (x == z && y == w) = true ↔ _
      simp [reals, maxSize?]
    case minimum.band | band.minimum =>
      show false = true ↔ _
      simp [reals, maxSize?]
  · cases a <;> cases b
    case minimum.minimum | band.band => simpa [reals] using doubles
    case minimum.band | band.minimum => cases kind

theorem PatternSettings.comparesBy : ComparesBy PatternSettings.reals where
  eq_of_beq a b ha hb h := by
    obtain ⟨ratio, multiplier, rule⟩ := a
    obtain ⟨ratio', multiplier', rule'⟩ := b
    simp only [reals, List.forall_mem_cons, List.forall_mem_append] at ha hb
    obtain ⟨hratio, others⟩ := Bool.and_eq_true_iff.mp h
    obtain ⟨hmultiplier, hrule⟩ := Bool.and_eq_true_iff.mp others
    rw [eq_of_float_beq ha.1 hb.1 hratio,
      comparesBy_option.eq_of_beq _ _ ha.2.1 hb.2.1 hmultiplier,
      SizeRule.comparesBy.eq_of_beq _ _ ha.2.2 hb.2.2 hrule]
  beq_self a h := by
    simp only [reals, List.forall_mem_cons, List.forall_mem_append] at h
    exact Bool.and_eq_true_iff.mpr ⟨float_beq_self h.1, Bool.and_eq_true_iff.mpr
      ⟨comparesBy_option.beq_self _ h.2.1, SizeRule.comparesBy.beq_self _ h.2.2⟩⟩

theorem ConfidenceWeights.comparesBy : ComparesBy ConfidenceWeights.reals := by
  refine .of_rest (fun _ => ()) (fun a b => ?_) (fun a b doubles _ => ?_)
  · show (a.trend == b.trend && (a.crossover == b.crossover && a.pattern == b.pattern)) = true ↔ _
    simp [reals]
  · obtain ⟨trend, crossover, pattern⟩ := a
    obtain ⟨trend', crossover', pattern'⟩ := b
    simpa [reals] using doubles

theorem PricingSettings.comparesBy : ComparesBy PricingSettings.reals := by
  refine .of_rest (fun _ => ()) (fun a b => ?_) (fun a b doubles _ => ?_)
  · show (a.entryOffsetPoints == b.entryOffsetPoints && a.stopLossPoints == b.stopLossPoints) =
      true ↔ _
    simp [reals]
  · obtain ⟨offset, stop⟩ := a
    obtain ⟨offset', stop'⟩ := b
    simpa [reals] using doubles

theorem RiskSettings.comparesBy : ComparesBy RiskSettings.reals := by
  refine .of_rest maxSpreadPoints (fun a b => ?_) (fun a b doubles spread => ?_)
  · show (a.maxDrawdownPct == b.maxDrawdownPct && (a.maxDailyLossPct == b.maxDailyLossPct &&
      (a.marginMinimumPct == b.marginMinimumPct && a.maxSpreadPoints == b.maxSpreadPoints))) =
        true ↔ _
    simp [reals, and_assoc]
  · obtain ⟨drawdown, daily, margin, points⟩ := a
    obtain ⟨drawdown', daily', margin', points'⟩ := b
    obtain rfl : points = points' := spread
    simpa [reals] using doubles

theorem LadderSettings.comparesBy : ComparesBy LadderSettings.reals where
  eq_of_beq a b ha hb h := by
    obtain ⟨lots, ratios⟩ := a
    obtain ⟨lots', ratios'⟩ := b
    simp only [reals, List.forall_mem_append] at ha hb
    obtain ⟨hlots, hratios⟩ := Bool.and_eq_true_iff.mp h
    rw [comparesBy_list.eq_of_beq _ _ ha.1 hb.1 hlots,
      comparesBy_list.eq_of_beq _ _ ha.2 hb.2 hratios]
  beq_self a h := by
    simp only [reals, List.forall_mem_append] at h
    exact Bool.and_eq_true_iff.mpr
      ⟨comparesBy_list.beq_self _ h.1, comparesBy_list.beq_self _ h.2⟩

theorem PositionSettings.beq_iff_eq {a b : PositionSettings} : (a == b) = true ↔ a = b := by
  obtain ⟨one, most⟩ := a
  obtain ⟨one', most'⟩ := b
  show (one == one' && most == most') = true ↔ _
  simp

theorem SignalSettings.beq_iff {a b : SignalSettings} : (a == b) = true ↔
    a.requireGoldenCandle = b.requireGoldenCandle ∧ (a.weights == b.weights) = true := by
  show (a.requireGoldenCandle == b.requireGoldenCandle && a.weights == b.weights) = true ↔ _
  simp

theorem Settings.beq_iff {a b : Settings} : (a == b) = true ↔
    a.historyCapacity = b.historyCapacity ∧ (a.trend == b.trend) = true ∧
      a.crossover = b.crossover ∧ (a.pattern == b.pattern) = true ∧ (a.signal == b.signal) = true ∧
      (a.pricing == b.pricing) = true ∧ (a.ladder == b.ladder) = true ∧
      (a.risk == b.risk) = true ∧ a.positions = b.positions := by
  show (a.historyCapacity == b.historyCapacity && (a.trend == b.trend &&
    (a.crossover == b.crossover && (a.pattern == b.pattern && (a.signal == b.signal &&
      (a.pricing == b.pricing && (a.ladder == b.ladder && (a.risk == b.risk &&
        a.positions == b.positions)))))))) = true ↔ _
  simp [CrossoverSettings.beq_iff_eq, PositionSettings.beq_iff_eq]

theorem Settings.comparesBy : ComparesBy Settings.reals where
  eq_of_beq a b ha hb h := by
    simp only [reals, List.forall_mem_append] at ha hb
    obtain ⟨hcapacity, htrend, hcrossover, hpattern, hsignal, hpricing, hladder, hrisk,
      hpositions⟩ := beq_iff.mp h
    obtain ⟨hrequire, hweights⟩ := SignalSettings.beq_iff.mp hsignal
    have weights := ConfidenceWeights.comparesBy.eq_of_beq _ _ ha.2.2.1 hb.2.2.1 hweights
    have trend := TrendSettings.comparesBy.eq_of_beq _ _ ha.1 hb.1 htrend
    have pattern := PatternSettings.comparesBy.eq_of_beq _ _ ha.2.1 hb.2.1 hpattern
    have pricing := PricingSettings.comparesBy.eq_of_beq _ _ ha.2.2.2.1 hb.2.2.2.1 hpricing
    have ladder := LadderSettings.comparesBy.eq_of_beq _ _ ha.2.2.2.2.1 hb.2.2.2.2.1 hladder
    have risk := RiskSettings.comparesBy.eq_of_beq _ _ ha.2.2.2.2.2 hb.2.2.2.2.2 hrisk
    obtain ⟨_, _, _, _, ⟨_, _⟩, _, _, _, _⟩ := a
    obtain ⟨_, _, _, _, ⟨_, _⟩, _, _, _, _⟩ := b
    dsimp only at *
    subst_vars
    rfl
  beq_self a h := by
    simp only [reals, List.forall_mem_append] at h
    have weights := ConfidenceWeights.comparesBy.beq_self _ h.2.2.1
    exact beq_iff.mpr ⟨rfl, TrendSettings.comparesBy.beq_self _ h.1, rfl,
      PatternSettings.comparesBy.beq_self _ h.2.1, SignalSettings.beq_iff.mpr ⟨rfl, weights⟩,
      PricingSettings.comparesBy.beq_self _ h.2.2.2.1,
      LadderSettings.comparesBy.beq_self _ h.2.2.2.2.1,
      RiskSettings.comparesBy.beq_self _ h.2.2.2.2.2, rfl⟩

end TrendLadder
