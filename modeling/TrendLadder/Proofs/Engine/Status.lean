import TrendLadder.Proofs.Engine.Commands
import TrendLadder.Proofs.Number.Extremum
import TrendLadder.Proofs.Settings.Equality

/-!
# The status of a command

What an accepted command is told to have done, against what it did. A command is in effect if it
would leave the engine as it is (`Command.effect_eq_self_iff`), and `told_command` says that every
accepted command but one is told to have changed something exactly if it did. The exception is a
skip: it is always told to have changed something, so the pending skip given again is told so too
(`skip_told_twice`).

Whether a size moved is asked of the rule with `==`. The rule of a reached engine has no fault
(`Reached.size_faults`) and an allowed size gives it none, so neither holds a NaN or a negative zero
and equal rules are the same.
-/

namespace TrendLadder

/-! ## Rules that are equal -/

namespace SizeRule

variable {rule : SizeRule} {size : Float}

theorem pos_reals (valid : rule.faults = []) : ∀ x ∈ rule.reals, 0.0 < x := by
  cases rule with
  | minimum baseSize =>
    have base := lt_of_isPositive (faultUnless_eq_nil.mp valid)
    simpa [reals] using base
  | band minSize maxSize =>
    obtain ⟨least, most⟩ := List.append_eq_nil_iff.mp valid
    have low := lt_of_isPositive (faultUnless_eq_nil.mp least)
    have ordered := of_decide_eq_true (Bool.and_eq_true_iff.mp (faultUnless_eq_nil.mp most)).2
    simpa [reals] using ⟨low, float_lt_of_lt_of_le low ordered⟩

/-- Rules without a fault hold no NaN and no negative zero. -/
theorem beq_iff_eq {rule2 : SizeRule} (valid : rule.faults = []) (valid2 : rule2.faults = []) :
    (rule == rule2) = true ↔ rule = rule2 := by
  have zero : ¬0.0 < -0.0 := by decide +kernel
  constructor
  · exact comparesBy.eq_of_beq rule rule2
      (fun x hx same => zero (same ▸ pos_reals valid x hx))
      fun x hx same => zero (same ▸ pos_reals valid2 x hx)
  · rintro rfl
    exact comparesBy.beq_self rule fun x hx => isNaN_of_isFinite (isFinite_reals valid x hx)

theorem withMinSize_eq_self_iff : rule.withMinSize size = rule ↔ rule.minSize = size := by
  constructor
  · intro same
    rw [← same, minSize_withMinSize]
  · rintro rfl
    exact rule.withMinSize_minSize

end SizeRule

/-! ## Commands in effect -/

theorem Engine.withLadder_eq_self_iff {e : Engine} {l : Ladder} :
    e.withLadder l = e ↔ l = e.book.ladder := by
  constructor
  · intro same
    exact congrArg (fun x : Engine => x.book.ladder) same
  · rintro rfl
    rfl

namespace Command

/-- The engine already is as a command would have it. -/
def InEffect (e : Engine) : Command → Prop
  | .pause => e.book.ladder.paused = true
  | .resume => e.book.ladder.paused = false
  | .skipToLevel level =>
    e.book.ladder.level = level - 1 ∧ e.book.ladder.pendingSkip = some (level - 1)
  | .adjustMinSize size => e.pattern.settings.size.minSize = size
  | .ignoreAlert => e.ignoresAlert = true

instance (e : Engine) (c : Command) : Decidable (c.InEffect e) :=
  match c with
  | .pause | .resume | .adjustMinSize _ | .ignoreAlert => inferInstanceAs (Decidable (_ = _))
  | .skipToLevel _ => inferInstanceAs (Decidable (_ ∧ _))

/-- A jump to a level of the ladder. -/
def isSkip : Command → Bool
  | .skipToLevel _ => true
  | _ => false

/-- **A command is in effect if it would leave the engine as it is**, and only then. -/
theorem effect_eq_self_iff {e : Engine} {c : Command} : c.effect e = e ↔ c.InEffect e := by
  cases c with
  | pause | resume =>
    refine Engine.withLadder_eq_self_iff.trans ?_
    unfold InEffect
    obtain ⟨held, lots, ratios, paused, pending⟩ := e.book.ladder
    simp
  | skipToLevel level =>
    refine Engine.withLadder_eq_self_iff.trans ?_
    unfold InEffect
    obtain ⟨held, lots, ratios, paused, pending⟩ := e.book.ladder
    simp [@eq_comm _ held, @eq_comm _ pending]
  | adjustMinSize size =>
    refine Iff.trans ?_ SizeRule.withMinSize_eq_self_iff
    constructor
    · intro same
      exact congrArg (fun x : Engine => x.pattern.settings.size) same
    · intro same
      rw [effect, PatternValidator.withMinSize, same]
  | ignoreAlert =>
    constructor
    · intro same
      exact (congrArg Engine.ignoresAlert same).symm
    · intro same
      rw [effect, ← show e.ignoresAlert = true from same]

end Command

/-! ## What a command is told -/

/-- The status that says what became of a command. -/
def CommandStatus.ofTold : Except CommandError Bool → CommandStatus
  | .ok true => .applied
  | .ok false => .unchanged
  | .error error => .rejected error

namespace Engine

variable {s : Settings} {e : Engine} {c : Command}

theorem status_eq (e : Engine) (c : Command) : e.status c = .ofTold (e.command c) := by
  unfold status command
  rcases e.apply c with error | ⟨_ | _, next⟩ <;> rfl

theorem Reached.size_faults (h : Reached s e) : e.pattern.settings.size.faults = [] := by
  have keeps := keeps_pattern (P := fun v => v.settings.size.faults = [])
    fun allowed valid => (SizeRule.faults_withMinSize valid).mpr allowed
  refine keeps.reached ?_ h
  have valid := (Settings.sections_of_faults h.faults_eq_nil).2.1
  exact (List.append_eq_nil_iff.mp (List.append_eq_nil_iff.mp valid).1).1

/-- A skip is told to have changed something, and any other command unless it is in effect. -/
theorem command_of_valid (h : Reached s e) (valid : c.IsValid s) :
    e.command c = .ok (c.isSkip || !decide (c.InEffect e)) := by
  cases c with
  | pause =>
    show Except.ok (!e.book.ladder.paused) = .ok (false || !decide (e.book.ladder.paused = true))
    simp
  | resume =>
    show Except.ok e.book.ladder.paused = .ok (false || !decide (e.book.ladder.paused = false))
    simp
  | ignoreAlert =>
    show Except.ok (!e.ignoresAlert) = .ok (false || !decide (e.ignoresAlert = true))
    simp
  | skipToLevel level =>
    have inside : 1 ≤ level ∧ level ≤ e.book.ladder.size := by
      rw [h.under.size_eq]
      exact valid
    rw [command, apply_skipToLevel_of_valid inside]
    rfl
  | adjustMinSize size =>
    have allowed : e.pattern.settings.size.Allows size := by
      rw [SizeRule.Allows, h.maxSize?_eq]
      exact valid
    have moved := SizeRule.beq_iff_eq ((SizeRule.faults_withMinSize h.size_faults).mpr allowed)
      h.size_faults
    have same : (e.pattern.settings.size.withMinSize size == e.pattern.settings.size) =
        decide (e.pattern.settings.size.minSize = size) := by
      rw [Bool.eq_iff_iff, moved, SizeRule.withMinSize_eq_self_iff, decide_eq_true_iff]
    rw [command, apply, adjustMinSize, PatternValidator.adjustMinSize_of_allowed allowed]
    show Except.ok (_ != _) = .ok (false || !decide (e.pattern.settings.size.minSize = size))
    rw [Bool.false_or, ← same]
    rfl

/-- **Commands and what they are told.** At every reached engine the commands that are not valid are
refused. A valid one other than a skip is told to have changed something exactly if the engine is
another one after it, and given again it is told to have changed nothing. A skip is told to have
changed something each time, also where the engine stays as it is. -/
theorem told_command (h : Reached s e) (c : Command) :
    ((∃ error, e.command c = .error error) ↔ ¬c.IsValid s) ∧
    (e.command c = .ok true ↔
      c.IsValid s ∧ ((e.call (.command c)).2 ≠ e ∨ c.isSkip = true)) ∧
    (e.command c = .ok false ↔
      c.IsValid s ∧ (e.call (.command c)).2 = e ∧ c.isSkip = false) ∧
    (c.IsValid s → (e.call (.command c)).2.command c = .ok c.isSkip ∧
      ((e.call (.command c)).2.call (.command c)).2 = (e.call (.command c)).2) ∧
    e.status c = .ofTold (e.command c) := by
  have next : Reached s (e.call (.command c)).2 := h.call (.command c)
  by_cases valid : c.IsValid s
  · have made : (e.call (.command c)).2 = c.effect e := after_of_valid h valid
    have again : c.InEffect (e.call (.command c)).2 := by
      rw [← Command.effect_eq_self_iff, made, c.effect_effect]
    refine ⟨?_, ?_, ?_, fun _ => ⟨?_, ?_⟩, e.status_eq c⟩
    · rw [command_of_valid h valid]
      refine iff_of_false ?_ (not_not_intro valid)
      rintro ⟨error, refused⟩
      cases refused
    · rw [command_of_valid h valid, made, ne_eq, Command.effect_eq_self_iff]
      simp [valid, or_comm]
    · rw [command_of_valid h valid, made, Command.effect_eq_self_iff]
      simp [valid, and_comm]
    · rw [command_of_valid next valid]
      simp [again]
    · exact (after_of_valid next valid).trans (Command.effect_eq_self_iff.mpr again)
  · obtain ⟨refusal, refused⟩ := apply_of_invalid h valid
    have told : e.command c = .error refusal := by
      rw [command, refused]
      rfl
    have never (changed : Bool) : e.command c ≠ .ok changed := by
      rw [told]
      intro same
      cases same
    exact ⟨iff_of_true ⟨refusal, told⟩ valid, iff_of_false (never true) fun ok => valid ok.1,
      iff_of_false (never false) fun ok => valid ok.1, fun ok => absurd ok valid, e.status_eq c⟩

/-- A skip, and a pause twice. -/
theorem told_command_fallen :
    Reached turningSettings fallenEngine ∧
    fallenEngine.command (.skipToLevel 2) = .ok true ∧
    fallenEngine.command .pause = .ok true ∧
    (fallenEngine.call (.command .pause)).2.command .pause = .ok false ∧
    fallenEngine.status (.skipToLevel 4) = .ofTold (fallenEngine.command (.skipToLevel 4)) := by
  have skips := told_command reached_fallenEngine (.skipToLevel 2)
  have pauses := told_command reached_fallenEngine .pause
  have inside : 1 ≤ 2 ∧ 2 ≤ turningSettings.ladder.size := by decide
  have running : fallenEngine.book.ladder.paused = false := by decide +kernel
  refine ⟨reached_fallenEngine, skips.2.1.mpr ⟨inside, .inr rfl⟩,
    pauses.2.1.mpr ⟨trivial, .inl fun same => ?_⟩, (pauses.2.2.2.1 trivial).1,
    (told_command reached_fallenEngine (.skipToLevel 4)).2.2.2.2⟩
  have paused : (fallenEngine.call (.command .pause)).2.book.ladder.paused = true := rfl
  rw [same, running] at paused
  cases paused

/-- The pending skip given again leaves the engine as it is and is told to have changed
something. -/
theorem skip_told_twice :
    Reached turningSettings fallenEngine ∧
    fallenEngine.command (.skipToLevel 2) = .ok true ∧
    (fallenEngine.call (.command (.skipToLevel 2))).2.command (.skipToLevel 2) = .ok true ∧
    ((fallenEngine.call (.command (.skipToLevel 2))).2.call (.command (.skipToLevel 2))).2 =
      (fallenEngine.call (.command (.skipToLevel 2))).2 := by
  have inside : 1 ≤ 2 ∧ 2 ≤ turningSettings.ladder.size := by decide
  have told {e : Engine} (h : Reached turningSettings e) :
      e.command (.skipToLevel 2) = .ok true := command_of_valid h inside
  have made {e : Engine} (h : Reached turningSettings e) :
      (e.call (.command (.skipToLevel 2))).2 = (Command.skipToLevel 2).effect e :=
    after_of_valid h inside
  have skipped : Reached turningSettings (fallenEngine.call (.command (.skipToLevel 2))).2 :=
    reached_fallenEngine.call _
  refine ⟨reached_fallenEngine, told reached_fallenEngine, told skipped, ?_⟩
  rw [made skipped, made reached_fallenEngine, Command.effect_effect]

end Engine

end TrendLadder
