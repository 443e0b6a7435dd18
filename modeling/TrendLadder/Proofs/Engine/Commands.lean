import TrendLadder.Proofs.Engine.Entry
import TrendLadder.Proofs.Pattern.LowerBound

/-!
# Commands

What a command does at a reached engine. `Command.IsValid` says which commands the settings allow
and `Command.effect` what such a command makes of an engine; `effect_command` says that exactly the
valid commands are accepted, that any other leaves the engine as it is, that an accepted one touches
its own part of the engine only (`Engine.SameBut`), and that giving it twice is giving it once.

A size is checked against the upper bound that the validator holds by then. That it is still the
one of the settings is an invariant of the run (`Reached.maxSize?_eq`): commands move the lower
bound alone.
-/

namespace TrendLadder

/-! ## What a command asks for -/

namespace Command

/-- The settings allow a command: a level is one of the ladder, and a size can be the lower
bound. -/
def IsValid (s : Settings) : Command → Prop
  | .skipToLevel level => 1 ≤ level ∧ level ≤ s.ladder.size
  | .adjustMinSize size => s.pattern.size.Allows size
  | .pause => True
  | .resume => True
  | .ignoreAlert => True

/-- What a valid command makes of an engine. -/
def effect (e : Engine) : Command → Engine
  | .pause => e.withLadder { e.book.ladder with paused := true }
  | .resume => e.withLadder { e.book.ladder with paused := false }
  | .skipToLevel level =>
    e.withLadder { e.book.ladder with level := level - 1, pendingSkip := some (level - 1) }
  | .adjustMinSize size => { e with pattern := e.pattern.withMinSize size }
  | .ignoreAlert => { e with ignoresAlert := true }

theorem effect_effect (e : Engine) (c : Command) : c.effect (c.effect e) = c.effect e := by
  cases c with
  | pause | resume | skipToLevel | ignoreAlert => rfl
  | adjustMinSize size => simp [effect, PatternValidator.withMinSize]

end Command

namespace Engine

/-- An engine after a command is the one before it but for the part that the command is about. The
history of candles is one of the indicators. -/
structure SameBut (c : Command) (e next : Engine) : Prop where
  settings : next.settings = e.settings
  fingerprint : next.fingerprint = e.fingerprint
  indicators : next.indicators = e.indicators
  gate : next.book.gate = e.book.gate
  ledger : next.book.ledger = e.book.ledger
  account : next.account = e.account
  latest : next.latest = e.latest
  lots : next.book.ladder.lots = e.book.ladder.lots
  rewardRatios : next.book.ladder.rewardRatios = e.book.ladder.rewardRatios
  paused : c ≠ .pause → c ≠ .resume → next.book.ladder.paused = e.book.ladder.paused
  level : (∀ level, c ≠ .skipToLevel level) → next.book.ladder.level = e.book.ladder.level
  pendingSkip : (∀ level, c ≠ .skipToLevel level) →
    next.book.ladder.pendingSkip = e.book.ladder.pendingSkip
  /-- Of the bounds of a golden candle the lower one of the body may move. -/
  bounds : next.pattern = e.pattern.withMinSize next.pattern.settings.size.minSize
  minSize : (∀ size, c ≠ .adjustMinSize size) → next.pattern = e.pattern
  ignoresAlert : c ≠ .ignoreAlert → next.ignoresAlert = e.ignoresAlert

theorem sameBut_effect (e : Engine) (c : Command) : SameBut c e (c.effect e) := by
  have still : e.pattern = e.pattern.withMinSize e.pattern.settings.size.minSize := by
    simp [PatternValidator.withMinSize]
  cases c with
  | pause | resume | skipToLevel level =>
    constructor <;> first | exact still | simp [Command.effect, withLadder]
  | adjustMinSize size =>
    constructor <;> simp [Command.effect, PatternValidator.withMinSize]
  | ignoreAlert => constructor <;> first | exact still | simp [Command.effect]

/-! ## What becomes of a command -/

section Apply

variable {s : Settings} {e : Engine} {c : Command}

theorem apply_skipToLevel_of_valid {level : Nat} (valid : 1 ≤ level ∧ level ≤ e.book.ladder.size) :
    e.apply (.skipToLevel level) = .ok (true, (Command.skipToLevel level).effect e) := by
  rw [apply, skipTo, Ladder.skipTo_eq_ok.mpr ⟨valid.1, valid.2, rfl⟩]
  rfl

theorem apply_skipToLevel_of_invalid {level : Nat}
    (invalid : ¬(1 ≤ level ∧ level ≤ e.book.ladder.size)) :
    ∃ refusal, e.apply (.skipToLevel level) = .error refusal := by
  refine ⟨.levelOutOfRange ⟨level, e.book.ladder.size⟩, ?_⟩
  have outside : level = 0 ∨ e.book.ladder.size < level := by omega
  rw [apply, skipTo, Ladder.skipTo, if_pos outside]

/-- A command leaves the validator as it is or moves the lower bound of the body to a size that can
be one. -/
theorem pattern_after_cases (e : Engine) (c : Command) : (e.after c).pattern = e.pattern ∨
    ∃ size, e.pattern.settings.size.Allows size ∧
      (e.after c).pattern = e.pattern.withMinSize size := by
  unfold after
  cases c with
  | pause | resume | ignoreAlert => exact .inl rfl
  | skipToLevel level =>
    rw [apply, skipTo]
    cases e.book.ladder.skipTo level <;> exact .inl rfl
  | adjustMinSize size =>
    rw [apply, adjustMinSize]
    by_cases allowed : e.pattern.settings.size.Allows size
    · rw [PatternValidator.adjustMinSize_of_allowed allowed]
      exact .inr ⟨size, allowed, rfl⟩
    · obtain ⟨reason, refused⟩ := PatternValidator.adjustMinSize_of_forbidden allowed
      rw [refused]
      exact .inl rfl

theorem keeps_pattern {P : PatternValidator → Prop}
    (adjusts : ∀ {v : PatternValidator} {size : Float}, v.settings.size.Allows size → P v →
      P (v.withMinSize size)) :
    Keeps fun e => P e.pattern := by
  constructor
  case command =>
    intro e c holds
    rcases e.pattern_after_cases c with same | ⟨size, allowed, adjusted⟩
    · rwa [same]
    · rw [adjusted]
      exact adjusts allowed holds
  case evaluate => exact fun _ holds => holds
  case close =>
    intro e id price closedAt holds
    obtain ⟨book, closed⟩ := e.afterClose_eq id price closedAt
    rwa [closed]
  case forget => exact fun holds => holds

/-- The upper bound of the body does not move, so that commands are judged by the settings. -/
theorem keeps_maxSize? (bound : Option Float) :
    Keeps fun e => e.pattern.settings.size.maxSize? = bound :=
  keeps_pattern (P := fun v => v.settings.size.maxSize? = bound) fun _ same =>
    (SizeRule.maxSize?_withMinSize _ _).trans same

theorem Reached.maxSize?_eq (h : Reached s e) :
    e.pattern.settings.size.maxSize? = s.pattern.size.maxSize? :=
  (keeps_maxSize? _).reached rfl h

theorem apply_of_valid (h : Reached s e) (valid : c.IsValid s) :
    ∃ changed, e.apply c = .ok (changed, c.effect e) := by
  cases c with
  | pause | resume | ignoreAlert => exact ⟨_, rfl⟩
  | skipToLevel level =>
    have inside : 1 ≤ level ∧ level ≤ e.book.ladder.size := by
      rw [h.under.size_eq]
      exact valid
    exact ⟨true, apply_skipToLevel_of_valid inside⟩
  | adjustMinSize size =>
    have allowed : e.pattern.settings.size.Allows size := by
      rw [SizeRule.Allows, h.maxSize?_eq]
      exact valid
    rw [apply, adjustMinSize, PatternValidator.adjustMinSize_of_allowed allowed]
    exact ⟨_, rfl⟩

theorem apply_of_invalid (h : Reached s e) (invalid : ¬c.IsValid s) :
    ∃ refusal, e.apply c = .error refusal := by
  cases c with
  | pause | resume | ignoreAlert => exact absurd trivial invalid
  | skipToLevel level =>
    apply apply_skipToLevel_of_invalid
    rw [h.under.size_eq]
    exact invalid
  | adjustMinSize size =>
    have forbidden : ¬e.pattern.settings.size.Allows size := by
      rw [SizeRule.Allows, h.maxSize?_eq]
      exact invalid
    obtain ⟨reason, refused⟩ := PatternValidator.adjustMinSize_of_forbidden forbidden
    rw [apply, adjustMinSize, refused]
    exact ⟨_, rfl⟩

theorem after_of_valid (h : Reached s e) (valid : c.IsValid s) : e.after c = c.effect e := by
  obtain ⟨changed, obeyed⟩ := apply_of_valid h valid
  rw [after, obeyed]

theorem after_of_invalid (h : Reached s e) (invalid : ¬c.IsValid s) : e.after c = e := by
  obtain ⟨refusal, refused⟩ := apply_of_invalid h invalid
  rw [after, refused]

theorem command_eq_ok (h : Reached s e) : (∃ changed, e.command c = .ok changed) ↔ c.IsValid s := by
  constructor
  · rintro ⟨changed, obeyed⟩
    by_contra invalid
    obtain ⟨refusal, refused⟩ := apply_of_invalid h invalid
    rw [command, refused] at obeyed
    cases obeyed
  · intro valid
    obtain ⟨changed, obeyed⟩ := apply_of_valid h valid
    exact ⟨changed, by rw [command, obeyed]; rfl⟩

end Apply

/-- **A command is atomic, local and idempotent.** At every reached engine a command is accepted
exactly if the settings allow it. A refused one leaves the engine as it is, an accepted one changes
nothing but its own part, and to give a command twice is to give it once, by itself or with a
tick. -/
theorem effect_command {s : Settings} {e : Engine} (h : Reached s e) (c : Command) :
    ((∃ changed, e.command c = .ok changed) ↔ c.IsValid s) ∧
    (¬c.IsValid s → (e.call (.command c)).2 = e) ∧
    (c.IsValid s → (e.call (.command c)).2 = c.effect e ∧ SameBut c e (e.call (.command c)).2) ∧
    (e.run [.command c, .command c]).2 = (e.run [.command c]).2 ∧
    (e.obey [c, c]).2 = (e.obey [c]).2 := by
  have again : (e.after c).after c = e.after c := by
    have next : Reached s (e.after c) := h.call (.command c)
    by_cases valid : c.IsValid s
    · rw [after_of_valid next valid, after_of_valid h valid]
      exact c.effect_effect e
    · exact after_of_invalid next valid
  refine ⟨command_eq_ok h, fun invalid => after_of_invalid h invalid, fun valid => ?_, again, again⟩
  have made : (e.call (.command c)).2 = c.effect e := after_of_valid h valid
  rw [made]
  exact ⟨rfl, e.sameBut_effect c⟩

/-- A skip to the top of the ladder is obeyed, one beyond it and a size that is no number are
refused. -/
theorem effect_command_fallen :
    Reached turningSettings fallenEngine ∧
    (fallenEngine.call (.command (.skipToLevel 3))).2.book.ladder.level = 2 ∧
    (fallenEngine.call (.command (.skipToLevel 4))).2 = fallenEngine ∧
    ¬∃ changed, fallenEngine.command (.adjustMinSize (0.0 / 0.0)) = .ok changed := by
  have skips (level : Nat) := effect_command reached_fallenEngine (.skipToLevel level)
  have adjusts := effect_command reached_fallenEngine (.adjustMinSize (0.0 / 0.0))
  have top : 1 ≤ 3 ∧ 3 ≤ turningSettings.ladder.size := by decide
  have beyond : ¬(1 ≤ 4 ∧ 4 ≤ turningSettings.ladder.size) := by decide
  refine ⟨reached_fallenEngine, ?_, (skips 4).2.1 beyond, ?_⟩
  · rw [((skips 3).2.2.1 top).1]
    rfl
  · rw [adjusts.1]
    rintro ⟨finite, -⟩
    exact absurd finite (by decide +kernel)

end Engine

end TrendLadder
