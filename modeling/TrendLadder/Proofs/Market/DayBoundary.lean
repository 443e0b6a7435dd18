import TrendLadder.Market.DayBoundary
import TrendLadder.Proofs.Time.Calendar

/-!
# What a day boundary has seen

A day boundary remembers the latest of the dates that it has seen (`DayBoundary.Covers`), so it
flags a timestamp exactly if there was one before and its date is later than all dates before
(`Covers.observe_iff`). Over a feed in any order the flags are therefore the records of the calendar
dates (`marksRecords_flags`): the first timestamp sets the record, and each later one is flagged if
it breaks it.
-/

namespace TrendLadder

namespace DayBoundary

/-- The boundary has seen these timestamps: it remembers the latest of their dates. -/
def Covers (b : DayBoundary) (seen : List Timestamp) : Prop :=
  match b.latest with
  | none => seen = []
  | some day => (∃ u ∈ seen, u.day = day) ∧ ∀ u ∈ seen, u.day ≤ day

theorem covers_start : start.Covers [] := rfl

namespace Covers

variable {b : DayBoundary} {seen : List Timestamp}

theorem of_none (h : b.Covers seen) (none : b.latest = none) : seen = [] := by
  unfold Covers at h
  rw [none] at h
  exact h

theorem of_some (h : b.Covers seen) {day : Int} (some : b.latest = some day) :
    (∃ u ∈ seen, u.day = day) ∧ ∀ u ∈ seen, u.day ≤ day := by
  unfold Covers at h
  rw [some] at h
  exact h

/-- A timestamp is flagged exactly if it is not the first and its date is later than all before. -/
theorem observe_iff (h : b.Covers seen) (t : Timestamp) :
    (b.observe t).1 = true ↔ seen ≠ [] ∧ ∀ u ∈ seen, u.day < t.day := by
  unfold observe
  cases latest : b.latest with
  | none => exact iff_of_false nofun fun later => later.1 (h.of_none latest)
  | some day =>
    obtain ⟨⟨u, hu, reached⟩, bound⟩ := h.of_some latest
    dsimp only
    split
    · next earlier =>
      exact iff_of_true rfl
        ⟨List.ne_nil_of_mem hu, fun v hv => Int.lt_of_le_of_lt (bound v hv) earlier⟩
    · next notEarlier =>
      exact iff_of_false nofun fun later => notEarlier (reached ▸ later.2 u hu)

theorem observe (h : b.Covers seen) (t : Timestamp) : (b.observe t).2.Covers (seen ++ [t]) := by
  unfold DayBoundary.observe
  cases latest : b.latest with
  | none =>
    rw [h.of_none latest]
    refine ⟨⟨t, List.mem_singleton_self t, rfl⟩, fun u hu => ?_⟩
    exact List.mem_singleton.mp hu ▸ Int.le_refl _
  | some day =>
    obtain ⟨⟨u, hu, reached⟩, bound⟩ := h.of_some latest
    dsimp only
    split
    · next earlier =>
      refine ⟨⟨t, List.mem_append_right _ (List.mem_singleton_self t), rfl⟩, fun v hv => ?_⟩
      rcases List.mem_append.mp hv with hv | hv
      · exact Int.le_of_lt (Int.lt_of_le_of_lt (bound v hv) earlier)
      · exact List.mem_singleton.mp hv ▸ Int.le_refl _
    · next notEarlier =>
      unfold Covers
      rw [latest]
      refine ⟨⟨u, List.mem_append_left _ hu, reached⟩, fun v hv => ?_⟩
      rcases List.mem_append.mp hv with hv | hv
      · exact bound v hv
      · exact List.mem_singleton.mp hv ▸ Int.not_lt.mp notEarlier

end Covers

/-! ## Feeds -/

@[simp] theorem length_flags (b : DayBoundary) (feed : List Timestamp) :
    (b.flags feed).length = feed.length := by
  induction feed generalizing b with
  | nil => rfl
  | cons t later ih => rw [flags, List.length_cons, List.length_cons, ih]

/-- The flag of a timestamp depends on what was seen before the feed and on the part of the feed
before the timestamp. -/
theorem Covers.flags_iff {b : DayBoundary} {seen feed : List Timestamp} (h : b.Covers seen)
    {i : Nat} {t : Timestamp} (here : feed[i]? = some t) :
    (b.flags feed)[i]? = some true ↔
      seen ++ feed.take i ≠ [] ∧ ∀ u ∈ seen ++ feed.take i, u.day < t.day := by
  induction feed generalizing b seen i with
  | nil => cases here
  | cons first later ih =>
    cases i with
    | zero =>
      obtain rfl : first = t := Option.some.inj here
      rw [flags, List.getElem?_cons_zero, Option.some_inj, List.take_zero, List.append_nil]
      exact h.observe_iff first
    | succ i =>
      have further := ih (h.observe first) here
      rw [List.append_assoc, List.singleton_append] at further
      rw [flags, List.getElem?_cons_succ, List.take_succ_cons]
      exact further

/-- The flags of a feed mark where its dates reach a record. -/
structure MarksRecords (flags : List Bool) (feed : List Timestamp) : Prop where
  length_eq : flags.length = feed.length
  /-- Flagged are the timestamps but the first whose date is later than all dates before. -/
  flag_iff {i : Nat} {t : Timestamp} : feed[i]? = some t →
    (flags[i]? = some true ↔ 0 < i ∧ ∀ u ∈ feed.take i, u.date < t.date)
  /-- No date is flagged twice. -/
  once {i j : Nat} {t u : Timestamp} : feed[i]? = some t → feed[j]? = some u → t.date = u.date →
    flags[i]? = some true → flags[j]? = some true → i = j

theorem flags_start_iff {feed : List Timestamp} {i : Nat} {t : Timestamp}
    (here : feed[i]? = some t) :
    (start.flags feed)[i]? = some true ↔ 0 < i ∧ ∀ u ∈ feed.take i, u.date < t.date := by
  have started : feed.take i ≠ [] ↔ 0 < i := by
    have some : feed ≠ [] := List.ne_nil_of_mem (List.mem_of_getElem? here)
    rw [Ne, List.take_eq_nil_iff, not_or, Nat.pos_iff_ne_zero]
    exact and_iff_left some
  rw [covers_start.flags_iff here, List.nil_append, started]
  simp only [Timestamp.date_lt_iff]

/-- Two timestamps of one date are not both flagged: the later one does not break the record that
the earlier one has set. -/
theorem not_flagged_again {feed : List Timestamp} {i j : Nat} {t u : Timestamp} (before : i < j)
    (first : feed[i]? = some t) (second : feed[j]? = some u) (same : t.date = u.date) :
    (start.flags feed)[j]? ≠ some true := by
  intro flagged
  have seen : t ∈ feed.take j :=
    List.mem_of_getElem? ((List.getElem?_take_of_lt before).trans first)
  have broken : t.date < u.date := ((flags_start_iff second).mp flagged).2 t seen
  rw [same, Timestamp.date_lt_iff] at broken
  exact Int.lt_irrefl _ broken

/-- **Day boundaries are the record dates.** Of any feed of timestamps, in order or not, exactly
those after the first are flagged whose calendar date is later than the dates of all timestamps
before them, and so each date is flagged at most once. -/
theorem marksRecords_flags (feed : List Timestamp) : MarksRecords (start.flags feed) feed where
  length_eq := length_flags start feed
  flag_iff := flags_start_iff
  once first second same flaggedFirst flaggedSecond := by
    rcases Nat.lt_trichotomy _ _ with before | here | after
    · exact absurd flaggedSecond (not_flagged_again before first second same)
    · exact here
    · exact absurd flaggedFirst (not_flagged_again after second first same.symm)

/-- The last nanosecond of 1969 and the midnight after it, a timestamp of an earlier date, the last
second of the first day of 1970 and the midnight after it. -/
example : start.flags [⟨-1, 999999999⟩, ⟨0, 0⟩, ⟨-86401, 0⟩, ⟨86399, 0⟩, ⟨86400, 0⟩] =
    [false, true, false, false, true] := by
  decide

end DayBoundary

end TrendLadder
