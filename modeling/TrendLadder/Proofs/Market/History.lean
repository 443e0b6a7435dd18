import TrendLadder.Market.History
import TrendLadder.Proofs.Recent

/-!
# The candle history and its feed

The history holds the last candles of the feed that it has accepted since it was last cleared
(`History.Follows`). It compares a candle with the latest one only, and that is enough: a candle is
accepted exactly if it is newer than every candle of the feed (`Follows.accepts_iff`), whether the
history still holds it or not. So after any pushes and clears the history is the tail of what was
accepted since the last clear (`retains_acceptedSinceClear`).
-/

namespace TrendLadder

theorem Timestamp.lt_trans {a b c : Timestamp} (ab : a < b) (bc : b < c) : a < c := by
  rw [lt_iff] at *
  omega

theorem getLast?_lastItems {α : Type} {n : Nat} (pos : 0 < n) (l : List α) :
    (lastItems n l).getLast? = l.getLast? := by
  rw [lastItems, List.getLast?_drop]
  split
  · next short =>
    have empty : l = [] := List.eq_nil_of_length_eq_zero (by omega)
    rw [empty, List.getLast?_nil]
  · rfl

namespace History

/-- The history has accepted these candles, and no others, since it was last cleared. -/
structure Follows (h : History) (capacity : Nat) (feed : List Candle) : Prop where
  capacity_eq : h.recent.capacity = max capacity 1
  holds : h.recent.Holds feed
  ascending : feed.Pairwise fun a b => a.timestamp < b.timestamp

variable {h : History} {capacity : Nat} {feed : List Candle}

theorem follows_empty (capacity : Nat) : (empty capacity).Follows capacity [] where
  capacity_eq := rfl
  holds := Recent.holds_empty _
  ascending := .nil

namespace Follows

theorem clear (follows : h.Follows capacity feed) : h.clear.Follows capacity [] where
  capacity_eq := follows.capacity_eq
  holds := Recent.holds_empty _
  ascending := .nil

theorem candles_eq (follows : h.Follows capacity feed) :
    h.candles = lastItems (max capacity 1) feed := by
  rw [← follows.capacity_eq]
  exact follows.holds

theorem latest_eq (follows : h.Follows capacity feed) : h.recent.latest = feed.getLast? := by
  have held : h.recent.items = lastItems (max capacity 1) feed := follows.candles_eq
  rw [Recent.latest, held, getLast?_lastItems (by omega)]

/-- The latest candle stands for all candles of the feed. -/
theorem accepts_iff (follows : h.Follows capacity feed) (c : Candle) :
    h.accepts c = true ↔ ∀ a ∈ feed, a.timestamp < c.timestamp := by
  rw [accepts, follows.latest_eq]
  rcases feed.eq_nil_or_concat with rfl | ⟨older, latest, rfl⟩
  · exact iff_of_true rfl nofun
  · rw [List.concat_eq_append, List.getLast?_concat, Option.all_some, decide_eq_true_iff]
    constructor
    · intro newer a ha
      rcases List.mem_append.mp ha with ha | ha
      · have ascending := follows.ascending
        rw [List.concat_eq_append, List.pairwise_append] at ascending
        exact Timestamp.lt_trans (ascending.2.2 a ha latest (List.mem_singleton_self _)) newer
      · rwa [List.mem_singleton.mp ha]
    · exact fun newer => newer latest (List.mem_append_right _ (List.mem_singleton_self _))

theorem push (follows : h.Follows capacity feed) {c : Candle}
    (newer : ∀ a ∈ feed, a.timestamp < c.timestamp) :
    (h.push c).Follows capacity (feed ++ [c]) := by
  have pos : 0 < h.recent.capacity := by
    rw [follows.capacity_eq]
    omega
  rw [push_of_accepts ((follows.accepts_iff c).mpr newer)]
  refine ⟨follows.capacity_eq, follows.holds.push pos c, ?_⟩
  rw [List.pairwise_append]
  refine ⟨follows.ascending, List.pairwise_singleton _ _, fun a ha b hb => ?_⟩
  rw [List.mem_singleton.mp hb]
  exact newer a ha

end Follows

end History

/-! ## Calls -/

/-- A call of a history. -/
inductive HistoryCall where
  | push (c : Candle)
  | clear

/-- The feed of a history after one more call: a candle that is newer than the whole feed is added
to it, and a clear starts a new one. -/
def HistoryCall.extend (feed : List Candle) : HistoryCall → List Candle
  | .push c => if ∀ a ∈ feed, a.timestamp < c.timestamp then feed ++ [c] else feed
  | .clear => []

/-- The candles accepted since the last clear. -/
def acceptedSinceClear (calls : List HistoryCall) : List Candle :=
  calls.foldl HistoryCall.extend []

namespace History

/-- Makes a call. -/
def call (h : History) : HistoryCall → History
  | .push c => h.push c
  | .clear => h.clear

/-- Makes calls in turn. -/
def run (h : History) (calls : List HistoryCall) : History := calls.foldl call h

variable {h : History} {capacity : Nat} {feed : List Candle}

theorem push?_eq_none {c : Candle} : h.push? c = none ↔ h.accepts c = false := by
  unfold push?
  split
  · next accepted => exact iff_of_false nofun fun refused => nomatch accepted.symm.trans refused
  · next refused => exact iff_of_true rfl (eq_false_of_ne_true refused)

namespace Follows

theorem call (follows : h.Follows capacity feed) (c : HistoryCall) :
    (h.call c).Follows capacity (c.extend feed) := by
  cases c with
  | clear => exact follows.clear
  | push c =>
    rw [History.call, HistoryCall.extend]
    split
    · next newer => exact follows.push newer
    · next older =>
      have refused : h.accepts c = false :=
        eq_false_of_ne_true fun accepted => older ((follows.accepts_iff c).mp accepted)
      rw [push_of_refused refused]
      exact follows

theorem run (follows : h.Follows capacity feed) (calls : List HistoryCall) :
    (h.run calls).Follows capacity (calls.foldl HistoryCall.extend feed) := by
  induction calls generalizing h feed with
  | nil => exact follows
  | cons c calls ih => exact ih (follows.call c)

end Follows

/-- What a history holds and accepts once it has been shown a feed of candles. -/
structure Retains (h : History) (capacity : Nat) (feed : List Candle) : Prop where
  /-- The candles are the last ones of the feed, in its order. -/
  suffix : h.candles <:+ feed
  length_eq : h.candles.length = min feed.length (max capacity 1)
  ascending : h.candles.Pairwise fun a b => a.timestamp < b.timestamp
  latest_eq : h.recent.latest = h.candles.reverse[0]?
  previous_eq : h.recent.previous = h.candles.reverse[1]?
  /-- The whole feed decides, also the candles that are no longer held. -/
  accepts_iff (c : Candle) : (h.push? c).isSome = true ↔ ∀ a ∈ feed, a.timestamp < c.timestamp
  refused (c : Candle) : h.push? c = none → h.push c = h

theorem Follows.retains (follows : h.Follows capacity feed) : h.Retains capacity feed where
  suffix := by
    rw [follows.candles_eq]
    exact List.drop_suffix _ _
  length_eq := by rw [follows.candles_eq, length_lastItems, Nat.min_comm]
  ascending := by
    rw [follows.candles_eq]
    exact follows.ascending.sublist (List.drop_sublist _ _)
  latest_eq := h.recent.latest_eq_getElem?
  previous_eq := h.recent.previous_eq_getElem?
  accepts_iff c := by
    rw [← follows.accepts_iff, Option.isSome_iff_ne_none, Ne, push?_eq_none, Bool.not_eq_false]
  refused c none := push_of_refused (push?_eq_none.mp none)

/-- **The history is the tail of what it has accepted.** After any pushes and clears it holds the
last candles that were accepted since the last clear, as many as it has room for, and it accepts a
candle exactly if it is newer than all of them, whether it still holds them or not. -/
theorem retains_acceptedSinceClear (capacity : Nat) (calls : List HistoryCall) :
    ((empty capacity).run calls).Retains capacity (acceptedSinceClear calls) :=
  ((follows_empty capacity).run calls).retains

end History

end TrendLadder
