import Mathlib.Data.List.Chain
import Mathlib.Order.Lattice

/-!
# Logs of changes

Reports come at increasing keys, each with a value or without one. Only the changes are
kept: a reported value is entered unless it is the last entry's. The entry in force at a
key is then the last value reported up to it, and no two neighbouring entries are equal.
-/

namespace MidnightIndexer.Lib.ChangeLog

open List

variable {κ ν : Type*}

def observe [DecidableEq ν] (entries : List (κ × ν)) (key : κ) (reported : Option ν) :
    List (κ × ν) :=
  match reported with
  | none => entries
  | some value =>
    if entries.getLast?.map Prod.snd = some value then entries else entries ++ [(key, value)]

variable [LinearOrder κ]

def valueAt (entries : List (κ × ν)) (key : κ) : Option ν :=
  (entries.filter fun entry => entry.1 ≤ key).getLast?.map Prod.snd

def reportedAt (reports : List (κ × Option ν)) (key : κ) : Option ν :=
  ((reports.filter fun report => report.1 ≤ key).filterMap Prod.snd).getLast?

structure Keeps (entries : List (κ × ν)) (reports : List (κ × Option ν)) : Prop where
  reported : ∀ entry ∈ entries, entry.1 ∈ reports.map Prod.fst
  increasing : entries.Pairwise fun low high => low.1 < high.1
  changes : entries.IsChain fun earlier later => earlier.2 ≠ later.2
  value : ∀ key, valueAt entries key = reportedAt reports key

theorem keeps_nil : Keeps ([] : List (κ × ν)) [] := by
  refine ⟨?_, .nil, .nil, fun key => rfl⟩
  simp

theorem reportedAt_concat (reports : List (κ × Option ν)) (key now : κ) (reported : Option ν) :
    reportedAt (reports ++ [(key, reported)]) now =
      if key ≤ now then reported.or (reportedAt reports now) else reportedAt reports now := by
  unfold reportedAt
  rw [filter_append]
  by_cases within : key ≤ now
  · cases reported <;> simp [within]
  · simp [within]

theorem valueAt_concat (entries : List (κ × ν)) (key now : κ) (value : ν) :
    valueAt (entries ++ [(key, value)]) now =
      if key ≤ now then some value else valueAt entries now := by
  unfold valueAt
  rw [filter_append]
  by_cases within : key ≤ now <;> simp [within]

theorem valueAt_of_above {entries : List (κ × ν)} {key : κ}
    (above : ∀ entry ∈ entries, entry.1 ≤ key) :
    valueAt entries key = entries.getLast?.map Prod.snd := by
  unfold valueAt
  rw [filter_eq_self.mpr (by simpa using above)]

theorem Keeps.observe [DecidableEq ν] {entries : List (κ × ν)} {reports : List (κ × Option ν)}
    (keeps : Keeps entries reports) {key : κ} (above : ∀ report ∈ reports, report.1 < key)
    (reported : Option ν) :
    Keeps (ChangeLog.observe entries key reported) (reports ++ [(key, reported)]) := by
  have below : ∀ entry ∈ entries, entry.1 < key := by
    intro entry member
    obtain ⟨report, listed, same⟩ := mem_map.mp (keeps.reported entry member)
    exact same ▸ above report listed
  have listed : ∀ entry ∈ entries, entry.1 ∈ (reports ++ [(key, reported)]).map Prod.fst := by
    intro entry member
    rw [map_append]
    exact mem_append_left _ (keeps.reported entry member)
  have last : ∀ now, key ≤ now → reportedAt reports now = entries.getLast?.map Prod.snd := by
    intro now within
    rw [← keeps.value now,
      valueAt_of_above fun entry member => (below entry member).le.trans within]
  cases reported with
  | none =>
    refine ⟨listed, keeps.increasing, keeps.changes, fun now => ?_⟩
    rw [reportedAt_concat, Option.none_or, ite_self]
    exact keeps.value now
  | some value =>
    unfold ChangeLog.observe
    dsimp only
    split
    next same =>
      refine ⟨listed, keeps.increasing, keeps.changes, fun now => ?_⟩
      rw [reportedAt_concat, keeps.value now]
      split
      next within => rw [last now within, same, Option.or_self]
      next => rfl
    next different =>
      refine ⟨?_, ?_, ?_, fun now => ?_⟩
      · intro entry member
        rcases mem_append.mp member with old | new
        · exact listed entry old
        · rw [mem_singleton.mp new]
          simp
      · refine pairwise_append.mpr ⟨keeps.increasing, pairwise_singleton _ _, ?_⟩
        intro entry member new isNew
        rw [mem_singleton.mp isNew]
        exact below entry member
      · refine isChain_append.mpr ⟨keeps.changes, isChain_singleton _, ?_⟩
        intro entry isLast new isNew same
        simp only [head?_cons, Option.mem_def, Option.some.injEq] at isLast isNew
        apply different
        rw [isLast, Option.map_some, same, ← isNew]
      · rw [valueAt_concat, reportedAt_concat, Option.some_or, keeps.value now]

end MidnightIndexer.Lib.ChangeLog
