import MidnightIndexer.Lib.Outcome
import MidnightIndexer.Source.LedgerDb

/-!
# The repair at startup, from the keys of the window

indexer-common/src/domain/ledger/ledger_state.rs:463-468 and 2417-2429. The keys are
decoded and tallied by their root hash before anything is read from the ledger DB, so a
key that does not decode leaves it alone. The tally and the sum of the increments are
`u32` and wrap as in a release build. The map is ordered by hash in the source and by
first occurrence here, which is the order of the writes and nothing else.
-/

namespace MidnightIndexer.Source

open Lib List

variable {Hash Key ε : Type} [DecidableEq Hash]

/-- `*wanted.entry(hash).or_insert(0) += 1`. -/
def tally (wanted : List (Hash × Nat)) (hash : Hash) : List (Hash × Nat) :=
  Table.upsert Prod.fst (hash, 1) (fun entry => (entry.1, (entry.2 + 1) % 2 ^ 32)) wanted

/-- `window_root_counts`. -/
def tallyWindow (arenaRootHash : Key → Except ε Hash) (window : List Key) :
    Except ε (List (Hash × Nat)) :=
  window.foldlM (fun wanted key => do
    let hash ← arenaRootHash key
    return tally wanted hash) []

/-- `raised_total` is a `u32`. -/
def RootCountRepair.wrapped (repair : RootCountRepair) : RootCountRepair :=
  { repair with raisedTotal := repair.raisedTotal % 2 ^ 32 }

def repairRootCounts (childrenOf : Hash → List Hash) (arenaRootHash : Key → Except ε Hash)
    (db : LedgerDb Hash) (window : List Key) :
    Except ε (Option (LedgerDb Hash × RootCountRepair)) :=
  (tallyWindow arenaRootHash window).map fun wanted =>
    (raiseRootCounts childrenOf db wanted).map fun result => (result.1, result.2.wrapped)

/-! ## The tally -/

/-- What the map holds for the hashes it was given. -/
structure TallyOf (wanted : List (Hash × Nat)) (hashes : List Hash) : Prop where
  distinct : (wanted.map Prod.fst).Nodup
  counts : ∀ root, Table.lookup Prod.fst root wanted =
    if root ∈ hashes then some (root, hashes.count root % 2 ^ 32) else none

variable {wanted : List (Hash × Nat)} {hashes : List Hash}

theorem TallyOf.step (tallied : TallyOf wanted hashes) (hash : Hash) :
    TallyOf (tally wanted hash) (hashes ++ [hash]) := by
  have kept (entry : Hash × Nat) :
      Prod.fst ((fun entry : Hash × Nat => (entry.1, (entry.2 + 1) % 2 ^ 32)) entry) = entry.1 := rfl
  refine ⟨Table.upsert_nodup kept tallied.distinct, fun root => ?_⟩
  rw [tally, Table.lookup_upsert kept, tallied.counts]
  by_cases hit : root = hash
  · subst hit
    by_cases known : root ∈ hashes
    · simp [known, count_append]
    · simp [known, count_append, count_eq_zero_of_not_mem known]
  · have same : root ∈ hashes ++ [hash] ↔ root ∈ hashes := by simp [hit]
    simp only [hit, if_false, same, count_append, count_singleton, beq_iff_eq,
      Ne.symm hit, Nat.add_zero]

theorem TallyOf.foldl {taken : List Hash} (tallied : TallyOf wanted taken) (hashes : List Hash) :
    TallyOf (hashes.foldl tally wanted) (taken ++ hashes) := by
  induction hashes generalizing wanted taken with
  | nil => simpa using tallied
  | cons hash rest ih =>
    rw [foldl_cons, append_cons]
    exact ih (tallied.step hash)

theorem tallyWindow_success {arenaRootHash : Key → Except ε Hash} {window : List Key}
    (decoded : window.mapM arenaRootHash = .ok hashes) :
    ∃ wanted, tallyWindow arenaRootHash window = .ok wanted ∧ TallyOf wanted hashes := by
  have folded (wanted : List (Hash × Nat)) : window.foldlM (fun wanted key => do
      let hash ← arenaRootHash key
      return tally wanted hash) wanted = .ok (hashes.foldl tally wanted) := by
    have related := mapM_success decoded
    clear decoded
    induction related generalizing wanted with
    | nil => rfl
    | cons first _ ih =>
      rw [foldlM_cons, first]
      exact ih _
  refine ⟨_, folded [], ?_⟩
  have start : TallyOf ([] : List (Hash × Nat)) [] := ⟨nodup_nil, fun root => rfl⟩
  exact start.foldl hashes

/-- The map is the count of each root, if these fit. -/
theorem TallyOf.perm (tallied : TallyOf wanted hashes) (fits : ∀ root, hashes.count root < 2 ^ 32) :
    wanted.Perm (windowRootCounts hashes) := by
  refine Table.perm_of_lookup_eq tallied.distinct (windowRootCounts_distinct hashes) fun root => ?_
  rw [tallied.counts, lookup_windowRootCounts, Nat.mod_eq_of_lt (fits root)]

end MidnightIndexer.Source
