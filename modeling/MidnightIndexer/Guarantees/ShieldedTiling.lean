import MidnightIndexer.Guarantees.ShieldedDelivery
import MidnightIndexer.Lib.Tiling

/-!
# The index ranges of a shielded subscription

indexer-api/src/infra/api/v4/subscription/shielded.rs:203-327. A delivered item stands
for the range of its collapsed update, if it has one, and the zswap range of its
transaction. The reader's index is where the last item has ended. A page holds rows
from the index on, in id order, so each of them starts at or behind the end of the one
before, whichever rows were inserted since the last query. What the pages miss or
repeat does not matter here.
-/

namespace MidnightIndexer.Guarantees.ShieldedTiling

open Lib Lib.Tiling List ShieldedDelivery Source

/-- The update's last index is included. -/
def itemSegments (item : RelevantTransaction) : List Segment :=
  (item.zswapCollapsedUpdate.toList.map fun update => (update.1, update.2 + 1)) ++
    [(item.transaction.zswapStartIndex, item.transaction.zswapEndIndex)]

theorem itemSegments_tile {index : Nat} {t : RegularTransaction}
    (reached : index ≤ t.zswapStartIndex) (within : t.zswapStartIndex ≤ t.zswapEndIndex) :
    Tiles index (itemSegments (makeRelevantTransaction index t)) t.zswapEndIndex := by
  unfold itemSegments makeRelevantTransaction
  dsimp only
  split
  next gap =>
    have last : t.zswapStartIndex - 1 + 1 = t.zswapStartIndex := by omega
    simp only [Option.toList_some, map_cons, map_nil, last]
    exact (Tiles.singleton reached).append (.singleton within)
  next none =>
    have same : index = t.zswapStartIndex := by omega
    rw [same]
    exact .singleton within

/-- The rows of a page follow each other from an index to a cursor, with gaps. -/
def Follows : Nat → List RegularTransaction → Nat → Prop
  | index, [], cursor => index = cursor
  | index, t :: rest, cursor =>
    index ≤ t.zswapStartIndex ∧ t.zswapStartIndex ≤ t.zswapEndIndex ∧
      Follows t.zswapEndIndex rest cursor

variable {last : RegularTransaction}

theorem follows_of_chained {index : Nat} {page : List RegularTransaction}
    (within : ∀ t ∈ page, index ≤ t.zswapStartIndex ∧ t.zswapStartIndex ≤ t.zswapEndIndex)
    (chained : page.Pairwise fun a b => a.zswapEndIndex ≤ b.zswapStartIndex)
    (final : page.getLast? = some last) : Follows index page last.zswapEndIndex := by
  induction page generalizing index with
  | nil => cases final
  | cons t rest ih =>
    obtain ⟨above, chained⟩ := pairwise_cons.mp chained
    refine ⟨(within t mem_cons_self).1, (within t mem_cons_self).2, ?_⟩
    cases rest with
    | nil =>
      cases final
      rfl
    | cons next later =>
      refine ih (fun s member => ⟨above s member, ?_⟩) chained final
      exact (within s (mem_cons_of_mem _ member)).2

theorem page_follows {db : WalletDb} (ordered : OrderedTransactions db.transactions)
    (chain : RangesChained db.transactions) {walletId : Uuid} {batchSize : NonZeroU32}
    {cursor : Nat} (fits : cursor < 2 ^ 63)
    (final : (db.relevantTransactionsPage walletId batchSize cursor).getLast? = some last) :
    Follows cursor (db.relevantTransactionsPage walletId batchSize cursor) last.zswapEndIndex ∧
      last.zswapEndIndex < 2 ^ 63 := by
  have listed : ∀ t ∈ db.relevantTransactionsPage walletId batchSize cursor,
      t ∈ db.walletTransactions walletId ∧ cursor ≤ t.zswapStartIndex := by
    intro t member
    obtain ⟨stored, above⟩ := mem_filter.mp (Sql.mem_orderBy.mp (mem_of_mem_take member))
    rw [decide_eq_true_eq, Sql.asI64_of_lt fits, Int.ofNat_le] at above
    split at stored
    · exact ⟨stored, above⟩
    · cases stored
  have columns : ∀ t ∈ db.walletTransactions walletId,
      t.zswapStartIndex ≤ t.zswapEndIndex ∧ t.zswapEndIndex < 2 ^ 63 := by
    intro t member
    obtain ⟨row, stored, _, _, range⟩ := walletTransactions_row member
    exact chain.within row stored _ range
  have increasing : (db.relevantTransactionsPage walletId batchSize cursor).Pairwise
      fun a b => a.id < b.id := by
    refine Pairwise.sublist (take_sublist _ _) (Sql.orderBy_strict _ _ ?_)
    refine Nodup.sublist (filter_sublist.map _) ?_
    split
    · exact walletTransactions_unique ordered.unique walletId
    · exact nodup_nil
  have chained := increasing.imp_of_mem fun a_member b_member less =>
    chain.walletTransactions_end (listed _ a_member).1 (listed _ b_member).1 less
  refine ⟨follows_of_chained (fun t member => ?_) chained final, ?_⟩
  · exact ⟨(listed t member).2, (columns t (listed t member).1).1⟩
  · exact (columns last (listed last (mem_of_getLast? final)).1).2

/-- What has been delivered tiles the indices up to the reader's index, and the rest of
the page follows from there. -/
structure ReaderTiles (params : ShieldedParams) (sub : Subscription) : Prop where
  tiles : Tiles params.index (sub.delivered.flatMap itemSegments) sub.index
  follows : Follows sub.index (buffer sub) (position sub)
  fits : position sub < 2 ^ 63

structure TilingInvariant (params : ShieldedParams) (s : ShieldedState) : Prop where
  ordered : OrderedTransactions s.db.transactions
  chain : RangesChained s.db.transactions
  reader : ∀ sub, s.subscription = some sub → ReaderTiles params sub

/-- Commits keep the zswap ranges ordered and disjoint; nothing else is asked. -/
def ChainStep (s : ShieldedState) : ShieldedInput → Prop
  | .wallet (.commit row) => ChainCommit s.db row
  | _ => True

instance ChainStep.decidable (s : ShieldedState) : ∀ input, Decidable (ChainStep s input)
  | .wallet (.commit row) => inferInstanceAs (Decidable (ChainCommit s.db row))
  | .wallet (.connect ..) | .wallet (.index _) | .publish _ | .subscribe | .poll => isTrue trivial

namespace TilingInvariant

variable {env : WalletEnv} {params : ShieldedParams} {s : ShieldedState}

/-- The reader only sees the tables through its own queries. -/
theorem with_db (invariant : TilingInvariant params s) {db : WalletDb} {pending : List Uuid}
    (same : db.transactions = s.db.transactions) :
    TilingInvariant params { s with db := db, pending := pending } :=
  ⟨same ▸ invariant.ordered, same ▸ invariant.chain, invariant.reader⟩

theorem poll (invariant : TilingInvariant params s) {sub : Subscription}
    (found : s.subscription = some sub) :
    ReaderTiles params (Source.poll params s.db s.events sub).2 := by
  obtain ⟨tiles, follows, fits⟩ := invariant.reader sub found
  obtain ⟨index, phase, delivered⟩ := sub
  match phase with
  | .streaming cursor (t :: rest) =>
    obtain ⟨reached, within, follows⟩ := follows
    refine ⟨?_, follows, fits⟩
    change Tiles params.index ((delivered ++ [makeRelevantTransaction index t]).flatMap _) _
    rw [flatMap_append, flatMap_singleton]
    exact tiles.append (itemSegments_tile reached within)
  | .streaming cursor [] =>
    have same : index = cursor := follows
    subst same
    unfold Source.poll
    dsimp only
    split
    next last final =>
      obtain ⟨follows, column⟩ := page_follows invariant.ordered invariant.chain fits final
      exact ⟨tiles, follows, column⟩
    next => exact ⟨tiles, rfl, fits⟩
  | .waiting =>
    unfold Source.poll
    dsimp only
    split
    · exact ⟨tiles, rfl, fits⟩
    · split
      · exact ⟨tiles, rfl, fits⟩
      · exact ⟨tiles, rfl, fits⟩

theorem step (fits : params.index < 2 ^ 63) (invariant : TilingInvariant params s)
    (input : ShieldedInput) (allowed : ChainStep s input) :
    TilingInvariant params (shieldedStep env params s input) := by
  cases input with
  | wallet input =>
    cases input with
    | connect id key startIndex now session =>
      refine invariant.with_db ?_
      simp only [walletStep]
      split
      next connected => exact (connectWallet_frame connected).1
      next => rfl
    | commit row =>
      simp only [shieldedStep, walletStep]
      rcases commitTransaction_cases row s.db with refused | ⟨column, above, committed⟩
      · rw [refused]
        exact invariant
      · rw [committed]
        exact ⟨invariant.ordered.append column above, invariant.chain.append above allowed,
          invariant.reader⟩
    | index call =>
      simp only [shieldedStep]
      split
      next indexed => exact invariant.with_db (indexWallet_transactions indexed)
      next => exact invariant
  | publish walletId =>
    simp only [shieldedStep]
    split
    · exact ⟨invariant.ordered, invariant.chain, invariant.reader⟩
    · exact invariant
  | subscribe =>
    simp only [shieldedStep]
    split
    next =>
      refine ⟨invariant.ordered, invariant.chain, fun sub found => ?_⟩
      cases found
      exact ⟨rfl, rfl, fits⟩
    next => exact invariant
  | poll =>
    simp only [shieldedStep]
    split
    next => exact invariant
    next sub found =>
      refine ⟨invariant.ordered, invariant.chain, fun polled same => ?_⟩
      cases same
      exact invariant.poll found

end TilingInvariant

/-- In every run in which commits keep the zswap ranges ordered and disjoint, the
delivered updates and transactions tile the indices from the subscribed one on: each
begins where the one before has ended, and every index is covered once. -/
theorem shielded_ranges_tile (env : WalletEnv) (params : ShieldedParams)
    (fits : params.index < 2 ^ 63) (inputs : List ShieldedInput)
    (guarded : Guarded (shieldedStep env params) ChainStep ShieldedState.empty inputs)
    (sub : Subscription)
    (subscribed : (run (shieldedStep env params) ShieldedState.empty inputs).subscription =
      some sub) :
    Tiles params.index (sub.delivered.flatMap itemSegments) sub.index ∧
      indices (sub.delivered.flatMap itemSegments) =
        List.range' params.index (sub.index - params.index) := by
  have initially : TilingInvariant params ShieldedState.empty :=
    ⟨⟨.nil, fun _ member => absurd member List.not_mem_nil⟩,
      ⟨fun _ member => absurd member List.not_mem_nil,
        fun _ member => absurd member List.not_mem_nil⟩, fun _ found => nomatch found⟩
  have keep : ∀ s input, TilingInvariant params s → ChainStep s input →
      TilingInvariant params (shieldedStep env params s input) :=
    fun _ input invariant allowed => invariant.step fits input allowed
  have invariant := run_invariant keep ShieldedState.empty inputs initially guarded
  have tiles := (invariant.reader sub subscribed).tiles
  exact ⟨tiles, tiles.indices⟩

/-- The run in which a backward scan inserts a row below the reader. -/
theorem shielded_ranges_sample :
    ∃ sub, (run (shieldedStep sampleEnv sampleParams) ShieldedState.empty
        passedBackward).subscription = some sub ∧
      sub.delivered.flatMap itemSegments = [(0, 2), (2, 3)] ∧
      Tiles 0 (sub.delivered.flatMap itemSegments) sub.index := by
  let read : RegularTransaction := ⟨3, .first .V1_0, [7], 2, 3⟩
  have subscribed : (run (shieldedStep sampleEnv sampleParams) ShieldedState.empty
      passedBackward).subscription = some ⟨3, .waiting, [⟨read, some (0, 1)⟩]⟩ := by
    decide +kernel
  exact ⟨_, subscribed, rfl, (shielded_ranges_tile sampleEnv sampleParams (by decide)
    passedBackward (by decide +kernel) _ subscribed).1⟩

end MidnightIndexer.Guarantees.ShieldedTiling
