import MidnightIndexer.Guarantees.LiveDelivery
import MidnightIndexer.Guarantees.RelevantStream
import MidnightIndexer.Source.BridgeEvents

/-!
# Cursors beyond the column

A `u64` cursor is bound as an `i64`. From 2^63 on it turns negative and selects
every row there is, while every key is below the cursor.
-/

namespace MidnightIndexer.Guarantees.WrappedCursors

open Lib Lib.Follow List LiveDelivery Source Source.IndexerApi BridgeEventArgs Sql
open Paging (RespectsCursor respectsCursor_iff)

variable {ε ρ ι : Type} {batchSize : NonZeroU32}

/-- A negative bound excludes no key. -/
theorem wrapped_page_nil {κ : Type} [LinearOrder κ] {order : ρ → κ} {key : ρ → Nat}
    {table : List ρ} {cursor : Int} (negative : cursor < 0) (empty :
      (orderBy order (table.filter fun row => cursor ≤ key row)).take batchSize.val = []) :
    table = [] := by
  have positive := batchSize.pos
  rw [take_eq_nil_iff, orderBy_eq_nil, filter_eq_nil_iff] at empty
  refine eq_nil_iff_forall_not_mem.mpr fun row member => ?_
  have missed := empty.resolve_left (by omega) row member
  simp only [decide_eq_true_eq] at missed
  omega

theorem cursor_le_of_asI64 {cursor key : Nat} (selected : asI64 cursor ≤ key)
    (fits : cursor < 2 ^ 63) : cursor ≤ key := by
  rw [asI64_of_lt fits] at selected
  omega

/-! ## Unshielded transactions and ledger events -/

theorem storageStream_respects_iff (feed : LiveFeed ε ρ ι) {table : List ρ} {db : ChainDb}
    (page : ∀ cursor, feed.page db cursor = pageFrom feed.key batchSize table cursor)
    (serial : Serial feed.key (2 ^ 63) table) (cursor : UInt64) :
    RespectsCursor feed.key table (fun queries => (feed.storageStream db cursor.toNat queries).1)
      cursor.toNat ↔ cursor.toNat < 2 ^ 63 ∨ table = [] := by
  apply Paging.pages_respects_iff
  · intro c row listed
    rw [page] at listed
    have selected := mem_filter.mp (mem_orderBy.mp (mem_of_mem_take listed))
    exact ⟨selected.1, cursor_le_of_asI64 (of_decide_eq_true selected.2)⟩
  · intro row member
    exact ⟨Nat.le_succ _, serial.successor row member⟩
  · intro large empty
    rw [page] at empty
    exact wrapped_page_nil (asI64_neg large cursor.toNat_lt) empty

/-! ## Relevant transactions -/

/-- What the query can select for a wallet. -/
def relevantRows (db : WalletDb) (walletId : Uuid) : List Source.RegularTransaction :=
  if db.sessionOpen walletId then db.walletTransactions walletId else []

theorem relevantRows_column {db : WalletDb} (ranges : ZswapRanges db.transactions)
    {walletId : Uuid} {t : Source.RegularTransaction} (member : t ∈ relevantRows db walletId) :
    t.zswapStartIndex ≤ t.zswapEndIndex ∧ t.zswapEndIndex < 2 ^ 63 := by
  unfold relevantRows at member
  split at member
  · exact walletTransactions_column ranges member
  · exact (not_mem_nil member).elim

theorem relevant_respects_iff (db : WalletDb) (ranges : ZswapRanges db.transactions)
    (walletId : Uuid) (batchSize : NonZeroU32) (cursor : UInt64) :
    RespectsCursor Source.RegularTransaction.zswapStartIndex (relevantRows db walletId)
      (fun queries => (db.getRelevantTransactions walletId cursor.toNat batchSize queries).1)
      cursor.toNat ↔ cursor.toNat < 2 ^ 63 ∨ relevantRows db walletId = [] := by
  apply Paging.pages_respects_iff
  · intro c t listed
    have selected := mem_filter.mp (mem_orderBy.mp (mem_of_mem_take listed))
    exact ⟨selected.1, cursor_le_of_asI64 (of_decide_eq_true selected.2)⟩
  · intro t member
    exact relevantRows_column ranges member
  · intro large empty
    exact wrapped_page_nil (asI64_neg large cursor.toNat_lt) empty

/-! ## Bridge events -/

/-- The event is one the subscription asks for, whatever its id. -/
def wantsBridgeEvent (args : BridgeEventArgs) (row : BridgeEventRow) : Bool :=
  args.variant.all (fun variant => row.variant = variant) &&
    args.recipient.all fun recipient => row.recipient = some recipient

variable {row : BridgeEventRow}

theorem filter_selects_iff {args : BridgeEventArgs} {lastId : UInt64} :
    (args.filter lastId).selects row = true ↔
      wantsBridgeEvent args row = true ∧ asI64 lastId.toNat < row.id := by
  cases variant : args.variant with
  | none => simp [BridgeEventFilter.selects, BridgeEventArgs.filter, wantsBridgeEvent, variant]
  | some wanted =>
    simp [BridgeEventFilter.selects, BridgeEventArgs.filter, wantsBridgeEvent, variant]

variable {args : BridgeEventArgs} {rows : List BridgeEventRow} {lastId : UInt64}

theorem mem_getBridgeEvents {limit : Nat}
    (member : row ∈ getBridgeEvents rows (args.filter lastId) limit) :
    row ∈ rows.filter (wantsBridgeEvent args) ∧ asI64 lastId.toNat < row.id := by
  have selected := mem_orderBy.mp (mem_of_mem_take member)
  rw [mem_filter, filter_selects_iff] at selected
  exact ⟨mem_filter.mpr ⟨selected.1, selected.2.1⟩, selected.2.2⟩

/-- The last id never goes back, and stays within the column. -/
theorem advance_bounds {events : List BridgeEventRow} (fits : ∀ event ∈ events, event.id < 2 ^ 63)
    (small : lastId.toNat < 2 ^ 63) : lastId.toNat ≤ (advance lastId events).toNat ∧
      (advance lastId events).toNat < 2 ^ 63 := by
  induction events generalizing lastId with
  | nil => exact ⟨Nat.le_refl _, small⟩
  | cons event rest ih =>
    have bound := fits event mem_cons_self
    have higher : lastId.toNat ≤ (max lastId (UInt64.ofNat event.id)).toNat ∧
        (max lastId (UInt64.ofNat event.id)).toNat < 2 ^ 63 := by
      have column : (UInt64.ofNat event.id).toNat = event.id :=
        UInt64.toNat_ofNat_of_lt' (bound.trans (by decide))
      rw [show max lastId (UInt64.ofNat event.id) =
        if lastId ≤ UInt64.ofNat event.id then UInt64.ofNat event.id else lastId from rfl]
      split
      next less =>
        rw [UInt64.le_iff_toNat_le] at less
        omega
      next => exact ⟨Nat.le_refl _, small⟩
    have later := ih (fun other member => fits other (mem_cons_of_mem _ member)) higher.2
    exact ⟨higher.1.trans later.1, later.2⟩

theorem backfill_row (serial : Serial BridgeEventRow.id (2 ^ 63) rows) {queries : Nat}
    (member : row ∈ (args.backfill rows queries lastId).1) :
    row ∈ rows.filter (wantsBridgeEvent args) ∧
      (lastId.toNat < 2 ^ 63 → lastId.toNat ≤ row.id) := by
  induction queries generalizing lastId with
  | zero => simp [backfill] at member
  | succ queries ih =>
    rw [backfill] at member
    dsimp only at member
    split at member
    · simp at member
    · rcases mem_append.mp member with first | later
      · obtain ⟨wanted, above⟩ := mem_getBridgeEvents first
        exact ⟨wanted, cursor_le_of_asI64 above.le⟩
      · obtain ⟨wanted, above⟩ := ih later
        refine ⟨wanted, fun small => ?_⟩
        have fits : ∀ event ∈ getBridgeEvents rows (args.filter lastId) backfillBatch,
            event.id < 2 ^ 63 := by
          intro event listed
          have bound := serial.successor event (mem_of_mem_filter (mem_getBridgeEvents listed).1)
          omega
        have advanced := advance_bounds fits small
        exact advanced.1.trans (above advanced.2)

theorem bridge_respects_iff (args : BridgeEventArgs) (rows : List BridgeEventRow)
    (serial : Serial BridgeEventRow.id (2 ^ 63) rows) (cursor : UInt64) :
    RespectsCursor BridgeEventRow.id (rows.filter (wantsBridgeEvent args))
      (fun queries => (args.backfill rows queries cursor).1) cursor.toNat ↔
      cursor.toNat < 2 ^ 63 ∨ rows.filter (wantsBridgeEvent args) = [] := by
  apply respectsCursor_iff
  · intro row member
    have bound := serial.successor row (List.mem_of_mem_filter member)
    omega
  · intro queries row member
    exact (backfill_row serial member).1
  · intro small queries row member
    exact (backfill_row serial member).2 small
  · intro large nonempty
    obtain ⟨row, wanted⟩ := List.exists_mem_of_ne_nil _ nonempty
    obtain ⟨member, asked⟩ := List.mem_filter.mp wanted
    have negative := asI64_neg large cursor.toNat_lt
    have selected : (args.filter cursor).selects row = true :=
      filter_selects_iff.mpr ⟨asked, by omega⟩
    have found : getBridgeEvents rows (args.filter cursor) backfillBatch ≠ [] := by
      intro empty
      rw [getBridgeEvents, List.take_eq_nil_iff, orderBy_eq_nil, List.filter_eq_nil_iff] at empty
      exact empty.resolve_left (by decide) row member selected
    refine ⟨1, ?_⟩
    simp only [backfill, List.isEmpty_iff, if_neg found, List.append_nil]
    exact found

/-! ## The result -/

def sampleBridgeEvents : List BridgeEventRow :=
  [⟨1, 1, .userTransfer, some [5]⟩, ⟨2, 1, .reserveTransfer, none⟩]

def sampleDb : ChainDb := ChainDb.empty.commit .sqlite firstBlock

end MidnightIndexer.Guarantees.WrappedCursors
