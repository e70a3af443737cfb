import MidnightIndexer.Guarantees.RestartEquivalence
import MidnightIndexer.Guarantees.UtxoTable
import MidnightIndexer.Lib.Totals
import MidnightIndexer.Source.BridgePools

/-!
# The pool summary over every sequence of saved bridge events

After any sequence of `save_block` calls the joined table holds the events of the calls
that succeeded, and the summary of it is compared with the sums over these events. Heights
are cast to `i64`, so that the bound and an event are compared in the wrong order if only
one of them is above the sign. The counts of flushes are cast to `i32` and then read with
their sign.
-/

namespace MidnightIndexer.Guarantees.BridgePools

open Lib List Sql Totals
open Source.ChainIndexer (BlockRow BridgeEvent ByteArray32 ByteVec ChildTables LedgerCrates
  ProtocolBridgeEventRow Storage TransactionRow bridgeEventRow saveBridgeEvent saveBridgeEvents
  withBridgeEvents)
open Source.IndexerApi (BridgeEventVariant BridgeEventView BridgePoolSummary PoolTotals
  TreasuryReason addU128 addU64 decodeU64Be decodeU64Be_toBeBytes getBridgePoolSummary
  getBridgeTreasuryInflows heightBound joinBlocks mapEventRow toBridgeRecipient toBridgeRecipient_bytes toByteArray32
  toByteArray32_bytes transposed transposed_map treasuryVariants)
open RestartEquivalence (sampleCrates sampleTables sampleVersion)
open UtxoTable (SaveBlock saveBlockStep)

structure SavedEvent where
  height : UInt64
  event : BridgeEvent
  deriving DecidableEq

variable {crates : LedgerCrates} {read : ByteVec → BridgeEvent} {others : ChildTables crates}

def eventsOf (read : ByteVec → BridgeEvent) (call : SaveBlock crates) : List SavedEvent :=
  (call.block.bridgeEvents.map read).map fun event => ⟨call.block.height, event⟩

def savedEvents : Storage (withBridgeEvents read others) → List (SaveBlock crates) →
    List SavedEvent
  | _, [] => []
  | storage, call :: rest =>
    match call.on storage with
    | .ok after => eventsOf read call ++ savedEvents after rest
    | .error _ => savedEvents storage rest

def viewsOf (storage : Storage (withBridgeEvents read others)) : List BridgeEventView :=
  joinBlocks storage.blocks storage.bridgeEvents

/-! ## The table holds the saved events -/

/-- The view has the columns of the event. -/
def Stored (view : BridgeEventView) (saved : SavedEvent) : Prop :=
  view.height = Sql.asI64 saved.height.toNat ∧
    ∃ id transactions blockId, view.row = bridgeEventRow id transactions blockId saved.event

structure StoreOf (storage : Storage (withBridgeEvents read others)) (saved : List SavedEvent) :
    Prop where
  ids : ∀ block ∈ storage.blocks, block.id ≤ storage.blocks.length
  links : ∀ row ∈ storage.bridgeEvents, row.blockId ≤ storage.blocks.length
  events : List.Forall₂ Stored (viewsOf storage) saved
  size : storage.bridgeEvents.length = saved.length
  few : saved.length < 2 ^ 63

def AddedTo (blockId : Nat) (row : ProtocolBridgeEventRow) (event : BridgeEvent) : Prop :=
  ∃ id transactions, row = bridgeEventRow id transactions blockId event

variable {rows : List ProtocolBridgeEventRow} {events : List BridgeEvent}
  {storage : Storage (withBridgeEvents read others)} {saved : List SavedEvent}
  {views : List BridgeEventView} {variant : BridgeEventVariant} {view : BridgeEventView}

theorem saveBridgeEvents_rows {after : List ProtocolBridgeEventRow}
    {transactions : List TransactionRow} {blockId : Nat} (few : rows.length < 2 ^ 63)
    (success : saveBridgeEvents rows transactions events blockId = .ok after) :
    ∃ added, after = rows ++ added ∧ Forall₂ (AddedTo blockId) added events ∧
      after.length < 2 ^ 63 := by
  refine foldlM_keeps (fun current taken => ∃ added, current = rows ++ added ∧
    Forall₂ (AddedTo blockId) added taken ∧ current.length < 2 ^ 63) ?_ ?_ success
  · rintro current taken event next ⟨added, rfl, related, _⟩ saved
    unfold saveBridgeEvent at saved
    split at saved
    next room =>
      cases saved
      refine ⟨_, append_assoc .., rel_append related (.cons ⟨_, _, rfl⟩ .nil), ?_⟩
      rw [length_append]
      exact room
    next => cases saved
  · exact ⟨[], (append_nil _).symm, .nil, few⟩

theorem joinBlocks_later {blocks : List BlockRow} {block : BlockRow}
    (earlier : ∀ row ∈ rows, row.blockId < block.id) :
    joinBlocks (blocks ++ [block]) rows = joinBlocks blocks rows := by
  unfold joinBlocks
  refine flatMap_congr fun row member => ?_
  have other : (block.id == row.blockId) = false := beq_false_of_ne (earlier row member).ne'
  rw [filter_append, filter_cons_of_neg (by simp [other]), filter_nil, append_nil]

theorem joinBlocks_own {blocks : List BlockRow} {block : BlockRow}
    (newest : ∀ old ∈ blocks, old.id < block.id) (own : ∀ row ∈ rows, row.blockId = block.id) :
    joinBlocks (blocks ++ [block]) rows = rows.map fun row => ⟨block.height, row⟩ := by
  rw [map_eq_flatMap]
  refine flatMap_congr fun row member => ?_
  have older : (blocks.filter fun old => old.id == block.id) = [] :=
    filter_eq_nil_iff.mpr fun old known => by simpa using (newest old known).ne
  simp [own row member, older]

theorem addedTo_blockId {blockId : Nat} (added : Forall₂ (AddedTo blockId) rows events) :
    ∀ row ∈ rows, row.blockId = blockId := by
  intro row member
  obtain ⟨event, _, id, transactions, rfl⟩ := forall₂_left added member
  rfl

theorem StoreOf.call {after : Storage (withBridgeEvents read others)}
    (store : StoreOf storage saved) {call : SaveBlock crates}
    (success : call.on storage = .ok after) : StoreOf after (saved ++ eventsOf read call) := by
  have blocks := Storage.saveBlock_blocks success
  obtain ⟨transactions, written⟩ := Storage.saveBlock_bridgeEvents success
  obtain ⟨added, rows, related, few⟩ := saveBridgeEvents_rows (store.size ▸ store.few) written
  have own := addedTo_blockId related
  have length : after.blocks.length = storage.blocks.length + 1 := by
    rw [blocks, length_append, length_singleton]
  have size : after.bridgeEvents.length = (saved ++ eventsOf read call).length := by
    rw [rows, length_append, length_append, store.size, related.length_eq, eventsOf,
      length_map fun event => (⟨call.block.height, event⟩ : SavedEvent)]
  refine ⟨?_, ?_, ?_, size, size ▸ few⟩
  · intro block member
    rw [length]
    rcases mem_append.mp (blocks ▸ member) with old | new
    · exact Nat.le_succ_of_le (store.ids block old)
    · rw [mem_singleton.mp new]
      exact le_rfl
  · intro row member
    rw [length]
    rcases mem_append.mp (rows ▸ member) with old | new
    · exact Nat.le_succ_of_le (store.links row old)
    · exact (own row new).le
  · have joined : viewsOf after = viewsOf storage ++
        added.map fun row => ⟨asI64 call.block.height.toNat, row⟩ := by
      unfold viewsOf
      rw [blocks, rows, joinBlocks, flatMap_append]
      congr 1
      · exact joinBlocks_later fun row member => Nat.lt_succ_of_le (store.links row member)
      · exact joinBlocks_own (fun old member => Nat.lt_succ_of_le (store.ids old member)) own
    rw [joined]
    refine rel_append store.events ?_
    rw [eventsOf, forall₂_map_left_iff, forall₂_map_right_iff]
    refine related.imp fun row event columns => ?_
    obtain ⟨id, linked, rfl⟩ := columns
    exact ⟨rfl, id, linked, _, rfl⟩

theorem StoreOf.run (store : StoreOf storage saved) (calls : List (SaveBlock crates)) :
    StoreOf (Lib.run saveBlockStep storage calls) (saved ++ savedEvents storage calls) := by
  induction calls generalizing storage saved with
  | nil => simpa [savedEvents] using store
  | cons call rest ih =>
    rw [run_cons, savedEvents, saveBlockStep]
    cases outcome : call.on storage with
    | error e => exact ih store
    | ok after =>
      rw [← append_assoc]
      exact ih (store.call outcome)

theorem StoreOf.empty : StoreOf (Storage.empty (withBridgeEvents read others)) [] where
  ids := by simp [Storage.empty]
  links := by simp [Storage.empty, Storage.bridgeEvents, withBridgeEvents]
  events := .nil
  size := rfl
  few := by decide

/-! ## What the loop adds up -/

def amountOf (row : ProtocolBridgeEventRow) : Nat := decodeU64Be row.amount

def countOf (row : ProtocolBridgeEventRow) : Nat :=
  row.count.elim 0 fun count => (UInt64.ofInt count).toNat

def totalOf : TreasuryReason → PoolTotals → Nat
  | .invalid => PoolTotals.invalidTotal
  | .unapproved => PoolTotals.unapprovedTotal
  | .subminimalFlush => PoolTotals.flushTotal

def numberOf : TreasuryReason → PoolTotals → Nat
  | .invalid => PoolTotals.invalidCount
  | .unapproved => PoolTotals.unapprovedCount
  | .subminimalFlush => PoolTotals.flushCount

section

variable (rows : List ProtocolBridgeEventRow)

theorem foldl_addU128 : rows.foldl (fun total row => addU128 total (amountOf row)) 0 =
    min (rows.map amountOf).sum (2 ^ 128 - 1) := by
  have cut := Saturating.foldl_add (2 ^ 128 - 1) amountOf rows (Nat.zero_le _)
  rw [Nat.zero_add] at cut
  exact cut

theorem foldl_addU64 (term : ProtocolBridgeEventRow → Nat) :
    rows.foldl (fun total row => addU64 total (term row)) 0 = (rows.map term).sum % 2 ^ 64 := by
  have wrapped := foldl_add_mod (2 ^ 64) term rows 0
  rw [Nat.zero_add, Nat.zero_mod] at wrapped
  exact wrapped

theorem foldl_reserve : (rows.foldl PoolTotals.add .zero).reserveTotal =
    min ((rows.filter fun row => row.variant == .reserveTransfer).map amountOf).sum
      (2 ^ 128 - 1) := by
  rw [← foldl_addU128]
  apply foldl_figure
  all_goals
    intro totals row selected
    cases variant : row.variant <;> simp_all [PoolTotals.add, amountOf]

theorem foldl_total (reason : TreasuryReason) : totalOf reason (rows.foldl PoolTotals.add .zero) =
    min ((rows.filter fun row => row.variant == reason.asVariant).map amountOf).sum
      (2 ^ 128 - 1) := by
  have start : totalOf reason .zero = 0 := by cases reason <;> rfl
  rw [← foldl_addU128, ← start]
  apply foldl_figure
  all_goals
    intro totals row selected
    cases reason <;> cases variant : row.variant <;>
      simp_all [PoolTotals.add, totalOf, amountOf, TreasuryReason.asVariant]

theorem foldl_number (reason : TreasuryReason) : numberOf reason (rows.foldl PoolTotals.add .zero) =
    (rows.filter fun row => row.variant == reason.asVariant).length % 2 ^ 64 := by
  have ones : ((rows.filter fun row => row.variant == reason.asVariant).map fun _ => 1).sum =
      (rows.filter fun row => row.variant == reason.asVariant).length := by
    simp
  have start : numberOf reason .zero = 0 := by cases reason <;> rfl
  rw [← ones, ← foldl_addU64, ← start]
  apply foldl_figure
  all_goals
    intro totals row selected
    cases reason <;> cases variant : row.variant <;>
      simp_all [PoolTotals.add, numberOf, TreasuryReason.asVariant]

theorem foldl_subminimum : (rows.foldl PoolTotals.add .zero).subminimumTxCount =
    ((rows.filter fun row => row.variant == .subminimalFlushTransfer && row.count.isSome).map
      countOf).sum % 2 ^ 64 := by
  rw [← foldl_addU64]
  apply foldl_figure
  all_goals
    intro totals row selected
    cases variant : row.variant <;> cases count : row.count <;>
      simp_all [PoolTotals.add, countOf]

end

/-! ## The exact sums -/

/-- No height stands for all of them. -/
def SavedEvent.atOrBelow (height : Option UInt64) (saved : SavedEvent) : Bool :=
  height.all fun bound => saved.height ≤ bound

def SavedEvent.castAtOrBelow (height : Option UInt64) (saved : SavedEvent) : Bool :=
  Sql.asI64 saved.height.toNat ≤ heightBound height

def eventsIn (saved : List SavedEvent) (selects : SavedEvent → Bool)
    (variant : BridgeEventVariant) : List BridgeEvent :=
  (saved.filter fun saved => saved.event.variant == variant && selects saved).map SavedEvent.event

def amounts (events : List BridgeEvent) : Nat :=
  (events.map fun event => event.amount.toNat).sum

def flushCounts (events : List BridgeEvent) : List Nat :=
  events.map fun event => event.count.elim 0 UInt32.toNat

def treasuryReasons : List TreasuryReason := [.invalid, .unapproved, .subminimalFlush]

structure ExactSummary (saved : List SavedEvent) (selects : SavedEvent → Bool)
    (summary : BridgePoolSummary) : Prop where
  reserve : summary.reserveTotal = amounts (eventsIn saved selects .reserveTransfer)
  treasury : summary.treasuryByReason = treasuryReasons.map fun reason =>
    ⟨reason.asVariant, amounts (eventsIn saved selects reason.asVariant),
      (eventsIn saved selects reason.asVariant).length⟩
  subminimum : summary.subminimumTxCount =
    (flushCounts (eventsIn saved selects .subminimalFlushTransfer)).sum

/-- The query for a reason and height finds the number and the total of the summary. -/
def AgreesWithInflows (backend : Sql.Backend) (views : List BridgeEventView)
    (height : Option UInt64) : Prop :=
  ∀ (reason : TreasuryReason) (limit : UInt64), views.length ≤ limit.toNat →
    limit.toNat < 2 ^ 63 → ∃ events,
      getBridgeTreasuryInflows backend views (some reason) none height 0 limit = .ok events ∧
        ⟨reason.asVariant, (events.map Source.IndexerApi.BridgeEvent.amount).sum, events.length⟩ ∈
          (getBridgePoolSummary views height).treasuryByReason

/-! ## The summary of the stored events -/

def extendedCounts (events : List BridgeEvent) : List Nat :=
  events.map fun event =>
    event.count.elim 0 fun count => (UInt64.ofInt (Sql.asI32 count.toNat)).toNat

def selectedRows (views : List BridgeEventView) (height : Option UInt64) :
    List ProtocolBridgeEventRow :=
  (views.filter fun view => view.height ≤ heightBound height).map BridgeEventView.row

open SavedEvent

theorem stored_columns (stored : Forall₂ Stored views saved) (height : Option UInt64)
    {p : ProtocolBridgeEventRow → Bool} {f : ProtocolBridgeEventRow → Nat} {g : BridgeEvent → Nat}
    (selected : ∀ id transactions blockId event,
      p (bridgeEventRow id transactions blockId event) = (event.variant == variant))
    (same : ∀ id transactions blockId event,
      f (bridgeEventRow id transactions blockId event) = g event) :
    ((selectedRows views height).filter p).map f =
      (eventsIn saved (castAtOrBelow height) variant).map g := by
  rw [selectedRows, filter_map, filter_filter, map_map, eventsIn, map_map]
  refine filter_map_of_related ?_ ?_ stored
  · rintro view saved ⟨cast, id, transactions, blockId, columns⟩
    simp only [Function.comp, columns, selected, cast, castAtOrBelow]
  · rintro view saved ⟨_, id, transactions, blockId, columns⟩
    simp only [Function.comp, columns, same]

theorem stored_amounts (stored : Forall₂ Stored views saved) (height : Option UInt64)
    (variant : BridgeEventVariant) :
    ((selectedRows views height).filter fun row => row.variant == variant).map amountOf =
      (eventsIn saved (castAtOrBelow height) variant).map fun event => event.amount.toNat :=
  stored_columns stored height (fun _ _ _ _ => rfl)
    fun _ _ _ event => decodeU64Be_toBeBytes event.amount

theorem eventsIn_length_le (saved : List SavedEvent) (selects : SavedEvent → Bool)
    (variant : BridgeEventVariant) : (eventsIn saved selects variant).length ≤ saved.length := by
  rw [eventsIn, length_map]
  exact length_filter_le _ _

/-- There are too few events for a total to reach the bound of its type. -/
theorem amounts_lt (few : saved.length < 2 ^ 63) (selects : SavedEvent → Bool)
    (variant : BridgeEventVariant) : amounts (eventsIn saved selects variant) < 2 ^ 128 - 1 := by
  have small : amounts (eventsIn saved selects variant) ≤
      (eventsIn saved selects variant).length * 2 ^ 64 := by
    have bound := sum_le_card_nsmul
      ((eventsIn saved selects variant).map fun event => event.amount.toNat) (2 ^ 64) fun n member => by
        obtain ⟨event, _, rfl⟩ := mem_map.mp member
        exact event.amount.toNat_lt.le
    rw [length_map, Nat.nsmul_eq_mul] at bound
    exact bound
  have length := eventsIn_length_le saved selects variant
  omega

structure CastSummary (saved : List SavedEvent) (height : Option UInt64)
    (summary : BridgePoolSummary) : Prop where
  reserve : summary.reserveTotal =
    amounts (eventsIn saved (SavedEvent.castAtOrBelow height) .reserveTransfer)
  treasury : summary.treasuryByReason = treasuryReasons.map fun reason =>
    ⟨reason.asVariant, amounts (eventsIn saved (SavedEvent.castAtOrBelow height) reason.asVariant),
      (eventsIn saved (SavedEvent.castAtOrBelow height) reason.asVariant).length⟩
  subminimum : summary.subminimumTxCount =
    (extendedCounts (eventsIn saved (SavedEvent.castAtOrBelow height)
      .subminimalFlushTransfer)).sum % 2 ^ 64

theorem StoreOf.summary (store : StoreOf storage saved) (height : Option UInt64) :
    CastSummary saved height (getBridgePoolSummary (viewsOf storage) height) := by
  have totals : ∀ variant, min (((selectedRows (viewsOf storage) height).filter
      fun row => row.variant == variant).map amountOf).sum (2 ^ 128 - 1) =
      amounts (eventsIn saved (castAtOrBelow height) variant) := by
    intro variant
    rw [stored_amounts store.events]
    exact Nat.min_eq_left (amounts_lt store.few (castAtOrBelow height) variant).le
  have numbers : ∀ variant, ((selectedRows (viewsOf storage) height).filter
      fun row => row.variant == variant).length % 2 ^ 64 =
      (eventsIn saved (castAtOrBelow height) variant).length := by
    intro variant
    have length := congrArg length (stored_amounts store.events height variant)
    rw [length_map, length_map] at length
    have few := store.few
    have selected := eventsIn_length_le saved (castAtOrBelow height) variant
    rw [length]
    exact Nat.mod_eq_of_lt (by omega)
  have counts : (((selectedRows (viewsOf storage) height).filter fun row =>
      row.variant == .subminimalFlushTransfer && row.count.isSome).map countOf) =
      extendedCounts (eventsIn saved (castAtOrBelow height)
        .subminimalFlushTransfer) := by
    refine stored_columns store.events height (fun _ _ _ event => ?_) fun _ _ _ event => ?_
    · cases event <;> rfl
    · cases event <;> rfl
  constructor
  · exact (foldl_reserve _).trans (totals _)
  · have reasons : (getBridgePoolSummary (viewsOf storage) height).treasuryByReason =
        treasuryReasons.map fun reason => ⟨reason.asVariant,
          totalOf reason ((selectedRows (viewsOf storage) height).foldl PoolTotals.add .zero),
          numberOf reason ((selectedRows (viewsOf storage) height).foldl PoolTotals.add .zero)⟩ :=
      rfl
    rw [reasons]
    refine map_congr_left fun reason _ => ?_
    rw [foldl_total, foldl_number, totals, numbers]
  · refine (foldl_subminimum _).trans ?_
    rw [← counts]
    rfl

/-! ## The treasury inflows -/

theorem mapEventRow_stored {saved : SavedEvent} (stored : Stored view saved) :
    ∃ event, mapEventRow view = .ok event := by
  obtain ⟨_, id, transactions, blockId, columns⟩ := stored
  unfold mapEventRow
  rw [columns]
  refine bind_total (transposed_map toByteArray32_bytes _) ?_
  refine bind_total (toByteArray32_bytes _) ?_
  exact bind_total (transposed_map toBridgeRecipient_bytes _) ⟨_, rfl⟩

theorem mapEventRow_amount {event : Source.IndexerApi.BridgeEvent}
    (success : mapEventRow view = .ok event) : event.amount = amountOf view.row := by
  unfold mapEventRow at success
  obtain ⟨_, _, _, _, _, _, success⟩ := bind₃_success success
  cases success
  rfl

theorem stored_bound {saved : SavedEvent} (stored : Stored view saved) (height : Option UInt64) :
    height.all (fun bound => decide (view.height ≤ asI64 bound.toNat)) =
      decide (view.height ≤ heightBound height) := by
  cases height with
  | some bound => rfl
  | none =>
    have small := asI64_lt saved.height.toNat
    rw [← stored.1] at small
    exact (decide_eq_true (Int.le_sub_one_of_lt small)).symm

/-- The views of a reason at or below a height, as both queries compare it. -/
def inflowViews (views : List BridgeEventView) (reason : TreasuryReason)
    (height : Option UInt64) : List BridgeEventView :=
  views.filter fun view =>
    view.row.variant == reason.asVariant && decide (view.height ≤ heightBound height)

theorem inflowViews_rows (views : List BridgeEventView) (reason : TreasuryReason)
    (height : Option UInt64) : (inflowViews views reason height).map BridgeEventView.row =
      (selectedRows views height).filter fun row => row.variant == reason.asVariant := by
  rw [selectedRows, filter_map, filter_filter]
  rfl

/-- A large enough first page has all of them. -/
theorem getBridgeTreasuryInflows_page (stored : Forall₂ Stored views saved)
    (backend : Sql.Backend) (reason : TreasuryReason) (height : Option UInt64) {limit : UInt64}
    (enough : views.length ≤ limit.toNat) (word : limit.toNat < 2 ^ 63) :
    getBridgeTreasuryInflows backend views (some reason) none height 0 limit =
      (orderBy (fun view => view.row.id) (inflowViews views reason height)).mapM
        mapEventRow := by
  have selected : (views.filter fun view =>
      (treasuryVariants (some reason)).contains view.row.variant &&
      (none : Option UInt64).all (fun bound => decide (asI64 bound.toNat ≤ view.height)) &&
      height.all (fun bound => decide (view.height ≤ asI64 bound.toNat))) =
      inflowViews views reason height := by
    refine filter_congr fun view member => ?_
    obtain ⟨_, _, columns⟩ := forall₂_left stored member
    rw [stored_bound columns, treasuryVariants, contains_cons, contains_nil,
      Bool.or_false, Option.all_none, Bool.and_true]
  have all_taken : (orderBy (fun view => view.row.id)
      (inflowViews views reason height)).length ≤ limit.toNat := by
    rw [(orderBy_perm _ _).length_eq]
    exact (length_filter_le _ _).trans enough
  unfold getBridgeTreasuryInflows
  dsimp only
  rw [selected, UInt64.toNat_zero, offset_zero]
  change ((Sql.limit backend (Sql.asI64 limit.toNat) _).mapError Sql.ReadError.refused >>= _) = _
  rw [limit_all backend word all_taken]
  rfl

theorem StoreOf.inflows (store : StoreOf storage saved) (backend : Sql.Backend)
    (height : Option UInt64) : AgreesWithInflows backend (viewsOf storage) height := by
  intro reason limit enough word
  have ordered := orderBy_perm (fun view : BridgeEventView => view.row.id)
    (inflowViews (viewsOf storage) reason height)
  have amounts_read := stored_amounts store.events height reason.asVariant
  rw [← inflowViews_rows, map_map] at amounts_read
  obtain ⟨events, success⟩ : ∃ events, (orderBy (fun view : BridgeEventView => view.row.id)
      (inflowViews (viewsOf storage) reason height)).mapM mapEventRow = .ok events := by
    refine mapM_total fun view member => ?_
    have known := (mem_filter.mp (ordered.mem_iff.mp member)).1
    obtain ⟨_, _, columns⟩ := forall₂_left store.events known
    exact mapEventRow_stored columns
  have total : (events.map Source.IndexerApi.BridgeEvent.amount).sum =
      amounts (eventsIn saved (castAtOrBelow height) reason.asVariant) := by
    rw [mapM_map success fun _ _ => mapEventRow_amount, (ordered.map _).sum_eq, ← Function.comp_def,
      amounts_read, amounts]
  have number : events.length =
      (eventsIn saved (castAtOrBelow height) reason.asVariant).length := by
    have length := congrArg length amounts_read
    rw [length_map, length_map] at length
    rw [← mapM_length success, ordered.length_eq, length]
  refine ⟨events, ?_, ?_⟩
  · rw [getBridgeTreasuryInflows_page store.events backend reason height enough word, success]
  · rw [total, number, (store.summary height).treasury]
    exact mem_map.mpr ⟨reason, by cases reason <;> decide, rfl⟩

/-! ## When the casts are harmless -/

/-- The event and the bound are both below `2 ^ 63` or both not. -/
def SavedEvent.sameSide (height : Option UInt64) (saved : SavedEvent) : Bool :=
  height.all fun bound => decide (saved.height.toNat < 2 ^ 63) == decide (bound.toNat < 2 ^ 63)

theorem castAtOrBelow_eq_iff (height : Option UInt64) (saved : SavedEvent) :
    saved.castAtOrBelow height = saved.atOrBelow height ↔ saved.sameSide height = true := by
  cases height with
  | none =>
    have small := asI64_lt saved.height.toNat
    have cast : saved.castAtOrBelow none = true := decide_eq_true (Int.le_sub_one_of_lt small)
    exact iff_of_true cast rfl
  | some bound =>
    have compare : saved.atOrBelow (some bound) = decide (saved.height.toNat ≤ bound.toNat) := rfl
    rw [compare, castAtOrBelow, heightBound, Option.elim_some, decide_eq_decide,
      sameSide, Option.all_some, beq_iff_eq, decide_eq_decide]
    by_cases side : saved.height.toNat < 2 ^ 63 ↔ bound.toNat < 2 ^ 63
    · exact iff_of_true (asI64_le_iff saved.height.toNat_lt bound.toNat_lt side) side
    · rw [asI64_le_iff_across saved.height.toNat_lt bound.toNat_lt side]
      exact iff_of_false (fun impossible => by tauto) side

/-- One of the two selections contains the other. -/
theorem castAtOrBelow_nested (height : Option UInt64) :
    (∀ saved : SavedEvent, saved.castAtOrBelow height = true → saved.atOrBelow height = true) ∨
      ∀ saved : SavedEvent, saved.atOrBelow height = true → saved.castAtOrBelow height = true := by
  cases height with
  | none => exact .inl fun _ _ => rfl
  | some bound =>
    by_cases small : bound.toNat < 2 ^ 63
    · refine .inr fun saved below => ((castAtOrBelow_eq_iff _ saved).mpr ?_).trans below
      have compare : saved.height.toNat ≤ bound.toNat := of_decide_eq_true below
      rw [sameSide, Option.all_some, beq_iff_eq, decide_eq_decide]
      omega
    · refine .inl fun saved cast => ((castAtOrBelow_eq_iff _ saved).mpr ?_).symm.trans cast
      have compare : asI64 saved.height.toNat ≤ asI64 bound.toNat := of_decide_eq_true cast
      have negative := asI64_neg (not_lt.mp small) bound.toNat_lt
      have large : ¬ saved.height.toNat < 2 ^ 63 := by
        intro low
        rw [asI64_of_lt low] at compare
        omega
      rw [sameSide, Option.all_some, beq_iff_eq, decide_eq_decide]
      omega

/-- The two selections have one total if what is on the other side adds nothing. -/
theorem sum_cast_eq_iff (saved : List SavedEvent) (height : Option UInt64)
    (variant : BridgeEventVariant) (term : BridgeEvent → Nat) :
    ((eventsIn saved (castAtOrBelow height) variant).map term).sum =
        ((eventsIn saved (atOrBelow height) variant).map term).sum ↔
      ∀ one ∈ saved, one.event.variant = variant → one.sameSide height = false →
        term one.event = 0 := by
  have inner (selects : SavedEvent → Bool) : (eventsIn saved selects variant).map term =
      ((saved.filter fun one => one.event.variant == variant).filter selects).map
        fun one => term one.event := by
    rw [filter_filter, eventsIn, map_map]
    simp only [Bool.and_comm]
    rfl
  rw [inner, inner, sum_filter_eq_iff _ (castAtOrBelow_nested height)]
  simp only [mem_filter, beq_iff_eq, and_imp, ne_eq, castAtOrBelow_eq_iff, Bool.not_eq_true]

theorem extended_toNat (count : UInt32) : (UInt64.ofInt (asI32 count.toNat)).toNat =
    count.toNat + if 2 ^ 31 ≤ count.toNat then 2 ^ 64 - 2 ^ 32 else 0 := by
  have word := count.toNat_lt
  rw [UInt64.ofInt, UInt64.toNat_ofNat']
  unfold asI32 toSigned
  split <;> split <;> omega

theorem extendedCounts_sum (events : List BridgeEvent) : (extendedCounts events).sum =
    (flushCounts events).sum +
      (flushCounts events).countP (fun count => 2 ^ 31 ≤ count) * (2 ^ 64 - 2 ^ 32) := by
  induction events with
  | nil => rfl
  | cons event rest ih =>
    unfold extendedCounts flushCounts at ih ⊢
    rw [map_cons, map_cons, sum_cons, sum_cons, countP_cons, ih]
    cases event.count with
    | none => simp
    | some count =>
      by_cases large : 2 ^ 31 ≤ count.toNat
      · simp only [Option.elim_some, extended_toNat, large, decide_true, if_true, Nat.add_mul]
        omega
      · simp only [Option.elim_some, extended_toNat, large, decide_false, if_false, Bool.false_eq_true]
        omega

/-- The wrapped sum is the sum of the counts if that fits and the signs cancel. -/
theorem extendedCounts_eq_iff (events : List BridgeEvent) :
    (extendedCounts events).sum % 2 ^ 64 = (flushCounts events).sum ↔
      (flushCounts events).sum < 2 ^ 64 ∧
        (flushCounts events).countP (fun count => 2 ^ 31 ≤ count) % 2 ^ 32 = 0 := by
  rw [extendedCounts_sum]
  exact wrapped_eq_iff (Nat.two_pow_pos 32)

/-- What the casts do not change. -/
structure PlainlyCast (saved : List SavedEvent) (height : Option UInt64) : Prop where
  sides : ∀ one ∈ saved, one.sameSide height = true ∨ one.event.variant = .userTransfer ∨
    (one.event.variant = .reserveTransfer ∧ one.event.amount = 0)
  fits : (flushCounts (eventsIn saved (SavedEvent.atOrBelow height)
    .subminimalFlushTransfer)).sum < 2 ^ 64
  signs : (flushCounts (eventsIn saved (SavedEvent.atOrBelow height)
    .subminimalFlushTransfer)).countP (fun count => 2 ^ 31 ≤ count) % 2 ^ 32 = 0

section

variable {saved : List SavedEvent} {height : Option UInt64}

theorem eventsIn_cast
    (sides : ∀ one ∈ saved, one.event.variant = variant → one.sameSide height = true) :
    eventsIn saved (castAtOrBelow height) variant = eventsIn saved (atOrBelow height) variant := by
  unfold eventsIn
  congr 1
  refine filter_congr fun one member => ?_
  by_cases same : one.event.variant = variant
  · rw [(castAtOrBelow_eq_iff height one).mpr (sides one member same)]
  · rw [beq_false_of_ne same, Bool.false_and, Bool.false_and]

/-- A treasury reason whose number of events is right. -/
theorem sides_of_number (number : (eventsIn saved (castAtOrBelow height) variant).length =
      (eventsIn saved (atOrBelow height) variant).length) :
    ∀ one ∈ saved, one.event.variant = variant → one.sameSide height = true := by
  have ones (events : List BridgeEvent) : (events.map fun _ => 1).sum = events.length := by simp
  rw [← ones, ← ones, sum_cast_eq_iff saved height variant fun _ => 1] at number
  intro one member same
  by_contra other
  exact one_ne_zero (number one member same (Bool.eq_false_of_not_eq_true other))

variable {summary : BridgePoolSummary}

theorem plainlyCast_of_exact (cast : CastSummary saved height summary)
    (exactly : ExactSummary saved (atOrBelow height) summary) :
    PlainlyCast saved height := by
  have reasons := cast.treasury.symm.trans exactly.treasury
  have reserve := cast.reserve.symm.trans exactly.reserve
  have subminimum := cast.subminimum.symm.trans exactly.subminimum
  have number (reason : TreasuryReason) :
      (eventsIn saved (castAtOrBelow height) reason.asVariant).length =
        (eventsIn saved (atOrBelow height) reason.asVariant).length := by
    have entry := map_inj_left.mp reasons reason (by cases reason <;> decide)
    exact congrArg Source.IndexerApi.BridgeTreasuryAggregate.count entry
  have treasury (reason : TreasuryReason) := sides_of_number (number reason)
  have flushes : eventsIn saved (castAtOrBelow height) .subminimalFlushTransfer =
      eventsIn saved (atOrBelow height) .subminimalFlushTransfer :=
    eventsIn_cast (treasury .subminimalFlush)
  rw [flushes, extendedCounts_eq_iff] at subminimum
  refine ⟨fun one member => ?_, subminimum.1, subminimum.2⟩
  cases variant : one.event.variant with
  | userTransfer => exact .inr (.inl rfl)
  | invalidTransfer => exact .inl (treasury .invalid one member variant)
  | unapprovedTransfer => exact .inl (treasury .unapproved one member variant)
  | subminimalFlushTransfer => exact .inl (treasury .subminimalFlush one member variant)
  | reserveTransfer =>
    cases side : one.sameSide height with
    | true => exact .inl rfl
    | false =>
      have nothing := (sum_cast_eq_iff saved height .reserveTransfer _).mp reserve one member
        variant side
      exact .inr (.inr ⟨rfl, UInt64.toNat_inj.mp nothing⟩)

theorem exact_of_plainlyCast (cast : CastSummary saved height summary)
    (plain : PlainlyCast saved height) : ExactSummary saved (atOrBelow height) summary := by
  have treasury (reason : TreasuryReason) : eventsIn saved (castAtOrBelow height) reason.asVariant =
        eventsIn saved (atOrBelow height) reason.asVariant := by
    refine eventsIn_cast fun one member same => ?_
    rcases plain.sides one member with side | user | ⟨reserve, _⟩
    · exact side
    · rw [user] at same
      cases reason <;> cases same
    · rw [reserve] at same
      cases reason <;> cases same
  constructor
  · rw [cast.reserve]
    refine (sum_cast_eq_iff saved height .reserveTransfer _).mpr fun one member same side => ?_
    rcases plain.sides one member with other | user | ⟨_, zero⟩
    · simp [side] at other
    · simp [user] at same
    · rw [zero]
      rfl
  · rw [cast.treasury]
    refine map_congr_left fun reason _ => ?_
    rw [treasury]
  · have flushes : eventsIn saved (castAtOrBelow height) .subminimalFlushTransfer =
        eventsIn saved (atOrBelow height) .subminimalFlushTransfer :=
      treasury .subminimalFlush
    rw [cast.subminimum, flushes]
    exact (extendedCounts_eq_iff _).mpr ⟨plain.fits, plain.signs⟩

end

/-- After every sequence of calls and for every height, the summary is exact and agrees
with the treasury inflows exactly if the casts of the heights and counts do no harm. -/
theorem pool_summary_exact_iff (read : ByteVec → BridgeEvent) (others : ChildTables crates)
    (calls : List (SaveBlock crates)) (height : Option UInt64) :
    (ExactSummary (savedEvents (Storage.empty (withBridgeEvents read others)) calls)
        (SavedEvent.atOrBelow height)
        (getBridgePoolSummary
          (viewsOf (run saveBlockStep (Storage.empty (withBridgeEvents read others)) calls)) height) ∧
      ∀ backend, AgreesWithInflows backend
        (viewsOf (run saveBlockStep (Storage.empty (withBridgeEvents read others)) calls)) height) ↔
    PlainlyCast (savedEvents (Storage.empty (withBridgeEvents read others)) calls) height := by
  have store := (@StoreOf.empty crates read others).run calls
  rw [List.nil_append] at store
  have cast := store.summary height
  constructor
  · rintro ⟨exactly, _⟩
    exact plainlyCast_of_exact cast exactly
  · intro plain
    exact ⟨exact_of_plainlyCast cast plain, fun backend => store.inflows backend height⟩

/-! ## A flush of half a word of transfers -/

def zeroHash : ByteArray32 := ⟨List.replicate 32 0, rfl⟩

def largeFlush : BridgeEvent := .subminimalFlushTransfer 7 2147483648 zeroHash

def flushBlock : SaveBlock sampleCrates where
  block :=
    { hash := [1]
      height := 0
      protocolVersion := sampleVersion .V9
      parentHash := []
      author := none
      timestamp := 0
      zswapMerkleTreeRoot := []
      dustRegistrationEvents := []
      bridgeEvents := [[]]
      ledgerParameters := []
      zswapEndIndex := 0
      dustCommitmentEndIndex := 0
      dustGenerationEndIndex := 0
      dustCommitmentMerkleTreeRoot := []
      dustGenerationMerkleTreeRoot := [] }
  transactions := []
  ledgerStateKey := []
  systemParametersChange := none

/-- One flush of `2 ^ 31` transfers is saved, and the summary reports more transfers than
there can be. -/
theorem large_flush_miscounted :
    let start := Storage.empty (withBridgeEvents (fun _ => largeFlush) sampleTables)
    let summary := getBridgePoolSummary (viewsOf (run saveBlockStep start [flushBlock])) (some 0)
    savedEvents start [flushBlock] = [⟨0, largeFlush⟩] ∧
      summary.subminimumTxCount = 18446744071562067968 ∧
      ¬ ExactSummary (savedEvents start [flushBlock]) (SavedEvent.atOrBelow (some 0)) summary := by
  refine ⟨by decide, by decide, fun exactly => ?_⟩
  exact absurd exactly.subminimum (by decide)

end MidnightIndexer.Guarantees.BridgePools
