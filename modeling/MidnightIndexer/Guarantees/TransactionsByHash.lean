import MidnightIndexer.Source.TransactionsByHash

/-!
# Transactions by hash on both backends

The two statements select the same rows, and the identifiers that SQLite loads one
transaction at a time are those of the Postgres column. They order the rows in opposite
ways, so they agree exactly where there is nothing to order.
-/

namespace MidnightIndexer.Guarantees.TransactionsByHash

open Lib List Source.TransactionsByHash
open Source (ProtocolVersion)
open Source.ChainIndexer (ByteVec BlockRow TransactionRow RegularTransactionRow BridgeClaimRow
  StorageError)

/-- A stored transaction that the hash finds: it is in a block, and it has the columns of its
variant. -/
structure Found (tables : TransactionTables) (hash : ByteVec) (row : TransactionRow) : Prop where
  stored : row ∈ tables.transactions
  hashed : row.hash = hash
  block : ∃ block ∈ tables.blocks, block.id = row.blockId
  columns : row.variant = .system ∨
    ∃ regular ∈ tables.regularTransactions, regular.id = row.id

structure IndicesFit (regular : RegularTransactionRow) : Prop where
  zswapStart : 0 ≤ regular.zswapStartIndex
  zswapEnd : 0 ≤ regular.zswapEndIndex
  commitmentStart : 0 ≤ regular.dustCommitmentStartIndex
  commitmentEnd : 0 ≤ regular.dustCommitmentEndIndex
  generationStart : 0 ≤ regular.dustGenerationStartIndex
  generationEnd : 0 ≤ regular.dustGenerationEndIndex

/-- The columns of a transaction can be decoded. -/
structure Readable (tables : TransactionTables) (row : TransactionRow) : Prop where
  version : (ProtocolVersion.tryFromI64 row.protocolVersion).isSome
  indices : row.variant = .regular → ∀ regular ∈ tables.regularTransactions,
    regular.id = row.id → IndicesFit regular

/-! ## Identifiers -/

theorem identifierRows_increasing (regulars : List RegularTransactionRow) :
    (identifierRows regulars).Pairwise fun low high => low.id < high.id := by
  unfold identifierRows
  dsimp only
  rw [pairwise_map]
  have numbers : ((regulars.flatMap fun row => row.identifiers.map (row.id, ·)).zipIdx 1).Pairwise
      fun low high => low.2 < high.2 := by
    rw [← pairwise_map (f := Prod.snd) (R := (· < ·)), zipIdx_map_snd]
    exact pairwise_lt_range'
  exact numbers

theorem filter_zipIdx {α : Type} (p : α → Bool) (xs : List α) (start : Nat) :
    ((xs.zipIdx start).filter fun entry => p entry.1).map Prod.fst = xs.filter p := by
  induction xs generalizing start with
  | nil => rfl
  | cons x rest ih =>
    rw [zipIdx_cons, filter_cons, filter_cons]
    split
    · rw [map_cons, ih]
    · exact ih (start + 1)

variable {regulars : List RegularTransactionRow} {regular : RegularTransactionRow} {row : UnionRow}

theorem identifiers_of (unique : (regulars.map RegularTransactionRow.id).Nodup)
    (member : regular ∈ regulars) :
    ((regulars.flatMap fun row => row.identifiers.map (row.id, ·)).filter fun entry =>
      entry.1 = regular.id).map Prod.snd = regular.identifiers := by
  induction regulars with
  | nil => cases member
  | cons first rest ih =>
    rw [map_cons, nodup_cons] at unique
    rw [flatMap_cons, filter_append, map_append]
    have others : ∀ row : RegularTransactionRow, row.id ≠ regular.id →
        (row.identifiers.map (row.id, ·)).filter (fun entry => entry.1 = regular.id) = [] := by
      intro row different
      simp [filter_map, Function.comp_def, different]
    have own : ((regular.identifiers.map (regular.id, ·)).filter fun entry =>
        entry.1 = regular.id).map Prod.snd = regular.identifiers := by
      simp [filter_map, Function.comp_def]
    rcases mem_cons.mp member with rfl | later
    · have none_later : (rest.flatMap fun row => row.identifiers.map (row.id, ·)).filter
          (fun entry => entry.1 = regular.id) = [] := by
        rw [filter_flatMap, flatMap_eq_nil_iff]
        intro row listed
        exact others row fun same => unique.1 (same ▸ mem_map_of_mem listed)
      rw [own, none_later, map_nil, append_nil]
    · have different : first.id ≠ regular.id := fun same =>
        unique.1 (same ▸ mem_map_of_mem later)
      rw [others first different, ih unique.2 later, map_nil, nil_append]

/-- What SQLite loads for a regular transaction is what Postgres has in the column. -/
theorem getIdentifiersForTransaction_eq (unique : (regulars.map RegularTransactionRow.id).Nodup)
    (member : regular ∈ regulars) :
    getIdentifiersForTransaction (identifierRows regulars) regular.id = regular.identifiers := by
  have numbered := filter_zipIdx (fun entry : Nat × ByteVec => entry.1 = regular.id)
    (regulars.flatMap fun row => row.identifiers.map (row.id, ·)) 1
  rw [getIdentifiersForTransaction, Sql.orderBy_of_increasing
    ((identifierRows_increasing regulars).filter _), ← identifiers_of unique member, ← numbered,
    identifierRows, filter_map, map_map, map_map]
  rfl

/-! ## Rows -/

section

variable {tables : TransactionTables} {hash : ByteVec}

theorem mem_inBlocks_iff {row : TransactionRow} {blockHash : ByteVec} :
    (row, blockHash) ∈ inBlocks tables hash ↔ row ∈ tables.transactions ∧ row.hash = hash ∧
      ∃ block ∈ tables.blocks, block.id = row.blockId ∧ block.hash = blockHash := by
  simp only [inBlocks, mem_flatMap, mem_filter, mem_map, decide_eq_true_eq, Prod.mk.injEq]
  constructor
  · rintro ⟨other, ⟨stored, hashed⟩, block, ⟨listed, joined⟩, rfl, rfl⟩
    exact ⟨stored, hashed, block, listed, joined, rfl⟩
  · rintro ⟨stored, hashed, block, listed, joined, rfl⟩
    exact ⟨row, ⟨stored, hashed⟩, block, ⟨listed, joined⟩, rfl, rfl⟩

/-- A selected row is a transaction that is found, with its own columns. -/
theorem found_of_mem (member : row ∈ unionAll tables hash) : Found tables hash row.transaction ∧
      (row.transaction.variant = .regular → ∃ regular ∈ tables.regularTransactions,
        regular.id = row.id ∧ row.regular = some regular) := by
  rcases mem_append.mp member with first | second
  · obtain ⟨⟨transaction, blockHash⟩, joined, inRegular⟩ := mem_flatMap.mp first
    obtain ⟨regular, kept, rfl⟩ := mem_map.mp inRegular
    obtain ⟨listed, own⟩ := mem_filter.mp kept
    obtain ⟨stored, hashed, block, inBlock, blockId, _⟩ := mem_inBlocks_iff.mp joined
    have ids : regular.id = transaction.id := by simpa using own
    exact ⟨⟨stored, hashed, ⟨block, inBlock, blockId⟩, .inr ⟨regular, listed, ids⟩⟩,
      fun _ => ⟨regular, listed, ids, rfl⟩⟩
  · obtain ⟨⟨transaction, blockHash⟩, kept, rfl⟩ := mem_map.mp second
    obtain ⟨joined, system⟩ := mem_filter.mp kept
    obtain ⟨stored, hashed, block, inBlock, blockId, _⟩ := mem_inBlocks_iff.mp joined
    have variant : transaction.variant = .system := by simpa using system
    refine ⟨⟨stored, hashed, ⟨block, inBlock, blockId⟩, .inl variant⟩, ?_⟩
    intro regular
    rw [variant] at regular
    cases regular

theorem Found.selected {row : TransactionRow} (found : Found tables hash row) :
    ∃ selected ∈ unionAll tables hash, selected.transaction = row := by
  obtain ⟨stored, hashed, ⟨block, inBlock, blockId⟩, columns⟩ := found
  have joined : (row, block.hash) ∈ inBlocks tables hash :=
    mem_inBlocks_iff.mpr ⟨stored, hashed, block, inBlock, blockId, rfl⟩
  rcases columns with system | ⟨regular, listed, own⟩
  · refine ⟨⟨row, block.hash, none⟩, mem_append_right _ ?_, rfl⟩
    exact mem_map.mpr ⟨_, mem_filter.mpr ⟨joined, by simpa using system⟩, rfl⟩
  · refine ⟨⟨row, block.hash, some regular⟩, mem_append_left _ ?_, rfl⟩
    refine mem_flatMap.mpr ⟨_, joined, mem_map.mpr ⟨regular, ?_, rfl⟩⟩
    exact mem_filter.mpr ⟨listed, by simpa using own⟩

end

/-! ## Decoding -/

section

variable {identifiers : RegularTransactionRow → List ByteVec} {row : UnionRow}
  {version : ProtocolVersion} {own : List ByteVec}

theorem tryU64_okIff (column : Int) : OkIff .decode (tryU64 column) (0 ≤ column) := by
  unfold tryU64
  split
  next positive => exact .inl ⟨positive, _, rfl⟩
  next negative => exact .inr ⟨negative, rfl⟩

theorem regularFromRow_okIff (row : UnionRow) (version : ProtocolVersion)
    (regular : RegularTransactionRow) (own : List ByteVec) :
    OkIff .decode (regularFromRow row version regular own) (IndicesFit regular) := by
  have columns : OkIff .decode (regularFromRow row version regular own) _ :=
    (tryU64_okIff _).bind fun _ _ => (tryU64_okIff _).bind fun _ _ =>
    (tryU64_okIff _).bind fun _ _ => (tryU64_okIff _).bind fun _ _ =>
    (tryU64_okIff _).bind fun _ _ => (tryU64_okIff _).bind fun _ _ => .pure _
  refine columns.congr ⟨fun ⟨a, b, c, d, f, g, _⟩ => ⟨a, b, c, d, f, g⟩, fun fit => ?_⟩
  exact ⟨fit.zswapStart, fit.zswapEnd, fit.commitmentStart, fit.commitmentEnd,
    fit.generationStart, fit.generationEnd, trivial⟩

theorem regularFromRow_id {transaction : RegularTransaction}
    (success : regularFromRow row version regular own = .ok transaction) :
    transaction.id = row.id := by
  unfold regularFromRow at success
  iterate 6 obtain ⟨_, _, success⟩ := bind_success success
  cases success
  rfl

theorem regularFromRow_identifiers (row : UnionRow) (version : ProtocolVersion)
    (regular : RegularTransactionRow) (own other : List ByteVec) :
    regularFromRow row version regular own =
      (regularFromRow row version regular other).map ({ · with identifiers := own }) := by
  unfold regularFromRow
  iterate 6 refine bind_same fun _ => ?_
  rfl

theorem makeTransaction_id {transaction : Transaction}
    (success : makeTransaction identifiers row = .ok transaction) : transaction.id = row.id := by
  unfold makeTransaction at success
  obtain ⟨version, _, success⟩ := bind_success success
  cases variant : row.transaction.variant with
  | system =>
    rw [variant] at success
    cases success
    rfl
  | regular =>
    rw [variant] at success
    obtain ⟨regular, _, decoded, read, success⟩ := bind₂_success success
    cases success
    exact regularFromRow_id read

end

/-! ## Both backends -/

section

variable {tables : TransactionTables} {hash : ByteVec}

/-- A selected row can be decoded exactly if its transaction is readable. -/
theorem makeTransaction_okIff (member : row ∈ unionAll tables hash)
    (identifiers : RegularTransactionRow → List ByteVec) :
    OkIff .decode (makeTransaction identifiers row) (Readable tables row.transaction) := by
  obtain ⟨_, columns⟩ := found_of_mem member
  unfold makeTransaction
  cases variant : row.transaction.variant with
  | system =>
    refine ((OkIff.okOr _).bind fun _ _ => .pure _).congr ⟨fun both => ⟨both.1, ?_⟩,
      fun readable => ⟨readable.version, trivial⟩⟩
    rw [variant]
    nofun
  | regular =>
    obtain ⟨own, listed, ids, present⟩ := columns variant
    rw [present]
    refine ((OkIff.okOr _).bind fun version _ => (regularFromRow_okIff row version own
      (identifiers own)).bind fun _ _ => .pure _).congr ⟨fun both => ⟨both.1, ?_⟩, fun readable =>
        ⟨readable.version, readable.indices variant own listed ids, trivial⟩⟩
    intro _ other otherListed otherId
    rw [inj_on_of_nodup_map tables.regularIds otherListed listed (otherId.trans ids.symm)]
    exact both.2.1

/-- Loading the identifiers afterwards makes up for the missing column. -/
theorem loadIdentifiers_makeTransaction (member : row ∈ unionAll tables hash) :
    makeTransaction RegularTransactionRow.identifiers row = (makeTransaction (fun _ => []) row).map
        (loadIdentifiers (identifierRows tables.regularTransactions)) := by
  obtain ⟨_, columns⟩ := found_of_mem member
  unfold makeTransaction
  apply bind_same
  intro version
  cases variant : row.transaction.variant with
  | system => rfl
  | regular =>
    obtain ⟨own, listed, ids, present⟩ := columns variant
    have loaded := getIdentifiersForTransaction_eq tables.regularIds listed
    rw [present]
    change (regularFromRow row version own own.identifiers >>= _) =
      (regularFromRow row version own [] >>= _).map _
    rw [regularFromRow_identifiers row version own own.identifiers []]
    cases read : regularFromRow row version own [] with
    | error e => rfl
    | ok transaction =>
      have id : transaction.id = own.id := (regularFromRow_id read).trans ids.symm
      rw [← loaded, ← id]
      rfl

theorem mapM_loadIdentifiers {rows : List UnionRow}
    (selected : ∀ row ∈ rows, row ∈ unionAll tables hash) :
    rows.mapM (makeTransaction RegularTransactionRow.identifiers) =
      (rows.mapM (makeTransaction fun _ => [])).map
        (map (loadIdentifiers (identifierRows tables.regularTransactions))) := by
  induction rows with
  | nil => rfl
  | cons row rest ih =>
    rw [mapM_cons, mapM_cons, loadIdentifiers_makeTransaction (selected row mem_cons_self),
      ih fun later member => selected later (mem_cons_of_mem row member)]
    cases makeTransaction (fun _ => []) row with
    | error e => rfl
    | ok first =>
      cases rest.mapM (makeTransaction fun _ => []) with
      | error | ok => rfl

def inOrder (tables : TransactionTables) (hash : ByteVec) : Sql.Backend → List UnionRow
  | .postgres => Sql.orderByDesc UnionRow.id (unionAll tables hash)
  | .sqlite => Sql.orderBy UnionRow.id (unionAll tables hash)

theorem mem_inOrder {backend : Sql.Backend} :
    row ∈ inOrder tables hash backend ↔ row ∈ unionAll tables hash := by
  cases backend with
  | postgres => exact Sql.mem_orderByDesc
  | sqlite => exact Sql.mem_orderBy

/-- Both backends decode the same rows and attach the same claims, in their own orders. -/
theorem getTransactionsByHash_eq (backend : Sql.Backend) (tables : TransactionTables)
    (hash : ByteVec) : getTransactionsByHash backend tables hash =
      ((inOrder tables hash backend).mapM (makeTransaction RegularTransactionRow.identifiers)).map
          (map (attachBridgeClaim tables.bridgeClaims)) := by
  cases backend with
  | postgres => rfl
  | sqlite =>
    rw [mapM_loadIdentifiers fun row member => mem_inOrder.mp member]
    dsimp only [getTransactionsByHash, inOrder]
    cases (Sql.orderBy UnionRow.id (unionAll tables hash)).mapM (makeTransaction fun _ => []) with
    | error | ok => rfl

theorem attachBridgeClaim_id (claims : List BridgeClaimRow) (transaction : Transaction) :
    (attachBridgeClaim claims transaction).id = transaction.id := by
  cases transaction <;> rfl

theorem getTransactionsByHash_ids {backend : Sql.Backend} {transactions : List Transaction}
    (success : getTransactionsByHash backend tables hash = .ok transactions) :
    transactions.map Transaction.id = (inOrder tables hash backend).map UnionRow.id := by
  rw [getTransactionsByHash_eq] at success
  obtain ⟨decoded, read, rfl⟩ := map_success success
  rw [map_map, ← mapM_map read fun row transaction made => makeTransaction_id made]
  apply map_congr_left
  intro transaction _
  exact attachBridgeClaim_id _ transaction

/-- Either backend answers exactly if all selected rows can be decoded. -/
theorem getTransactionsByHash_okIff (backend : Sql.Backend) (tables : TransactionTables)
    (hash : ByteVec) : OkIff .decode (getTransactionsByHash backend tables hash)
      (∀ row ∈ unionAll tables hash, Readable tables row.transaction) := by
  rw [getTransactionsByHash_eq]
  have rows := OkIff.mapM fun row (listed : row ∈ inOrder tables hash backend) =>
    makeTransaction_okIff (mem_inOrder.mp listed) RegularTransactionRow.identifiers
  exact (rows.map _).congr (by simp only [mem_inOrder])

end

/-- The backends agree exactly if the hash finds at most one transaction, or one that cannot be
decoded, on which both fail. -/
theorem by_hash_agree_iff (tables : TransactionTables) (hash : ByteVec) :
    getTransactionsByHash .postgres tables hash = getTransactionsByHash .sqlite tables hash ↔
      (∃ row, Found tables hash row ∧ ¬ Readable tables row) ∨
        ∀ row other, Found tables hash row → Found tables hash other → row = other := by
  by_cases unreadable : ∃ row, Found tables hash row ∧ ¬ Readable tables row
  · obtain ⟨row, found, broken⟩ := unreadable
    obtain ⟨selected, member, rfl⟩ := found.selected
    have fails (backend : Sql.Backend) : getTransactionsByHash backend tables hash = .error .decode :=
      (getTransactionsByHash_okIff backend tables hash).error fun all => broken (all _ member)
    rw [fails, fails]
    exact iff_of_true rfl (Or.inl ⟨_, found, broken⟩)
  · rw [or_iff_right unreadable]
    have readable : ∀ row ∈ unionAll tables hash, Readable tables row.transaction := by
      intro row member
      by_contra broken
      exact unreadable ⟨row.transaction, (found_of_mem member).1, broken⟩
    constructor
    · intro agree row other first second
      obtain ⟨transactions, answer⟩ :=
        (getTransactionsByHash_okIff .postgres tables hash).ok readable
      have ids := getTransactionsByHash_ids answer
      rw [getTransactionsByHash_ids (agree ▸ answer)] at ids
      obtain ⟨one, oneSelected, rfl⟩ := first.selected
      obtain ⟨two, twoSelected, rfl⟩ := second.selected
      have sameId := Sql.keys_eq_of_orders_agree ids.symm one oneSelected two twoSelected
      exact List.inj_on_of_nodup_map tables.transactionIds first.stored second.stored sameId
    · intro single
      have sameId : ∀ a ∈ unionAll tables hash, ∀ b ∈ unionAll tables hash, a.id = b.id := by
        intro a first b second
        exact congrArg TransactionRow.id
          (single _ _ (found_of_mem first).1 (found_of_mem second).1)
      obtain ⟨rising, falling⟩ := Sql.orderBy_of_keys_eq sameId
      rw [getTransactionsByHash_eq, getTransactionsByHash_eq, inOrder, inOrder, rising, falling]

def sampleBlock (id : Nat) : BlockRow where
  id := id
  hash := [UInt8.ofNat id]
  height := id
  protocolVersion := 22000
  parentHash := []
  author := none
  timestamp := 0
  zswapMerkleTreeRoot := []
  ledgerParameters := []
  ledgerStateKey := []
  zswapEndIndex := 0
  dustCommitmentEndIndex := 0
  dustGenerationEndIndex := 0
  dustCommitmentMerkleTreeRoot := []
  dustGenerationMerkleTreeRoot := []

def failedRegular (id : Nat) : RegularTransactionRow where
  id := id
  transactionResult := .failure
  zswapMerkleTreeRoot := []
  zswapStartIndex := 0
  zswapEndIndex := 0
  dustCommitmentStartIndex := 0
  dustCommitmentEndIndex := 0
  dustGenerationStartIndex := 0
  dustGenerationEndIndex := 0
  paidFees := 0
  estimatedFees := 0
  identifiers := [[9]]

def failedTwice : TransactionTables where
  blocks := [sampleBlock 1, sampleBlock 2]
  transactions := [⟨1, 1, .regular, [7], 22000, []⟩, ⟨2, 2, .regular, [7], 22000, []⟩]
  regularTransactions := [failedRegular 1, failedRegular 2]
  bridgeClaims := []
  blockIds := by decide
  transactionIds := by decide
  regularIds := by decide

/-- Postgres lists the later one first, SQLite the earlier one. -/
theorem by_hash_failed_twice :
    (getTransactionsByHash .postgres failedTwice [7]).toOption.map (List.map Transaction.id) =
        some [2, 1] ∧
      (getTransactionsByHash .sqlite failedTwice [7]).toOption.map (List.map Transaction.id) =
        some [1, 2] ∧
      getTransactionsByHash .postgres failedTwice [7] ≠
        getTransactionsByHash .sqlite failedTwice [7] := by
  refine ⟨by decide, by decide, ?_⟩
  intro agree
  have ids := congrArg (fun answer => answer.toOption.map (List.map Transaction.id)) agree
  exact absurd ids (by decide)

end MidnightIndexer.Guarantees.TransactionsByHash
