import MidnightIndexer.Source.IndexBlock

/-!
# A restarted indexer stores what an uninterrupted one would

The blocks of a chain are indexed by one run, or by many runs that each start
from the database. After every block the start rebuilds the process that was
running: the finalised state carries no block fullness, its version is the
block's, `load` returns what was persisted, and the timestamp survives its
signed column. So every block is indexed from the same ledger state and parent
time, and the rows come out the same.

The author of a block is the one thing that a restarted stream may report
differently; it is hidden on both sides.
-/

namespace MidnightIndexer.Guarantees.RestartEquivalence

open Lib List Source.ChainIndexer Storage NodeBlock
open Source (LedgerVersion ProtocolVersion)

variable {crates : LedgerCrates} {tables : ChildTables crates}

/-- `load` inverts `persist`; a loaded state has no block fullness. -/
def LoadInvertsPersist (crates : LedgerCrates) : Prop :=
  ∀ ledger after : LedgerState crates, ∀ key, ledger.persist = .ok (after, key) →
    LedgerState.load crates key ledger.version = .ok { ledger with blockFullness := default }

/-- Block heights of a chain, as far as a signed column can hold them. -/
structure ChainHeights (blocks : List (NodeBlock crates)) : Prop where
  increasing : blocks.Pairwise fun low high => low.height < high.height
  signed : ∀ block ∈ blocks, block.height.toNat < 2 ^ 63

/-- The blocks still to come are above all stored ones. -/
def Fits (storage : Storage tables) (blocks : List (NodeBlock crates)) : Prop :=
  (storage.blocks.map BlockRow.height ++
    blocks.map fun block => Sql.asI64 block.height.toNat).Pairwise (· < ·)

/-! ## What indexing leaves in the process -/

variable {ledger after : LedgerState crates} {networkId : String} {block : NodeBlock crates}
  {node : NodeApi} {process : Process crates} {computed : Computed crates}
  {storage : Storage tables} {next : Process crates × Storage tables}
  {blocks : List (NodeBlock crates)}

theorem translate_version {version : LedgerVersion}
    (success : ledger.translate version = .ok after) : after.version = version := by
  obtain ⟨old, state, fullness⟩ := ledger
  cases old with
  | V8 =>
    cases version with
    | V8 =>
      cases success
      rfl
    | V9 =>
      obtain ⟨_, _, success⟩ := bind_success success
      cases success
      rfl
  | V9 =>
    cases version with
    | V8 => cases success
    | V9 =>
      cases success
      rfl

theorem ledgerForBlock_version (success : ledgerForBlock networkId block ledger = .ok after) :
    after.version = block.protocolVersion.ledgerVersion := by
  unfold ledgerForBlock at success
  split at success
  · cases success
    rfl
  · exact translate_version (mapError_success success)

/-- A state between blocks: at the block's version and with no fullness. -/
def Settled (version : LedgerVersion) (ledger : LedgerState crates) : Prop :=
  ledger.version = version ∧ ledger.blockFullness = default

theorem applyToLedger_settled {parentBlockTimestamp : UInt64} {applied : Applied crates}
    (success : applyToLedger block parentBlockTimestamp ledger = .ok applied) :
    Settled ledger.version applied.1 :=
  LedgerState.applyTransactions_settled (mapError_success success)

theorem fromGenesis_settled {raw : ByteVec} {version : LedgerVersion} {genesis : LedgerState crates}
    (success : LedgerState.fromGenesis crates raw version = .ok genesis) :
    Settled version genesis := by
  obtain ⟨_, _, success⟩ := bind_success success
  cases success
  exact ⟨rfl, rfl⟩

theorem applyBlock_settled {parentBlockTimestamp : UInt64} {applied : Applied crates}
    (fresh : ledger.version = block.protocolVersion.ledgerVersion)
    (success : applyBlock node block parentBlockTimestamp ledger = .ok applied) :
    Settled block.protocolVersion.ledgerVersion applied.1 := by
  have direct : ∀ applied', applyToLedger block parentBlockTimestamp ledger = .ok applied' →
      Settled block.protocolVersion.ledgerVersion applied'.1 :=
    fun _ done => fresh ▸ applyToLedger_settled done
  unfold applyBlock at success
  split at success
  · unfold applyGenesis at success
    split at success
    · exact direct _ success
    · obtain ⟨raw, _, genesis, created, success⟩ := bind₂_success success
      have settled := fromGenesis_settled (mapError_success created)
      obtain ⟨root, _, success⟩ := bind_success success
      split at success
      · obtain ⟨_, _, success⟩ := bind_success success
        cases success
        exact settled
      · exact settled.1 ▸ applyToLedger_settled success
  · exact direct _ success

/-- What a computed block went through. The persisted state is the one the
process goes on with. -/
theorem computeBlock_success (success : computeBlock node networkId process block = .ok computed) :
    ∃ (base : LedgerState crates) (applied : Applied crates),
      ledgerForBlock networkId block process.ledgerState = .ok base ∧
      applyBlock node block (parentTimestamp process.parentBlockTimestamp block) base =
        .ok applied ∧ (applied.1 = computed.ledgerState ∧
        computed.ledgerState.persist = .ok (computed.ledgerState, computed.ledgerStateKey)) ∧
      computed.transactions = applied.2.1 := by
  unfold computeBlock at success
  obtain ⟨_, _, base, based, applied, run, success⟩ := bind₃_success success
  obtain ⟨_, _, _, _, _, _, success⟩ := bind₃_success success
  obtain ⟨_, _, persisted, persist, success⟩ := bind₂_success success
  cases success
  have persist := mapError_success persist
  have kept : persisted.1 = applied.1 := by
    obtain ⟨key, _, same⟩ := bind_success persist
    cases same
    rfl
  refine ⟨base, applied, based, run, ⟨kept.symm, ?_⟩, rfl⟩
  dsimp only
  rw [kept, persist, ← kept]

theorem computeBlock_settled (success : computeBlock node networkId process block = .ok computed) :
    Settled block.protocolVersion.ledgerVersion computed.ledgerState ∧
      computed.ledgerState.persist = .ok (computed.ledgerState, computed.ledgerStateKey) := by
  obtain ⟨base, applied, based, run, ⟨kept, persist⟩, _⟩ := computeBlock_success success
  exact ⟨kept ▸ applyBlock_settled (ledgerForBlock_version based) run, persist⟩

theorem indexBlock_success (success : indexBlock node networkId process storage block = .ok next) :
    ∃ computed change, computeBlock node networkId process block = .ok computed ∧
      storage.saveBlock (toDomain block computed) computed.transactions computed.ledgerStateKey
        change = .ok next.2 ∧ next.1 = ⟨computed.ledgerState, block.timestamp⟩ ∧
      determineSystemParametersChange node (toDomain block computed) storage = .ok change := by
  unfold indexBlock at success
  obtain ⟨computed, compute, change, determined, after, save, success⟩ := bind₃_success success
  cases success
  exact ⟨computed, change, compute, mapError_success save, rfl, determined⟩

/-! ## A start rebuilds the process -/

theorem startProcess_highest (networkId : String) {row : BlockRow}
    (highest : storage.highestRow = some row) {version : ProtocolVersion}
    (written : row.protocolVersion = version.intoI64)
    (loaded : LedgerState.load crates row.ledgerStateKey version.ledgerVersion = .ok ledger) :
    startProcess networkId storage = .ok ⟨ledger, asU64 row.timestamp⟩ := by
  have read : storage.getHighestBlock = .ok (some (version, row.ledgerStateKey)) := by
    unfold getHighestBlock
    rw [highest]
    dsimp only
    rw [written, ProtocolVersion.tryFromI64_intoI64]
    rfl
  have time : storage.getHighestBlockTimestamp = some (asU64 row.timestamp) := by
    rw [getHighestBlockTimestamp, highest, Option.map_some]
  unfold startProcess
  rw [read, time]
  change (resumeLedgerState crates networkId _ >>= _) = _
  rw [resumeLedgerState, loaded]
  rfl

theorem indexBlock_resumes (loads : LoadInvertsPersist crates) {rest : List (NodeBlock crates)}
    (fits : Fits storage (block :: rest))
    (success : indexBlock node networkId process storage block = .ok next) :
    startProcess networkId next.2 = .ok next.1 ∧ Fits next.2 rest := by
  obtain ⟨process', after⟩ := next
  obtain ⟨computed, change, compute, save, rfl, _⟩ := indexBlock_success success
  obtain ⟨⟨version, fullness⟩, persist⟩ := computeBlock_settled compute
  have rows := saveBlock_blocks save
  have heights : after.blocks.map BlockRow.height =
      storage.blocks.map BlockRow.height ++ [Sql.asI64 block.height.toNat] := by
    rw [rows, map_append]
    rfl
  have fitsRest : Fits after rest := by
    unfold Fits
    rw [heights, append_assoc]
    exact fits
  have increasing : (storage.blocks ++ [blockRow (storage.blocks.length + 1)
      (toDomain block computed) computed.ledgerStateKey]).Pairwise
        fun low high => low.height < high.height := by
    rw [← rows, ← pairwise_map]
    exact (pairwise_append.mp fitsRest).1
  have loaded : LedgerState.load crates computed.ledgerStateKey
      block.protocolVersion.ledgerVersion = .ok computed.ledgerState := by
    rw [← version, loads _ _ _ persist, ← fullness]
  have started := startProcess_highest networkId (highestRow_append rows increasing) rfl loaded
  refine ⟨?_, fitsRest⟩
  rw [started]
  exact congrArg (fun time => Except.ok (Process.mk computed.ledgerState time))
    (asU64_asI64 block.timestamp)

/-- No author is read, and none reaches anything but its own column. -/
theorem indexBlock_withoutAuthors (node : NodeApi) (networkId : String) (process : Process crates)
    (storage : Storage tables) (block : NodeBlock crates) :
    indexBlock node networkId process storage.withoutAuthors block.withoutAuthor =
      (indexBlock node networkId process storage block).map (Prod.map id withoutAuthors) := by
  have computes : computeBlock node networkId process block.withoutAuthor =
      computeBlock node networkId process block := rfl
  unfold indexBlock
  rw [computes]
  apply bind_same
  intro computed
  have determines : determineSystemParametersChange node
      (toDomain block.withoutAuthor computed) storage.withoutAuthors =
      determineSystemParametersChange node (toDomain block computed) storage := rfl
  rw [determines]
  apply bind_same
  intro change
  apply bind_commutes
  · change (storage.withoutAuthors.saveBlock (toDomain block computed).withoutAuthor _ _
      _).mapError _ = _
    rw [saveBlock_withoutAuthors, mapError_map]
  · intro after
    rfl

/-! ## Whole runs -/

theorem fits_empty (heights : ChainHeights blocks) : Fits (empty tables) blocks := by
  apply pairwise_map.mpr
  apply heights.increasing.imp_of_mem
  intro low high lowIn highIn below
  rw [Sql.asI64_of_lt (heights.signed low lowIn), Sql.asI64_of_lt (heights.signed high highIn)]
  exact Int.ofNat_lt.mpr (UInt64.lt_iff_toNat_lt.mp below)

theorem ChainHeights.of_same {chain : List (NodeBlock crates)}
    (same : blocks.map withoutAuthor = chain.map withoutAuthor)
    (heights : ChainHeights chain) : ChainHeights blocks := by
  have column : blocks.map height = chain.map height := by
    have both := congrArg (map height) same
    rw [map_map, map_map] at both
    exact both
  constructor
  · have ordered := pairwise_map.mpr heights.increasing
    rw [← column] at ordered
    exact pairwise_map.mp ordered
  · intro block member
    have listed : block.height ∈ chain.map height :=
      column ▸ mem_map_of_mem member
    obtain ⟨other, inside, equal⟩ := mem_map.mp listed
    exact equal ▸ heights.signed other inside

def firstValidationTime (step : Process crates × NodeBlock crates) : UInt64 :=
  LedgerState.wellFormedTimestamp true (decide (0 < step.2.height)) step.2.timestamp
    (parentTimestamp step.1.parentBlockTimestamp step.2)

/-- Any number of runs over a chain, stopped between any blocks, store the rows
of one run over it and fail where it fails. Every block meets the same ledger
state, with its version and fullness, and the same validation time. -/
theorem restarted_rows_same (tables : ChildTables crates) (node : NodeApi) (networkId : String)
    (loads : LoadInvertsPersist crates) (runs : List (List (NodeBlock crates)))
    (chain : List (NodeBlock crates)) (heights : ChainHeights chain)
    (same : runs.flatten.map NodeBlock.withoutAuthor = chain.map NodeBlock.withoutAuthor) :
    let restarted := (chainIndexer tables node networkId).lives (Storage.empty tables) runs
    let straight := (chainIndexer tables node networkId).live (Storage.empty tables) chain
    restarted.store.withoutAuthors = straight.store.withoutAuthors ∧
      restarted.steps.map (fun step => (step.1, step.2.withoutAuthor)) =
        straight.steps.map (fun step => (step.1, step.2.withoutAuthor)) ∧
      restarted.steps.map firstValidationTime = straight.steps.map firstValidationTime ∧
      restarted.failure = straight.failure := by
  intro restarted straight
  let service := chainIndexer tables node networkId
  let first : Process crates := ⟨LedgerState.new crates networkId .oldest, 0⟩
  have resumes : ∀ process storage block rest next, Fits storage (block :: rest) →
      service.start storage = .ok process → service.step process storage block = .ok next →
      service.start next.2 = .ok next.1 ∧ Fits next.2 rest :=
    fun _ _ _ _ _ fits _ done => indexBlock_resumes loads fits done
  have once : restarted = service.serve first (Storage.empty tables) runs.flatten :=
    Service.lives_eq_serve resumes runs first (Storage.empty tables)
      (fits_empty (heights.of_same same)) rfl
  have hidden := Service.serve_hide service (indexBlock_withoutAuthors node networkId) first
    (Storage.empty tables)
  have equal : restarted.hide Storage.withoutAuthors NodeBlock.withoutAuthor =
      straight.hide Storage.withoutAuthors NodeBlock.withoutAuthor := by
    rw [once, ← hidden, same, hidden]
    rfl
  have stores := congrArg Service.History.store equal
  have steps := congrArg Service.History.steps equal
  have failures := congrArg Service.History.failure equal
  refine ⟨stores, steps, ?_, failures⟩
  have times := congrArg (List.map firstValidationTime) steps
  simp only [Service.History.hide, List.map_map] at times
  exact times

/-! ## A chain with an upgrade, restarted at every block -/

/-- A ledger whose state lists what happened to it: for a transaction the time
it was validated at and the parent's time, for a block its fullness, and 9 for
the translation. -/
def sampleCrates : LedgerCrates where
  State _ := ByteVec
  ArenaKey _ := ByteVec
  Transaction _ := ByteVec
  SystemTransaction _ := ByteVec
  VerifiedTransaction _ := Nat
  Event _ := Unit
  Parameters _ := Unit
  ContractAddress _ := Unit
  ContractState _ := Unit
  UnshieldedUtxo := Unit
  LedgerEvent := Unit
  ContractBalance := Unit
  new _ _ := []
  deserializeState _ raw := some raw
  arenaKey state := state
  serializeKey key := some key
  deserializeKey _ key := some key
  getLazy key := some key
  translateLedgerState state := some (9 :: state)
  parameters _ := ()
  blockLimits _ := ⟨10, 10, 10, 10, 10⟩
  serializeParameters _ := some []
  addCost a b := ⟨a.readTime + b.readTime, a.computeTime + b.computeTime,
    a.blockUsage + b.blockUsage, a.bytesWritten + b.bytesWritten,
    a.bytesChurned + b.bytesChurned⟩
  normalize cost _ := some ⟨cost.readTime, cost.computeTime, cost.blockUsage, cost.bytesWritten,
    cost.bytesChurned⟩
  deserializeTransaction _ raw := some raw
  cost _ _ := some ⟨1, 1, 1, 1, 1⟩
  fees _ _ := some 1
  wellFormed _ _ tblock := some tblock
  apply state tblock context :=
    (state ++ [UInt8.ofNat tblock, UInt8.ofNat context.lastBlockTime], .success [])
  regularUtxos _ _ _ := ([], [])
  bridgeClaim _ := none
  deserializeSystemTransaction _ raw := some raw
  systemCost _ _ := ⟨1, 1, 1, 1, 1⟩
  applySystem state _ _ := some (state, [])
  systemUtxos _ _ := []
  ledgerEvents _ := some []
  postBlockUpdate state _ _ overall := some (state ++ [UInt8.ofNat overall.toNat])
  zswapFirstFree state := state.length
  dustCommitmentsFirstFree _ := 0
  dustGenerationsFirstFree _ := 0
  zswapDigest _ := []
  serializeDigest _ digest := some digest
  dustCommitmentRoot _ := some []
  dustGenerationRoot _ := some []
  deserializeContractAddress _ _ := some ()
  contractZswapState _ _ := some []
  deserializeContractState _ _ := some ()
  balances _ := some []

theorem sampleCrates_loads : LoadInvertsPersist sampleCrates := by
  intro ledger after key persisted
  cases persisted
  rfl

def sampleTables : ChildTables sampleCrates where
  Tables := List Nat
  empty := []
  saveRegularTransaction tables transactionId _ _ := .ok (tables ++ [transactionId])
  saveSystemTransaction tables transactionId _ := .ok (tables ++ [transactionId])
  saveDustRegistrationEvents tables _ _ _ := .ok tables
  saveBridgeEvents tables _ _ _ := .ok tables

def sampleVersion : LedgerVersion → ProtocolVersion
  | .V8 => .first .V1_0
  | .V9 => .first .V2_0

/-- A block of every six seconds with one transaction and the root the node
reports. -/
def sampleNodeBlock (height : Nat) (version : LedgerVersion) (author : UInt8) (root : ByteVec) :
    NodeBlock sampleCrates where
  hash := [UInt8.ofNat height]
  height := UInt64.ofNat height
  protocolVersion := sampleVersion version
  parentHash := []
  author := some [author]
  timestamp := UInt64.ofNat (6000 * (height + 1))
  zswapMerkleTreeRoot := ⟨version, []⟩
  ledgerStateRoot := some root
  transactions := [.regular ⟨[UInt8.ofNat height], sampleVersion version, [], [], []⟩]
  dustRegistrationEvents := []
  bridgeEvents := []

def sampleApi : NodeApi := ⟨some [], fun _ height time _ => some ⟨height, [], time, none, none⟩⟩

/-- The chain, its last block with the given author. -/
def sampleBlocks (author : UInt8) : List (NodeBlock sampleCrates) :=
  [sampleNodeBlock 0 .V8 1 [6, 6, 1], sampleNodeBlock 1 .V8 1 [6, 6, 1, 18, 6, 1],
    sampleNodeBlock 2 .V9 author [9, 6, 6, 1, 18, 6, 1, 24, 12, 1]]

theorem restarted_rows_same_sample :
    let service := chainIndexer sampleTables sampleApi "undeployed"
    let restarted := service.lives (.empty sampleTables) ((sampleBlocks 2).map ([·]))
    let straight := service.live (.empty sampleTables) (sampleBlocks 1)
    restarted.failure = none ∧
      restarted.store.blocks.map BlockRow.ledgerStateKey =
        [[6, 6, 1], [6, 6, 1, 18, 6, 1], [9, 6, 6, 1, 18, 6, 1, 24, 12, 1]] ∧
      restarted.store.withoutAuthors = straight.store.withoutAuthors := by
  have same := restarted_rows_same sampleTables sampleApi "undeployed" sampleCrates_loads
    ((sampleBlocks 2).map ([·])) (sampleBlocks 1) ⟨by decide, by decide⟩ rfl
  exact ⟨rfl, rfl, same.1⟩

end MidnightIndexer.Guarantees.RestartEquivalence
