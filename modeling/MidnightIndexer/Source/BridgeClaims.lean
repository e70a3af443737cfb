import MidnightIndexer.Source.BridgeEvents
import MidnightIndexer.Source.IndexBlock
import MidnightIndexer.Source.UtxoExtraction

/-!
# Bridge claims, from the transaction to the balance

indexer-common/src/domain/ledger/ledger_state.rs:681-697,
chain-indexer/src/infra/storage.rs:532-536 and 1307-1326, and
indexer-api/src/infra/storage/bridge.rs:46-51 and 149-192. The claim is read from
the contents of the transaction, saved after all other rows of the transaction,
and summed by address when a balance is asked for. Amounts are `u128` and read
back from their column as written; a sum of them wraps as in a release build.

The ledger crate's transactions are seen through `BridgeCrate`. The API layer
replaces `balance` by the ledger's own amount, which is left out.
-/

namespace MidnightIndexer.Source.ChainIndexer

open Lib List

/-- `ClaimKind`; the kinds besides the bridge's are alike here. -/
inductive ClaimKind where
  | cardanoBridge | other
  deriving DecidableEq, Repr

/-- `ClaimRewardsTransaction` of ledger 9. -/
structure ClaimRewardsV9 (crate : UtxoCrate) extends ClaimRewards crate where
  kind : ClaimKind

inductive LedgerTransactionV9 (crate : UtxoCrate) where
  | standard (transaction : StandardTransaction crate)
  | claimRewards (claim : ClaimRewardsV9 crate)

/-- The match in `apply_regular_transaction`. -/
def LedgerTransactionV9.bridgeClaim {crate : UtxoCrate} :
    LedgerTransactionV9 crate → Option BridgeClaim
  | .claimRewards claim =>
    if claim.kind = .cardanoBridge then some ⟨crate.userAddress claim.owner, claim.value⟩
    else none
  | .standard _ => none

/-- The contents of ledger 9's transactions, from which the claim is read. -/
structure BridgeCrate (crates : LedgerCrates) where
  crate : UtxoCrate
  contents : crates.Transaction .V9 → LedgerTransactionV9 crate
  extracted : ∀ transaction, crates.bridgeClaim transaction = (contents transaction).bridgeClaim

/-- Table `bridge_claims`. -/
structure BridgeClaimRow where
  id : Nat
  transactionId : Nat
  recipient : ByteVec
  amount : Nat
  deriving DecidableEq, Repr

def saveBridgeClaim (rows : List BridgeClaimRow) (transactionId : Nat) (recipient : ByteVec)
    (amount : Nat) : List BridgeClaimRow :=
  rows ++ [⟨rows.length + 1, transactionId, recipient, amount⟩]

variable {crates : LedgerCrates}

/-- The end of `save_regular_transaction`. -/
def saveClaimOf (rows : List BridgeClaimRow) (transactionId : Nat) (t : RegularTransaction crates) :
    List BridgeClaimRow :=
  match t.bridgeClaim with
  | some claim => saveBridgeClaim rows transactionId claim.recipient claim.amount
  | none => rows

/-- Any other tables together with `bridge_claims`. -/
def withBridgeClaims (others : ChildTables crates) : ChildTables crates where
  Tables := others.Tables × List BridgeClaimRow
  empty := (others.empty, [])
  saveRegularTransaction tables transactionId blockId t := do
    let saved ← others.saveRegularTransaction tables.1 transactionId blockId t
    return (saved, saveClaimOf tables.2 transactionId t)
  saveSystemTransaction tables transactionId t := do
    let saved ← others.saveSystemTransaction tables.1 transactionId t
    return (saved, tables.2)
  saveDustRegistrationEvents tables events blockId blockTimestamp := do
    let saved ← others.saveDustRegistrationEvents tables.1 events blockId blockTimestamp
    return (saved, tables.2)
  saveBridgeEvents tables transactions events blockId := do
    let saved ← others.saveBridgeEvents tables.1 transactions events blockId
    return (saved, tables.2)

namespace Storage

variable {others : ChildTables crates}

def bridgeClaims (storage : Storage (withBridgeClaims others)) : List BridgeClaimRow :=
  storage.children.2

/-! ## What saving adds to the table -/

def claimOfRow (row : BridgeClaimRow) : BridgeClaim := ⟨row.recipient, row.amount⟩

def savedClaim : Transaction crates → Option BridgeClaim
  | .regular t => t.bridgeClaim
  | .system _ => none

variable {blockId : Nat} {storage after : Storage (withBridgeClaims others)}
  {transactions : List (Transaction crates)}

theorem saveTransaction_regular_claims {t : RegularTransaction crates}
    (success : saveTransaction blockId storage (.regular t) = .ok after) :
    after.bridgeClaims = saveClaimOf storage.bridgeClaims (storage.transactions.length + 1) t := by
  obtain ⟨children, saved, success⟩ := bind_success success
  cases success
  obtain ⟨rest, _, saved⟩ := bind_success (mapError_success saved)
  cases saved
  rfl

theorem saveTransaction_claims {t : Transaction crates}
    (success : saveTransaction blockId storage t = .ok after) : after.bridgeClaims.map claimOfRow =
      storage.bridgeClaims.map claimOfRow ++ (savedClaim t).toList := by
  cases t with
  | regular t =>
    rw [saveTransaction_regular_claims success, saveClaimOf, savedClaim]
    cases t.bridgeClaim with
    | none => exact (append_nil _).symm
    | some claim => exact map_append
  | system t =>
    obtain ⟨children, saved, success⟩ := bind_success success
    cases success
    obtain ⟨rest, _, saved⟩ := bind_success (mapError_success saved)
    cases saved
    exact (append_nil _).symm

theorem saveTransactions_claims
    (success : storage.saveTransactions blockId transactions = .ok after) :
    after.bridgeClaims.map claimOfRow =
      storage.bridgeClaims.map claimOfRow ++ transactions.filterMap savedClaim := by
  refine foldlM_keeps (fun current taken => current.bridgeClaims.map claimOfRow =
    storage.bridgeClaims.map claimOfRow ++ taken.filterMap savedClaim) ?_ (append_nil _).symm
    success
  intro current taken t next same saved
  rw [saveTransaction_claims saved, same, append_assoc, filterMap_append]
  cases claim : savedClaim t <;> simp [claim]

/-- A saved block adds the claims of its transactions, in their order. -/
theorem saveBlock_claims {block : Block} {key : ByteVec} {change : Option SystemParametersChange}
    (success : storage.saveBlock block transactions key change = .ok after) :
    after.bridgeClaims.map claimOfRow =
      storage.bridgeClaims.map claimOfRow ++ transactions.filterMap savedClaim := by
  obtain ⟨saved, registered, bridged, save, register, bridge, rfl⟩ := saveBlock_success success
  obtain ⟨_, _, register⟩ := bind_success register
  cases register
  obtain ⟨_, _, bridge⟩ := bind_success bridge
  cases bridge
  have claims := saveTransactions_claims save
  cases change <;> exact claims

end Storage

end MidnightIndexer.Source.ChainIndexer

namespace MidnightIndexer.Source.IndexerApi

open ChainIndexer (BridgeClaimRow)

/-- The columns of `protocol_bridge_events` that a balance reads. -/
structure BridgeTransferRow where
  variant : BridgeEventVariant
  recipient : Option (List UInt8)
  amount : List UInt8
  deriving DecidableEq

/-- The last eight bytes, most significant first. -/
def decodeU64Be (bytes : List UInt8) : Nat :=
  (bytes.drop (bytes.length - 8)).foldl (fun value byte => value * 256 + byte.toNat) 0

def sumU128 (amounts : List Nat) : Nat := amounts.sum % 2 ^ 128

structure BridgeBalance where
  deposited : Nat
  claimed : Nat
  balance : Nat
  deriving DecidableEq, Repr

def getBridgeBalance (transfers : List BridgeTransferRow) (claims : List BridgeClaimRow)
    (recipient : List UInt8) : BridgeBalance :=
  let deposited := sumU128 ((transfers.filter fun row =>
    row.variant = .userTransfer && row.recipient = some recipient).map
      fun row => decodeU64Be row.amount)
  let claimed := sumU128 ((claims.filter fun row => row.recipient = recipient).map
    BridgeClaimRow.amount)
  ⟨deposited, claimed, deposited - claimed⟩

end MidnightIndexer.Source.IndexerApi
