import MidnightIndexer.Source.ApplyTransactions
import MidnightIndexer.Source.ContractEvents

/-!
# Contract events and the calls that emitted them

chain-indexer/src/infra/storage.rs:878-912, with the ledger events of
indexer-common/src/domain.rs:267-560. When a transaction is saved, each of its
ledger events is matched with the contract actions of the same transaction, whose
row ids the database has just assigned.

Of the events of zswap and dust only the variant is kept; the payload is not read.
-/

namespace MidnightIndexer.Source.EventCorrelation

open ChainIndexer

inductive LedgerEventGrouping where
  | zswap | dust | contract
  deriving DecidableEq, Repr

inductive LedgerEventAttributes where
  | zswapInput
  | zswapOutput
  | paramChange
  | dustInitialUtxo
  | dustGenerationDtimeUpdate
  | dustSpendProcessed
  | contract (attributes : ContractEvents.LedgerEventAttributes)
  deriving DecidableEq, Repr

structure LedgerEvent where
  grouping : LedgerEventGrouping
  raw : ByteVec
  attributes : LedgerEventAttributes
  contractActionId : Option Nat
  contractAddress : Option ByteVec
  deriving DecidableEq, Repr

/-- The entry point of the call that emitted a contract event. -/
def entryPointOf : ContractEvents.LedgerEventAttributes → ByteVec
  | .contractShieldedSpend _ entryPoint _
  | .contractShieldedReceive _ entryPoint _ _ _
  | .contractShieldedMint _ entryPoint _ _ _
  | .contractShieldedBurn _ entryPoint _ _
  | .contractUnshieldedSpend _ entryPoint _ _ _ _
  | .contractUnshieldedReceive _ entryPoint _ _ _ _
  | .contractUnshieldedMint _ entryPoint _ _ _
  | .contractUnshieldedBurn _ entryPoint _ _ _
  | .contractPaused _ entryPoint
  | .contractUnpaused _ entryPoint
  | .contractMisc _ entryPoint _ _ => entryPoint

def LedgerEventAttributes.contractEntryPoint : LedgerEventAttributes → Option ByteVec
  | .contract attributes => some (entryPointOf attributes)
  | .zswapInput | .zswapOutput | .paramChange | .dustInitialUtxo
  | .dustGenerationDtimeUpdate | .dustSpendProcessed => none

/-- The constructors of zswap and dust events; none sets a contract address. -/
def LedgerEvent.ledgerEvent (grouping : LedgerEventGrouping) (raw : ByteVec)
    (attributes : LedgerEventAttributes) : LedgerEvent :=
  ⟨grouping, raw, attributes, none, none⟩

def LedgerEvent.zswapInput (raw : ByteVec) := ledgerEvent .zswap raw .zswapInput
def LedgerEvent.zswapOutput (raw : ByteVec) := ledgerEvent .zswap raw .zswapOutput
def LedgerEvent.paramChange (raw : ByteVec) := ledgerEvent .dust raw .paramChange
def LedgerEvent.dustInitialUtxo (raw : ByteVec) := ledgerEvent .dust raw .dustInitialUtxo
def LedgerEvent.dustGenerationDtimeUpdate (raw : ByteVec) :=
  ledgerEvent .dust raw .dustGenerationDtimeUpdate
def LedgerEvent.dustSpendProcessed (raw : ByteVec) := ledgerEvent .dust raw .dustSpendProcessed

/-- `LedgerEvent::contract_event`, at the attributes that its assertion admits. -/
def LedgerEvent.contractEvent (raw address : ByteVec) (contractActionId : Option Nat)
    (attributes : ContractEvents.LedgerEventAttributes) : LedgerEvent :=
  ⟨.contract, raw, .contract attributes, contractActionId, some address⟩

variable {crates : LedgerCrates}

def emits (address entryPoint : ByteVec) (action : ContractAction crates) : Bool :=
  (match action.attributes with
    | .call actionEntryPoint => decide (actionEntryPoint.toUTF8.toList = entryPoint)
    | .deploy | .update => false) &&
  decide (action.address = address)

/-- The id for one event: the first match, if no second one follows. -/
def correlateContractActionId (contractActions : List (ContractAction crates))
    (contractActionIds : List Int) (ledgerEvent : LedgerEvent) : Option Int := do
  let contractAddress ← ledgerEvent.contractAddress
  let entryPoint ← ledgerEvent.attributes.contractEntryPoint
  let found := (contractActions.zip contractActionIds).filter fun row =>
    emits contractAddress entryPoint row.1
  let (_, contractActionId) ← found.head?
  if found.tail.head?.isNone then some contractActionId else none

def correlateContractActionIds (ledgerEvents : List LedgerEvent)
    (contractActions : List (ContractAction crates)) (contractActionIds : List Int) :
    List (Option Int) :=
  ledgerEvents.map (correlateContractActionId contractActions contractActionIds)

end MidnightIndexer.Source.EventCorrelation
