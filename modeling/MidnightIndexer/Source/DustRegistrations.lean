import MidnightIndexer.Lib.Run
import MidnightIndexer.Lib.Table
import MidnightIndexer.Source.BlockStorage

/-!
# cNIGHT registrations

`save_dust_registration_events` of chain-indexer/src/infra/storage.rs:1140-1249 and table
`cnight_registrations` of indexer-common/migrations/{postgres,sqlite}/001_initial.sql.
The events are those of chain-indexer/src/domain/dust.rs:18-47, which
chain-indexer/src/infra/subxt_node/runtimes/v2_1_0.rs makes from the pallet's events
(149-183) and, at genesis, from its storage (385-435).

A registration inserts the row of its pair or revives it; the other events update a row
and do nothing if there is none. A block carries its events serialised, so what a saved
block does is stated for any decoding of them.
-/

namespace MidnightIndexer.Source.ChainIndexer

open Lib

/-- A Cardano stake key and a DUST address. -/
abbrev RegistrationKey := ByteVec × ByteVec

/-- `utxo_id` and `utxo_index` of a mapping. -/
structure MappingUtxo where
  utxoId : ByteVec
  utxoIndex : UInt32
  deriving DecidableEq

inductive DustRegistrationEvent where
  | registration (cardanoStakeKey dustAddress : ByteVec)
  | deregistration (cardanoStakeKey dustAddress : ByteVec)
  | mappingAdded (cardanoStakeKey dustAddress : ByteVec) (utxo : MappingUtxo)
  | mappingRemoved (cardanoStakeKey dustAddress : ByteVec) (utxo : MappingUtxo)
  deriving DecidableEq

def DustRegistrationEvent.key : DustRegistrationEvent → RegistrationKey
  | .registration stakeKey address | .deregistration stakeKey address
  | .mappingAdded stakeKey address _ | .mappingRemoved stakeKey address _ => (stakeKey, address)

/-- Table `cnight_registrations`; its key is unique. -/
structure RegistrationRow where
  id : Nat
  cardanoStakeKey : ByteVec
  dustAddress : ByteVec
  valid : Bool
  registeredAt : Int
  removedAt : Option Int
  blockId : Nat
  utxoTxHash : Option ByteVec
  utxoOutputIndex : Option Int
  deriving DecidableEq

def RegistrationRow.key (row : RegistrationRow) : RegistrationKey :=
  (row.cardanoStakeKey, row.dustAddress)

def saveDustRegistrationEvent (blockId : Nat) (blockTimestamp : Int)
    (rows : List RegistrationRow) : DustRegistrationEvent → List RegistrationRow
  | .registration stakeKey address =>
    Table.upsert RegistrationRow.key
      { id := rows.length + 1
        cardanoStakeKey := stakeKey
        dustAddress := address
        valid := true
        registeredAt := blockTimestamp
        removedAt := none
        blockId := blockId
        utxoTxHash := none
        utxoOutputIndex := none }
      (fun row => { row with
        valid := true
        registeredAt := blockTimestamp
        removedAt := none
        blockId := blockId })
      rows
  | .deregistration stakeKey address =>
    Table.update RegistrationRow.key (stakeKey, address)
      (fun row => { row with
        valid := false
        removedAt := some blockTimestamp
        blockId := blockId })
      rows
  | .mappingAdded stakeKey address utxo =>
    Table.update RegistrationRow.key (stakeKey, address)
      (fun row => { row with
        utxoTxHash := some utxo.utxoId
        utxoOutputIndex := some utxo.utxoIndex.toNat })
      rows
  | .mappingRemoved stakeKey address _ =>
    Table.update RegistrationRow.key (stakeKey, address)
      (fun row => { row with
        utxoTxHash := none
        utxoOutputIndex := none })
      rows

def saveDustRegistrationEvents (rows : List RegistrationRow)
    (events : List DustRegistrationEvent) (blockId : Nat) (blockTimestamp : Int) :
    List RegistrationRow :=
  run (saveDustRegistrationEvent blockId blockTimestamp) rows events

variable {crates : LedgerCrates}

/-- Any other tables together with `cnight_registrations`. -/
def withRegistrations (decode : ByteVec → DustRegistrationEvent) (others : ChildTables crates) :
    ChildTables crates where
  Tables := others.Tables × List RegistrationRow
  empty := (others.empty, [])
  saveRegularTransaction tables transactionId blockId t := do
    let saved ← others.saveRegularTransaction tables.1 transactionId blockId t
    return (saved, tables.2)
  saveSystemTransaction tables transactionId t := do
    let saved ← others.saveSystemTransaction tables.1 transactionId t
    return (saved, tables.2)
  saveDustRegistrationEvents tables events blockId blockTimestamp := do
    let saved ← others.saveDustRegistrationEvents tables.1 events blockId blockTimestamp
    return (saved, ChainIndexer.saveDustRegistrationEvents tables.2 (events.map decode) blockId
      blockTimestamp)
  saveBridgeEvents tables transactions events blockId := do
    let saved ← others.saveBridgeEvents tables.1 transactions events blockId
    return (saved, tables.2)

namespace Storage

variable {decode : ByteVec → DustRegistrationEvent} {others : ChildTables crates}

def registrations (storage : Storage (withRegistrations decode others)) : List RegistrationRow :=
  storage.children.2

variable {storage after : Storage (withRegistrations decode others)}

theorem saveTransaction_registrations {blockId : Nat} {t : Transaction crates}
    (success : saveTransaction blockId storage t = .ok after) :
    after.registrations = storage.registrations := by
  cases t with
  | regular t | system t =>
    obtain ⟨children, saved, success⟩ := bind_success success
    cases success
    obtain ⟨rest, _, saved⟩ := bind_success (mapError_success saved)
    cases saved
    rfl

/-- A saved block has saved its registration events, and nothing else changes the table. -/
theorem saveBlock_registrations {block : Block} {transactions : List (Transaction crates)}
    {key : ByteVec} {change : Option SystemParametersChange}
    (success : storage.saveBlock block transactions key change = .ok after) :
    after.registrations = saveDustRegistrationEvents storage.registrations
      (block.dustRegistrationEvents.map decode) (storage.blocks.length + 1)
      (Sql.asI64 block.timestamp.toNat) := by
  obtain ⟨saved, registered, bridged, save, register, bridge, rfl⟩ := saveBlock_success success
  have kept : saved.registrations = storage.registrations :=
    foldlM_keeps (fun current _ => current.registrations = storage.registrations)
      (fun _ _ _ _ same saved => (saveTransaction_registrations saved).trans same) rfl save
  obtain ⟨_, _, register⟩ := bind_success register
  cases register
  obtain ⟨_, _, bridge⟩ := bind_success bridge
  cases bridge
  rw [← kept]
  cases change <;> rfl

end Storage

end MidnightIndexer.Source.ChainIndexer
