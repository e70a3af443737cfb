import MidnightIndexer.Lib.Sql
import MidnightIndexer.Lib.Table
import MidnightIndexer.Source.SpoClient

/-!
# The tables of the SPO indexer

spo-indexer/src/infra/storage.rs:58-261 over the tables `epochs`, `pool_metadata_cache`,
`spo_identity`, `committee_membership`, `spo_epoch_performance` and `spo_history` of
indexer-common/migrations/{postgres,sqlite}/001_initial.sql.

An epoch number is a `u32` that its column holds unchanged; the conversion of the epoch's
times to timestamp columns is left out, as they are not read again. Foreign keys always
hold: a pool's row is written before the identity that refers to it, and the other rows
are only inserted where the identity exists.
-/

namespace MidnightIndexer.Source.SpoIndexer

open Lib

structure PoolMetadata where
  poolId : Text
  hexId : Text
  name : Text
  ticker : Text
  homepageUrl : Text
  url : Text
  deriving DecidableEq, Repr

def PoolMetadata.placeholder (cardanoId : Text) : PoolMetadata := ⟨cardanoId, cardanoId, [], [], [], []⟩

/-- Table `pool_metadata_cache`. -/
structure PoolMetadataRow extends PoolMetadata where
  updatedAt : Option Int
  deriving DecidableEq, Repr

/-- Table `spo_identity`. -/
structure Spo where
  spoSk : Text
  sidechainPubkey : Text
  poolId : Text
  mainchainPubkey : Text
  auraPubkey : Text
  deriving DecidableEq, Repr

structure ValidatorMembership where
  spoSk : Text
  sidechainPubkey : Text
  epochNo : UInt64
  position : UInt64
  expectedSlots : UInt32
  deriving DecidableEq, Repr

/-- Table `committee_membership`. -/
structure MembershipRow where
  spoSk : Text
  sidechainPubkey : Text
  epochNo : Int
  position : Int
  expectedSlots : Int
  deriving DecidableEq, Repr

structure SpoEpochPerformance where
  spoSk : Text
  epochNo : UInt64
  expectedBlocks : UInt32
  producedBlocks : UInt64
  identityLabel : Text
  deriving DecidableEq, Repr

/-- Table `spo_epoch_performance`. -/
structure PerformanceRow where
  spoSk : Text
  identityLabel : Text
  epochNo : Int
  expectedBlocks : Int
  producedBlocks : Int
  deriving DecidableEq, Repr

inductive SpoStatus where
  | valid | invalid
  deriving DecidableEq, Repr

/-- Table `spo_history`. -/
structure HistoryRow where
  spoSk : Text
  epochNo : Int
  status : SpoStatus
  validFrom : Int
  validTo : Int
  deriving DecidableEq, Repr

structure SpoStorage where
  epochs : List Epoch
  poolMetadata : List PoolMetadataRow
  identities : List Spo
  memberships : List MembershipRow
  performance : List PerformanceRow
  history : List HistoryRow
  deriving DecidableEq, Repr

namespace SpoStorage

def empty : SpoStorage := ⟨[], [], [], [], [], []⟩

/-- The row of `ORDER BY epoch_no DESC LIMIT 1`. -/
def getLatestEpoch (storage : SpoStorage) : Option Epoch :=
  (Sql.orderByDesc (fun epoch => epoch.epochNo.toNat) storage.epochs).head?

/-- `epochs` has unique numbers. -/
def saveEpoch (storage : SpoStorage) (epoch : Epoch) : Except SpoError SpoStorage :=
  if storage.epochs.any fun old => old.epochNo = epoch.epochNo then .error .storage
  else .ok { storage with epochs := storage.epochs ++ [epoch] }

/-- Inserted unless a row has one of its four keys. -/
def saveSpo (storage : SpoStorage) (spo : Spo) : SpoStorage :=
  if storage.identities.any fun si => si.spoSk = spo.spoSk ∨
      si.mainchainPubkey = spo.mainchainPubkey ∨ si.auraPubkey = spo.auraPubkey ∨
      si.sidechainPubkey = spo.sidechainPubkey then storage
  else { storage with identities := storage.identities ++ [spo] }

def membershipRow (member : ValidatorMembership) : MembershipRow :=
  ⟨member.spoSk, member.sidechainPubkey, Sql.asI64 member.epochNo.toNat,
    Sql.asI32 member.position.toNat, Sql.asI32 member.expectedSlots.toNat⟩

/-- The primary key of `committee_membership`. -/
def membershipKey (row : MembershipRow) : Int × Int := (row.epochNo, row.position)

def saveMembership (storage : SpoStorage) (memberships : List ValidatorMembership) : SpoStorage :=
  { storage with
    memberships := (memberships.map membershipRow).foldl (Table.insertIgnore membershipKey)
      storage.memberships }

def hasIdentity (storage : SpoStorage) (spoSk : Text) : Bool :=
  storage.identities.any fun si => si.spoSk = spoSk

def performanceRow (metadata : SpoEpochPerformance) : PerformanceRow :=
  ⟨metadata.spoSk, metadata.identityLabel, Sql.asI64 metadata.epochNo.toNat,
    Sql.asI32 metadata.expectedBlocks.toNat, Sql.asI32 metadata.producedBlocks.toNat⟩

/-- The primary key of `spo_epoch_performance`. -/
def performanceKey (row : PerformanceRow) : Int × Text := (row.epochNo, row.spoSk)

/-- `WHERE EXISTS` an identity, `ON CONFLICT (epoch_no, spo_sk) DO NOTHING`. -/
def saveSpoPerformance (storage : SpoStorage) (metadata : SpoEpochPerformance) : SpoStorage :=
  if storage.hasIdentity metadata.spoSk then
    { storage with
      performance := Table.insertIgnore performanceKey storage.performance
        (performanceRow metadata) }
  else storage

/-- A new text replaces the old one unless it is empty. -/
def orOld (new old : Text) : Text := if new = [] then old else new

/-- The assignments of `ON CONFLICT (pool_id) DO UPDATE`. -/
def refreshMetadata (metadata : PoolMetadata) (now : Int) (old : PoolMetadataRow) :
    PoolMetadataRow :=
  { old with
    name := orOld metadata.name old.name
    ticker := orOld metadata.ticker old.ticker
    homepageUrl := orOld metadata.homepageUrl old.homepageUrl
    url := orOld metadata.url old.url
    updatedAt := some now }

/-- A row that is new needs a new `hex_id`. -/
def savePoolMeta (storage : SpoStorage) (metadata : PoolMetadata) (now : Int) :
    Except SpoError SpoStorage :=
  let poolId : PoolMetadataRow → Text := fun row => row.poolId
  if storage.poolMetadata.any fun old => poolId old = metadata.poolId then
    let rows := Table.update poolId metadata.poolId (refreshMetadata metadata now)
      storage.poolMetadata
    .ok { storage with poolMetadata := rows }
  else if storage.poolMetadata.any fun old => old.hexId = metadata.hexId then .error .storage
  else .ok { storage with poolMetadata := storage.poolMetadata ++ [⟨metadata, none⟩] }

/-- `WHERE EXISTS` an identity, `ON CONFLICT (spo_sk, epoch_no) DO UPDATE`. -/
def saveSpoHistory (storage : SpoStorage) (spoSk : Text) (epochNo : UInt64) (status : SpoStatus) :
    SpoStorage :=
  let epoch := Sql.asI64 epochNo.toNat
  if storage.hasIdentity spoSk then
    let rows := Table.upsert (fun row => (row.spoSk, row.epochNo))
      ⟨spoSk, epoch, status, epoch, epoch⟩ (fun old => { old with validTo := epoch, status })
      storage.history
    { storage with history := rows }
  else storage

end SpoStorage

end MidnightIndexer.Source.SpoIndexer
