import MidnightIndexer.Source.StakeRefresh

/-!
# Queries for SPOs

indexer-api/src/infra/storage/spo.rs:73-109, 123-159, 221-436, 496-537 and 1298-1339, and
indexer-api/src/infra/api/v4/query.rs:519-533, 550-564, 590-604, 637-651, 695-714 and
1064-1072. The API normalises a pool id or key before it asks the storage, which compares it
with the stored one; the search of the list is normalised by the storage itself.

`LIKE` is a parameter, applied to a pattern and a text that is not `NULL`. The list is the
storage's; before it the API only trims the search, which leaves hexadecimal digits alone, and
clamps the limits.
-/

namespace MidnightIndexer.Source.IndexerApi

open Lib
open SpoIndexer (PerformanceRow PoolMetadataRow StakeStorage Text)

/-! ## Normalisation -/

/-- `str::strip_prefix`. -/
def stripPrefix (start input : Text) : Option Text :=
  if start.isPrefixOf input then some (input.drop start.length) else none

/-- The two strips, each of which falls back to the whole input. -/
def strippedHex (input : Text) : Text :=
  let first := (stripPrefix ['0', 'x'] input).getD input
  (stripPrefix ['0', 'X'] first).getD input

def toAsciiLowercase (input : Text) : Text := input.map Char.toLower

/-- `normalize_hex` of the API. -/
def normalizeHex (input : Text) : Text := toAsciiLowercase (strippedHex input)

def isAsciiHexdigit (c : Char) : Bool :=
  ('0' ≤ c && c ≤ '9') || ('a' ≤ c && c ≤ 'f') || ('A' ≤ c && c ≤ 'F')

/-- `normalize_hex` of the storage. The length is in bytes in the source; a text with other
than ASCII characters is refused in any case. -/
def Storage.normalizeHex (input : Text) : Option Text :=
  if input.isEmpty then none
  else
    let s := strippedHex input
    if s.length % 2 ≠ 0 ∨ 256 < s.length then none
    else if !s.all isAsciiHexdigit then none
    else some (toAsciiLowercase s)

/-! ## By pool id and by key -/

variable {Saturation : Type}

def unknownClass : Text := "UNKNOWN".toList

structure SpoIdentity where
  poolIdHex : Text
  mainchainPubkeyHex : Text
  sidechainPubkeyHex : Text
  auraPubkeyHex : Option Text
  validatorClass : Text
  deriving DecidableEq, Repr

def getSpoIdentityByPoolId (db : StakeStorage Saturation) (poolId : Text) : Option SpoIdentity :=
  (db.identities.find? fun si => si.poolId = poolId).map fun si =>
    ⟨si.poolId, si.mainchainPubkey, si.sidechainPubkey, some si.auraPubkey, unknownClass⟩

structure PoolMetadata where
  poolIdHex : Text
  hexId : Option Text
  name : Option Text
  ticker : Option Text
  homepageUrl : Option Text
  logoUrl : Option Text
  deriving DecidableEq, Repr

def getPoolMetadata (db : StakeStorage Saturation) (poolId : Text) : Option PoolMetadata :=
  (db.poolMetadata.find? fun pm => pm.poolId = poolId).map fun pm =>
    ⟨pm.poolId, some pm.hexId, some pm.name, some pm.ticker, some pm.homepageUrl, some pm.url⟩

structure Spo where
  poolIdHex : Text
  validatorClass : Text
  sidechainPubkeyHex : Text
  auraPubkeyHex : Option Text
  name : Option Text
  ticker : Option Text
  homepageUrl : Option Text
  logoUrl : Option Text
  deriving DecidableEq, Repr

def spoOf (poolId : Text) (si : SpoIndexer.Spo) (pm : Option PoolMetadataRow) : Spo where
  poolIdHex := poolId
  validatorClass := unknownClass
  sidechainPubkeyHex := si.sidechainPubkey
  auraPubkeyHex := some si.auraPubkey
  name := pm.map fun row => row.name
  ticker := pm.map fun row => row.ticker
  homepageUrl := pm.map fun row => row.homepageUrl
  logoUrl := pm.map fun row => row.url

def getSpoByPoolId (db : StakeStorage Saturation) (poolId : Text) : Option Spo :=
  (db.identities.filter fun si => si.poolId = poolId).flatMap (fun si =>
    (Sql.leftJoin db.poolMetadata fun pm => pm.poolId = si.poolId).map (spoOf si.poolId si)) |>.head?

structure EpochPerf where
  epochNo : Int
  spoSkHex : Text
  produced : Int
  expected : Int
  identityLabel : Option Text
  stakeSnapshot : Option Text
  poolIdHex : Option Text
  validatorClass : Option Text
  deriving DecidableEq, Repr

def epochPerfOf (row : PerformanceRow) (si : Option SpoIndexer.Spo) : EpochPerf where
  epochNo := row.epochNo
  spoSkHex := row.spoSk
  produced := row.producedBlocks
  expected := row.expectedBlocks
  identityLabel := some row.identityLabel
  stakeSnapshot := none
  poolIdHex := si.map fun identity => identity.poolId
  validatorClass := some unknownClass

def getSpoPerformanceBySpoSk (backend : Sql.Backend) (db : StakeStorage Saturation) (spoSk : Text)
    (limit offset : Int) : Except Sql.Error (List EpochPerf) :=
  let rows := (db.performance.filter fun row => row.spoSk = spoSk).flatMap fun row =>
    (Sql.leftJoin db.identities fun si => si.spoSk = row.spoSk).map (epochPerfOf row)
  Sql.page backend limit offset (Sql.orderByDesc (fun perf => perf.epochNo) rows)

structure SpoComposite where
  identity : Option SpoIdentity
  metadata : Option PoolMetadata
  performance : List EpochPerf
  deriving DecidableEq, Repr

def getSpoCompositeByPoolId (backend : Sql.Backend) (db : StakeStorage Saturation) (poolId : Text)
    (perfLimit : Int) : Except Sql.Error (Option SpoComposite) := do
  let identity := getSpoIdentityByPoolId db poolId
  let metadata := getPoolMetadata db poolId
  let performance ← match identity with
    | some id => getSpoPerformanceBySpoSk backend db id.sidechainPubkeyHex perfLimit 0
    | none => .ok []
  if identity.isNone && metadata.isNone then return none
  else return some ⟨identity, metadata, performance⟩

/-- The queries of the API for one id. -/
def spoIdentityByPoolId (db : StakeStorage Saturation) (poolIdHex : Text) : Option SpoIdentity :=
  getSpoIdentityByPoolId db (normalizeHex poolIdHex)

def poolMetadata (db : StakeStorage Saturation) (poolIdHex : Text) : Option PoolMetadata :=
  getPoolMetadata db (normalizeHex poolIdHex)

def spoByPoolId (db : StakeStorage Saturation) (poolIdHex : Text) : Option Spo :=
  getSpoByPoolId db (normalizeHex poolIdHex)

def defaultPerformanceLimit : Int := 20

def spoCompositeByPoolId (backend : Sql.Backend) (db : StakeStorage Saturation)
    (poolIdHex : Text) : Except Sql.Error (Option SpoComposite) :=
  getSpoCompositeByPoolId backend db (normalizeHex poolIdHex) defaultPerformanceLimit

def spoPerformanceBySpoSk (backend : Sql.Backend) (db : StakeStorage Saturation) (spoSkHex : Text)
    (limit offset : Option Int) : Except Sql.Error (List EpochPerf) :=
  let limit := min (max (limit.getD 100) 1) 500
  let offset := max (offset.getD 0) 0
  getSpoPerformanceBySpoSk backend db (normalizeHex spoSkHex) limit offset

/-! ## The list -/

/-- A snapshot with the identity and the metadata of its pool. -/
structure SpoListRow where
  poolId : Text
  identity : Option SpoIndexer.Spo
  metadata : Option PoolMetadataRow
  deriving DecidableEq

def spoListRows (db : StakeStorage Saturation) : List SpoListRow :=
  db.snapshots.flatMap fun s =>
    (Sql.leftJoin db.identities fun si => si.poolId = s.poolId).flatMap fun si =>
      (Sql.leftJoin db.poolMetadata fun pm => pm.poolId = s.poolId).map fun pm =>
        ⟨s.poolId, si, pm⟩

/-- `format!("%{s}%")`. -/
def likePattern (s : Text) : Text := '%' :: s ++ ['%']

section

variable (ilike : Text → Text → Bool)

/-- The conditions on the columns of the metadata; `NULL` matches nothing. -/
def matchesMetadata (s : Text) (row : SpoListRow) : Bool :=
  row.metadata.any fun pm => ilike (likePattern s) pm.name || ilike (likePattern s) pm.ticker ||
    ilike (likePattern s) pm.homepageUrl

/-- The conditions on the id and the keys. -/
def matchesKeys (s : Text) (row : SpoListRow) : Bool :=
  ilike (likePattern s) row.poolId ||
  row.identity.any fun si => ilike (likePattern s) si.sidechainPubkey ||
    ilike (likePattern s) si.auraPubkey || ilike (likePattern s) si.mainchainPubkey

def searchHex (s : Text) : Text := (Storage.normalizeHex s).getD (toAsciiLowercase s)

def selectsRow (search : Option Text) (row : SpoListRow) : Bool :=
  search.all fun s => matchesMetadata ilike s row || matchesKeys ilike (searchHex s) row

/-- The columns as a tuple; `sidechain_pubkey` is not optional. -/
def decodeSpoListRow (row : SpoListRow) : Except Sql.ReadError Spo :=
  match row.identity with
  | some si => .ok (spoOf row.poolId si row.metadata)
  | none => .error .decode

variable {κ : Type} [LinearOrder κ] (backend : Sql.Backend) (collate : Text → κ)

/-- `COALESCE(si.mainchain_pubkey, s.pool_id)`. -/
def spoListKey (row : SpoListRow) : κ :=
  collate ((row.identity.map fun si => si.mainchainPubkey).getD row.poolId)

def getSpoList (db : StakeStorage Saturation) (limit offset : Int) (search : Option Text) :
    Except Sql.ReadError (List Spo) := do
  let ordered := Sql.orderBy (spoListKey collate)
    ((spoListRows db).filter (selectsRow ilike search))
  let page ← (Sql.page backend limit offset ordered).mapError .refused
  page.mapM decodeSpoListRow

end

end MidnightIndexer.Source.IndexerApi
