import MidnightIndexer.Lib.Saturating
import MidnightIndexer.Source.DustRegistrations

/-!
# The `dustGenerationStatus` and `dustGenerations` queries

indexer-api/src/infra/storage/dust.rs:27-134 and dust_generations.rs:40-139, called by
indexer-api/src/infra/api/v4/query.rs:304-361, with the timestamps of
indexer-common/src/domain.rs:129-153. One query reads the newest generation of the newest
registration of a reward address, the other adds up all active generations of every
registration.

The DUST parameters are those of the ledger crates. Failing statements and the decoding of
the reward addresses come before what is modelled here. The conversion of a creation time
to milliseconds is an unchecked multiplication, so it wraps as in a release build.
-/

namespace MidnightIndexer.Source.DustStatus

open Lib ChainIndexer

def u128Max : Nat := 2 ^ 128 - 1

/-- The columns of `dust_generation_info` the queries read. -/
structure GenerationInfo where
  owner : ByteVec
  value : Nat
  ctime : Int
  dtime : Option Int
  word : value ≤ u128Max
  deriving DecidableEq

structure BlockTime where
  height : Nat
  timestamp : Int
  deriving DecidableEq

/-- Block heights are unique. -/
structure DustTables where
  blocks : List BlockTime
  registrations : List RegistrationRow
  generations : List GenerationInfo
  heights : (blocks.map BlockTime.height).Nodup

structure DustParameters where
  nightDustRatio : UInt64
  generationDecayRate : UInt32

/-! ## Times -/

/-- `TimestampSecs::to_ms`. -/
def toMs (seconds : UInt64) : UInt64 := seconds * 1000

/-- `TimestampMs::elapsed_seconds_since`. -/
def elapsedSecondsSince (now earlier : UInt64) : Nat := (now.toNat - earlier.toNat) / 1000

/-- The creation time in milliseconds; the column is cast to `u64`. -/
def GenerationInfo.created (row : GenerationInfo) : UInt64 := toMs (UInt64.ofInt row.ctime)

/-- The timestamp of the latest block. -/
def currentTime (db : DustTables) : Option UInt64 :=
  (Sql.orderByDesc BlockTime.height db.blocks).head?.map fun block => UInt64.ofInt block.timestamp

/-! ## Rows -/

def openRegistrations (db : DustTables) (rewardAddress : ByteVec) : List RegistrationRow :=
  db.registrations.filter fun row => row.cardanoStakeKey = rewardAddress ∧ row.removedAt = none

def activeGenerations (db : DustTables) (owner : ByteVec) : List GenerationInfo :=
  db.generations.filter fun row => row.owner = owner ∧ row.dtime = none

/-- The figures both queries report. -/
@[ext] structure Figures where
  nightBalance : Nat
  generationRate : Nat
  maxCapacity : Nat
  currentCapacity : Nat
  deriving DecidableEq, Repr

def Figures.zero : Figures := ⟨0, 0, 0, 0⟩

/-! ## The status of a reward address -/

structure DustGenerationStatus extends Figures where
  cardanoRewardAddress : ByteVec
  dustAddress : Option ByteVec
  registered : Bool
  utxoTxHash : Option ByteVec
  utxoOutputIndex : Option UInt32
  deriving DecidableEq

/-- The figures of one generation. Without a block, the time is that of the generation. -/
def generationFigures (parameters : DustParameters) (now : Option UInt64)
    (row : GenerationInfo) : Figures :=
  let rate := parameters.generationDecayRate.toNat
  let ratio := parameters.nightDustRatio.toNat
  let elapsedSeconds := elapsedSecondsSince (now.getD row.created) row.created
  let maxCapacity := Saturating.mul u128Max row.value ratio
  let generated :=
    Saturating.mul u128Max (Saturating.mul u128Max row.value rate) elapsedSeconds
  { nightBalance := row.value
    generationRate := Saturating.mul u128Max row.value rate
    maxCapacity := maxCapacity
    currentCapacity := min generated maxCapacity }

def statusOf (parameters : DustParameters) (db : DustTables) (rewardAddress : ByteVec) :
    DustGenerationStatus :=
  match (Sql.orderByDesc RegistrationRow.registeredAt
      (openRegistrations db rewardAddress)).head? with
  | none =>
    { Figures.zero with
      cardanoRewardAddress := rewardAddress
      dustAddress := none
      registered := false
      utxoTxHash := none
      utxoOutputIndex := none }
  | some registration =>
    let figures :=
      if registration.valid then
        match (Sql.orderByDesc GenerationInfo.ctime
            (activeGenerations db registration.dustAddress)).head? with
        | none => Figures.zero
        | some row => generationFigures parameters (currentTime db) row
      else Figures.zero
    { figures with
      cardanoRewardAddress := rewardAddress
      dustAddress := if registration.valid then some registration.dustAddress else none
      registered := registration.valid
      utxoTxHash := registration.utxoTxHash
      utxoOutputIndex := registration.utxoOutputIndex.map UInt32.ofInt }

def getDustGenerationStatus (parameters : DustParameters) (db : DustTables)
    (rewardAddresses : List ByteVec) : List DustGenerationStatus :=
  rewardAddresses.map (statusOf parameters db)

/-! ## All registrations of a reward address -/

structure DustRegistration extends Figures where
  dustAddress : ByteVec
  valid : Bool
  utxoTxHash : Option ByteVec
  utxoOutputIndex : Option UInt32
  deriving DecidableEq

structure DustGenerations where
  cardanoRewardAddress : ByteVec
  registrations : List DustRegistration
  deriving DecidableEq

/-- One round of the loop over the generations. Without a block, no capacity is added. -/
def addGeneration (parameters : DustParameters) (now : Option UInt64) (totals : Figures)
    (row : GenerationInfo) : Figures :=
  let rate := parameters.generationDecayRate.toNat
  let ratio := parameters.nightDustRatio.toNat
  let genMax := Saturating.mul u128Max row.value ratio
  { nightBalance := Saturating.add u128Max totals.nightBalance row.value
    generationRate := Saturating.add u128Max totals.generationRate
      (Saturating.mul u128Max row.value rate)
    maxCapacity := Saturating.add u128Max totals.maxCapacity genMax
    currentCapacity :=
      match now with
      | none => totals.currentCapacity
      | some now =>
        let elapsedSeconds := elapsedSecondsSince now row.created
        let genCapacity := min (Saturating.mul u128Max
          (Saturating.mul u128Max row.value rate) elapsedSeconds) genMax
        Saturating.add u128Max totals.currentCapacity genCapacity }

def totalFigures (parameters : DustParameters) (now : Option UInt64)
    (rows : List GenerationInfo) : Figures :=
  rows.foldl (addGeneration parameters now) Figures.zero

def registrationData (parameters : DustParameters) (db : DustTables)
    (registration : RegistrationRow) : DustRegistration :=
  { totalFigures parameters (currentTime db) (activeGenerations db registration.dustAddress) with
    dustAddress := registration.dustAddress
    valid := registration.valid
    utxoTxHash := registration.utxoTxHash
    utxoOutputIndex := registration.utxoOutputIndex.map UInt32.ofInt }

def generationsOf (parameters : DustParameters) (db : DustTables) (rewardAddress : ByteVec) :
    DustGenerations :=
  { cardanoRewardAddress := rewardAddress
    registrations :=
      (Sql.orderByDesc RegistrationRow.registeredAt (openRegistrations db rewardAddress)).map
        (registrationData parameters db) }

def getDustGenerations (parameters : DustParameters) (db : DustTables)
    (rewardAddresses : List ByteVec) : List DustGenerations :=
  rewardAddresses.map (generationsOf parameters db)

/-! ## The figures in closed form -/

def capacityAt (parameters : DustParameters) (now : UInt64) (row : GenerationInfo) : Nat :=
  min (Saturating.mul u128Max (Saturating.mul u128Max row.value
      parameters.generationDecayRate.toNat) (elapsedSecondsSince now row.created))
    (Saturating.mul u128Max row.value parameters.nightDustRatio.toNat)

variable (parameters : DustParameters)

/-- One figure that the loop accumulates, for terms added up from zero. -/
theorem totalFigures_sum (now : Option UInt64)
    (rows : List GenerationInfo) (figure : Figures → Nat) (term : GenerationInfo → Nat)
    (initial : figure Figures.zero = 0)
    (adds : ∀ totals row, Saturating.add u128Max (figure totals) (term row) =
      figure (addGeneration parameters now totals row)) :
    figure (totalFigures parameters now rows) = min (rows.map term).sum u128Max := by
  have accumulated := Saturating.foldl_add u128Max term rows (Nat.zero_le u128Max)
  rw [Nat.zero_add] at accumulated
  rw [← accumulated, totalFigures, ← initial]
  exact (List.foldl_hom figure adds).symm

/-- Without a block, the loop adds no capacity. -/
theorem totalFigures_no_block (rows : List GenerationInfo) :
    (totalFigures parameters none rows).currentCapacity = 0 := by
  have kept : ∀ totals : Figures, (rows.foldl (addGeneration parameters none)
      totals).currentCapacity = totals.currentCapacity := by
    induction rows with
    | nil =>
      intro totals
      rfl
    | cons row rest ih =>
      intro totals
      rw [List.foldl_cons, ih]
      rfl
  exact kept Figures.zero

/-- The figures of a registration are sums over its generations, cut off at the largest
`u128`. -/
theorem totalFigures_eq (now : Option UInt64) (rows : List GenerationInfo) :
    totalFigures parameters now rows =
      { nightBalance := min (rows.map GenerationInfo.value).sum u128Max
        generationRate := min (rows.map fun row => Saturating.mul u128Max row.value
          parameters.generationDecayRate.toNat).sum u128Max
        maxCapacity := min (rows.map fun row => Saturating.mul u128Max row.value
          parameters.nightDustRatio.toNat).sum u128Max
        currentCapacity := match now with
          | none => 0
          | some now => min (rows.map (capacityAt parameters now)).sum u128Max } := by
  ext
  · exact totalFigures_sum parameters now rows Figures.nightBalance _ rfl fun _ _ => rfl
  · exact totalFigures_sum parameters now rows Figures.generationRate _ rfl fun _ _ => rfl
  · exact totalFigures_sum parameters now rows Figures.maxCapacity _ rfl fun _ _ => rfl
  · cases now with
    | none => exact totalFigures_no_block parameters rows
    | some now =>
      exact totalFigures_sum parameters (some now) rows Figures.currentCapacity _ rfl fun _ _ => rfl

end MidnightIndexer.Source.DustStatus
