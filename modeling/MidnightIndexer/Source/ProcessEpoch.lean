import MidnightIndexer.Source.SpoStorage

/-!
# Processing an epoch

`process_next_epoch` of spo-indexer/src/application.rs:95-206 with `save_spo_history`,
`save_spo_identity`, `get_expected_blocks`, `committee_to_membership` and
`get_epoch_to_process` (319-428).

The answers of the node and of Blockfrost to one call are an input, as is whether the
transaction goes through. All that is kept between calls is the storage: a call that fails
ends the process, and the next one starts from the same tables. The hash that makes a
Cardano id of a mainchain key is a parameter, `none` where its key is not hexadecimal and
the decoding panics.
-/

namespace MidnightIndexer.Source.SpoIndexer

open Lib List SpoStorage

/-- What one call meets. -/
structure Answers where
  status : Option ChainInfo
  /-- The second read of the status, made while no epoch is stored. -/
  statusForFirst : Option ChainInfo
  blockOneTimestamp : Option UInt64
  /-- To the request for an epoch. -/
  committee : UInt32 → CommitteeAnswer
  registrations : UInt32 → Option (List (Text × List CandidateRegistration))
  poolMetadata : Text → Option PoolMetadata
  now : Int
  /-- Opening the transaction, its statements and the commit find the database up. -/
  databaseUp : Bool

/-- The epoch after the latest one, or none at the current epoch. -/
def epochAfter (client : SpoClient) (currentEpoch : Epoch) (latestEpochNum : UInt32) :
    Option Epoch :=
  let timeOffset := (asI64 currentEpoch.epochNo - asI64 latestEpochNum) *
    asI64 client.epochDuration
  if timeOffset = 0 then none
  else some
    { epochNo := latestEpochNum + 1
      startsAt := currentEpoch.startsAt - timeOffset
      endsAt := currentEpoch.endsAt - timeOffset }

def latestEpochNum (client : SpoClient) (storage : SpoStorage) (answers : Answers) :
    Except SpoError UInt32 :=
  match storage.getLatestEpoch with
  | some epoch => .ok epoch.epochNo
  | none => do
    let status ← okOr answers.statusForFirst .rpcCall
    let blockTimestamp ← okOr answers.blockOneTimestamp .unexpectedResponse
    client.getFirstEpochNum status blockTimestamp

def getEpochToProcess (client : SpoClient) (storage : SpoStorage) (answers : Answers) :
    Except SpoError (Option Epoch) := do
  let status ← okOr answers.status .rpcCall
  let latest ← latestEpochNum client storage answers
  return epochAfter client (client.getCurrentEpoch status) latest

/-- `committee.len() as u32`, by which is divided. -/
def committeeSize (committee : List Validator) : Except SpoError UInt32 :=
  let size := UInt32.ofNat committee.length
  if size = 0 then .error .panic else .ok size

def membershipOf (client : SpoClient) (numValidators : UInt32) (member : Validator × Nat) :
    ValidatorMembership :=
  let leftover := client.slotsPerEpoch % numValidators
  { epochNo := member.1.epochNo
    position := member.1.position
    spoSk := removeHexPrefix member.1.sidechainPubkey
    sidechainPubkey := removeHexPrefix member.1.sidechainPubkey
    expectedSlots := client.slotsPerEpoch / numValidators +
      if leftover.toNat > member.2 then 1 else 0 }

/-- An index that is not a `u32` panics. -/
def committeeToMembership (client : SpoClient) (committee : List Validator) :
    Except SpoError (List ValidatorMembership) :=
  if committee.isEmpty then .ok []
  else do
    let numValidators ← committeeSize committee
    committee.zipIdx.mapM fun member =>
      if 2 ^ 32 ≤ member.2 then .error .panic else .ok (membershipOf client numValidators member)

def getExpectedBlocks (client : SpoClient) (epoch : Epoch) (committeeSize : UInt32) : UInt32 :=
  min client.slotsPerEpoch ((epoch.endsAt - epoch.startsAt).toUInt64.toUInt32 / slotDuration) /
    committeeSize

section

variable (client : SpoClient) (cardanoIdOf : Text → Option Text)

abbrev Entry := Text × CandidateRegistration

def entriesOf (registrations : List CandidateRegistration) : Except SpoError (List Entry) :=
  registrations.mapM fun registration => do
    let cardanoId ← okOr (cardanoIdOf (removeHexPrefix registration.mainchainPubKey)) .panic
    return (cardanoId, registration)

def Entry.spoSk (entry : Entry) : Text := removeHexPrefix entry.2.sidechainPubKey

/-- `blocks_produced`: the number of registrations of a key, if it has one. -/
def blocksProduced (entries : List Entry) (spoSk : Text) : Option Nat :=
  let count := entries.countP fun entry => entry.spoSk = spoSk
  if count = 0 then none else some count

/-- `val_to_registration`: the last registration of a key. -/
def valToRegistration (entries : List Entry) (spoSk : Text) : Option CandidateRegistration :=
  (entries.filter fun entry => entry.spoSk = spoSk).getLast?.map Prod.snd

def metadataOf (answers : Answers) (cardanoId : Text) : PoolMetadata :=
  (answers.poolMetadata cardanoId).getD (PoolMetadata.placeholder cardanoId)

/-- One round of the loop over the registrations. -/
def saveEntry (answers : Answers) (epochNo : UInt32) (storage : SpoStorage) (entry : Entry) :
    Except SpoError SpoStorage := do
  let withPool ← storage.savePoolMeta (metadataOf answers entry.1) answers.now
  let withIdentity := withPool.saveSpo
    { spoSk := entry.spoSk
      sidechainPubkey := entry.spoSk
      poolId := entry.1
      auraPubkey := removeHexPrefix entry.2.aura
      mainchainPubkey := removeHexPrefix entry.2.mainchainPubKey }
  return withIdentity.saveSpoHistory entry.spoSk epochNo.toUInt64
    (if entry.2.isValid then .valid else .invalid)

def performanceOf (epoch : Epoch) (entries : List Entry) (expectedBlocks blocksRemainder : UInt32)
    (member : Validator × Nat) : Except SpoError (Option SpoEpochPerformance) :=
  let spoSk := removeHexPrefix member.1.sidechainPubkey
  match blocksProduced entries spoSk with
  | none => .ok none
  | some producedCount => do
    let registration ← okOr (valToRegistration entries spoSk) .panic
    let cardanoId ← okOr (cardanoIdOf (removeHexPrefix registration.mainchainPubKey)) .panic
    return some
      { spoSk := spoSk
        epochNo := epoch.epochNo.toUInt64
        expectedBlocks := expectedBlocks +
          if UInt32.ofNat member.2 < blocksRemainder then 1 else 0
        producedBlocks := (UInt32.ofNat producedCount).toUInt64
        identityLabel := cardanoId }

def savePerformances (epoch : Epoch) (entries : List Entry) (committee : List Validator)
    (storage : SpoStorage) : Except SpoError SpoStorage :=
  if committee.isEmpty then .ok storage
  else do
    let size ← committeeSize committee
    let blocksRemainder := client.epochDuration % size
    let expectedBlocks := getExpectedBlocks client epoch size
    committee.zipIdx.foldlM (fun storage member => do
      let performance ← performanceOf cardanoIdOf epoch entries expectedBlocks blocksRemainder
        member
      return performance.elim storage storage.saveSpoPerformance) storage

def saveProcessed (answers : Answers) (epoch : Epoch) (committee : List Validator)
    (membership : List ValidatorMembership) (entries : List Entry) (storage : SpoStorage) :
    Except SpoError SpoStorage := do
  let withEpoch ← storage.saveEpoch epoch
  let withEntries ← entries.foldlM (saveEntry answers epoch.epochNo)
    (withEpoch.saveMembership membership)
  let complete ← savePerformances client cardanoIdOf epoch entries committee withEntries
  if answers.databaseUp then return complete else .error .storage

/-- `process_next_epoch`: the storage after it, unchanged at the latest epoch. -/
def processNextEpoch (storage : SpoStorage) (answers : Answers) : Except SpoError SpoStorage := do
  match ← getEpochToProcess client storage answers with
  | none => return storage
  | some epoch =>
    let committee ← getCommittee (answers.committee epoch.epochNo)
    let response ← okOr (answers.registrations epoch.epochNo) .rpcCall
    let membership ← committeeToMembership client committee
    let entries ← entriesOf cardanoIdOf (getSpoRegistrations response)
    saveProcessed client cardanoIdOf answers epoch committee membership entries storage

/-- One call; after an error the tables are as before. -/
def pollStep (storage : SpoStorage) (answers : Answers) : SpoStorage :=
  match processNextEpoch client cardanoIdOf storage answers with
  | .ok after => after
  | .error _ => storage

/-! ## What a call does -/

variable {storage after : SpoStorage} {epoch : Epoch} {answers : Answers} {entries : List Entry}
  {committee : List Validator} {membership : List ValidatorMembership} {member : Validator × Nat}

theorem getLatestEpoch_eq_none_iff : storage.getLatestEpoch = none ↔ storage.epochs = [] := by
  rw [getLatestEpoch, head?_eq_none_iff]
  exact Sql.orderBy_eq_nil

theorem getLatestEpoch_eq_some {latest : Epoch} (found : storage.getLatestEpoch = some latest) :
    latest ∈ storage.epochs ∧ ∀ epoch ∈ storage.epochs, epoch.epochNo ≤ latest.epochNo := by
  obtain ⟨member, highest⟩ := Sql.orderByDesc_first found
  exact ⟨member, fun epoch listed => UInt32.le_iff_toNat_le.mpr (highest epoch listed)⟩

variable {client cardanoIdOf}

theorem saveEpoch_success (success : storage.saveEpoch epoch = .ok after) :
    (∀ old ∈ storage.epochs, old.epochNo ≠ epoch.epochNo) ∧
      after = { storage with epochs := storage.epochs ++ [epoch] } := by
  unfold saveEpoch at success
  split at success
  · cases success
  next fresh =>
    cases success
    exact ⟨by simpa using fresh, rfl⟩

/-- The loop over the registrations writes to none of these tables. -/
theorem saveEntry_frame {epochNo : UInt32} {entry : Entry}
    (success : saveEntry answers epochNo storage entry = .ok after) :
    after.epochs = storage.epochs ∧ after.memberships = storage.memberships ∧
      after.performance = storage.performance := by
  unfold saveEntry at success
  obtain ⟨withPool, saved, success⟩ := bind_success success
  cases success
  have pools : withPool.epochs = storage.epochs ∧ withPool.memberships = storage.memberships ∧
      withPool.performance = storage.performance := by
    unfold savePoolMeta at saved
    dsimp only at saved
    split at saved
    · cases saved
      exact ⟨rfl, rfl, rfl⟩
    · split at saved
      · cases saved
      · cases saved
        exact ⟨rfl, rfl, rfl⟩
  unfold saveSpoHistory saveSpo
  dsimp only
  split <;> split <;> exact pools

theorem saveEntries_frame {epochNo : UInt32}
    (success : entries.foldlM (saveEntry answers epochNo) storage = .ok after) :
    after.epochs = storage.epochs ∧ after.memberships = storage.memberships ∧
      after.performance = storage.performance := by
  refine foldlM_keeps (fun current _ => current.epochs = storage.epochs ∧
    current.memberships = storage.memberships ∧ current.performance = storage.performance)
    ?_ ⟨rfl, rfl, rfl⟩ success
  intro current next entry _ kept saved
  obtain ⟨epochs, memberships, performance⟩ := saveEntry_frame saved
  exact ⟨epochs.trans kept.1, memberships.trans kept.2.1, performance.trans kept.2.2⟩

variable (success : savePerformances client cardanoIdOf epoch entries committee storage = .ok after)

/-- The row of a position, if its validator has a registration and an identity. -/
def performanceRowOf (cardanoIdOf : Text → Option Text) (storage : SpoStorage) (epoch : Epoch)
    (entries : List Entry) (expectedBlocks blocksRemainder : UInt32) (member : Validator × Nat) :
    Option PerformanceRow :=
  ((performanceOf cardanoIdOf epoch entries expectedBlocks blocksRemainder
    member).toOption.join.filter fun metadata => storage.hasIdentity metadata.spoSk).map
      SpoStorage.performanceRow

theorem committeeSize_success {size : UInt32} (sized : committeeSize committee = .ok size) :
    size = UInt32.ofNat committee.length ∧ size ≠ 0 := by
  unfold committeeSize at sized
  dsimp only at sized
  split at sized
  · cases sized
  next nonzero =>
    cases sized
    exact ⟨rfl, nonzero⟩

include success in
/-- The rows of the positions are inserted in order, and no other table is written. -/
theorem savePerformances_success :
    let size := UInt32.ofNat committee.length
    after = { storage with
      performance := (committee.zipIdx.filterMap (performanceRowOf cardanoIdOf storage epoch
        entries (getExpectedBlocks client epoch size) (client.epochDuration % size))).foldl
          (Table.insertIgnore performanceKey) storage.performance } := by
  intro size
  unfold savePerformances at success
  split at success
  next empty =>
    cases success
    rw [isEmpty_iff.mp empty]
    rfl
  next nonempty =>
    obtain ⟨divisor, sized, success⟩ := bind_success success
    rw [(committeeSize_success sized).1] at success
    refine foldlM_keeps (fun current taken => current = { storage with
      performance := (taken.filterMap (performanceRowOf cardanoIdOf storage epoch entries
        (getExpectedBlocks client epoch size) (client.epochDuration % size))).foldl
          (Table.insertIgnore performanceKey) storage.performance }) ?_ rfl success
    rintro _ taken member next rfl saved
    obtain ⟨performance, computed, saved⟩ := bind_success saved
    cases saved
    rw [filterMap_append, foldl_append, filterMap_cons, performanceRowOf, computed]
    cases performance with
    | none => rfl
    | some metadata =>
      by_cases identified : storage.hasIdentity metadata.spoSk
      · refine (if_pos identified).trans ?_
        simp [Except.toOption, Option.filter, identified]
      · refine (if_neg identified).trans ?_
        simp [Except.toOption, Option.filter, identified]

theorem saveProcessed_success
    (success : saveProcessed client cardanoIdOf answers epoch committee membership entries
      storage = .ok after) : (∀ old ∈ storage.epochs, old.epochNo ≠ epoch.epochNo) ∧
      after.epochs = storage.epochs ++ [epoch] ∧
      after.memberships = (membership.map membershipRow).foldl
        (Table.insertIgnore membershipKey) storage.memberships ∧
      let size := UInt32.ofNat committee.length
      ∃ withEntries, after.performance = (committee.zipIdx.filterMap (performanceRowOf cardanoIdOf
        withEntries epoch entries (getExpectedBlocks client epoch size)
        (client.epochDuration % size))).foldl
          (Table.insertIgnore performanceKey) storage.performance := by
  unfold saveProcessed at success
  obtain ⟨withEpoch, saveEpoch, success⟩ := bind_success success
  obtain ⟨withEntries, saveEntries, success⟩ := bind_success success
  obtain ⟨complete, savePerformances, success⟩ := bind_success success
  split at success
  · cases success
    obtain ⟨fresh, rfl⟩ := saveEpoch_success saveEpoch
    obtain ⟨epochs, memberships, performance⟩ := saveEntries_frame saveEntries
    rw [savePerformances_success savePerformances, performance]
    exact ⟨fresh, epochs, memberships, withEntries, rfl⟩
  · cases success

theorem getEpochToProcess_success
    (found : getEpochToProcess client storage answers = .ok (some epoch)) :
    ∃ latest, latestEpochNum client storage answers = .ok latest ∧ epoch.epochNo = latest + 1 := by
  unfold getEpochToProcess at found
  obtain ⟨status, _, latest, read, found⟩ := bind₂_success found
  refine ⟨latest, read, ?_⟩
  have after := Except.ok.inj found
  unfold epochAfter at after
  dsimp only at after
  split at after
  · cases after
  · cases after
    rfl

/-- A call changes nothing or stores the epoch to process with its committee. -/
theorem pollStep_cases (client : SpoClient) (cardanoIdOf : Text → Option Text)
    (storage : SpoStorage) (answers : Answers) :
    pollStep client cardanoIdOf storage answers = storage ∨ ∃ epoch committee membership entries,
        getEpochToProcess client storage answers = .ok (some epoch) ∧
        getCommittee (answers.committee epoch.epochNo) = .ok committee ∧
        committeeToMembership client committee = .ok membership ∧
        saveProcessed client cardanoIdOf answers epoch committee membership entries storage =
          .ok (pollStep client cardanoIdOf storage answers) := by
  unfold pollStep
  cases success : processNextEpoch client cardanoIdOf storage answers with
  | error e => exact .inl rfl
  | ok after =>
    unfold processNextEpoch at success
    obtain ⟨found, search, success⟩ := bind_success success
    cases found with
    | none =>
      cases success
      exact .inl rfl
    | some epoch =>
      dsimp only at success
      obtain ⟨committee, fetched, response, _, success⟩ := bind₂_success success
      obtain ⟨membership, made, entries, _, success⟩ := bind₂_success success
      exact .inr ⟨epoch, committee, membership, entries, search, fetched, made, success⟩

theorem pollStep_epochs (client : SpoClient) (cardanoIdOf : Text → Option Text)
    (storage : SpoStorage) (answers : Answers) :
    (pollStep client cardanoIdOf storage answers).epochs = storage.epochs ∨
      ∃ latest epoch, latestEpochNum client storage answers = .ok latest ∧
        epoch.epochNo = latest + 1 ∧ (∀ old ∈ storage.epochs, old.epochNo ≠ epoch.epochNo) ∧
        (pollStep client cardanoIdOf storage answers).epochs = storage.epochs ++ [epoch] := by
  rcases pollStep_cases client cardanoIdOf storage answers with
    same | ⟨epoch, committee, membership, entries, found, _, _, saved⟩
  · exact .inl (congrArg epochs same)
  · obtain ⟨latest, read, number⟩ := getEpochToProcess_success found
    obtain ⟨fresh, epochs, _⟩ := saveProcessed_success saved
    exact .inr ⟨latest, epoch, read, number, fresh, epochs⟩

/-! ## The rows of a call -/

theorem committeeToMembership_success
    (success : committeeToMembership client committee = .ok membership) :
    committee.length < 2 ^ 32 ∧
      membership = committee.zipIdx.map (membershipOf client (UInt32.ofNat committee.length)) := by
  unfold committeeToMembership at success
  split at success
  next empty =>
    cases success
    rw [isEmpty_iff.mp empty]
    exact ⟨Nat.two_pow_pos 32, rfl⟩
  next nonempty =>
    obtain ⟨size, sized, success⟩ := bind_success success
    obtain ⟨rfl, nonzero⟩ := committeeSize_success sized
    refine ⟨?_, ?_⟩
    · -- The last index fits, and the length is not zero as a `u32`.
      by_contra long
      have least : 2 ^ 32 < committee.length := by
        rcases Nat.lt_or_eq_of_le (Nat.le_of_not_lt long) with more | same
        · exact more
        · exact absurd (by rw [← same]; rfl) nonzero
      have member : (committee.get ⟨2 ^ 32, least⟩, 2 ^ 32) ∈ committee.zipIdx := by
        rw [mk_mem_zipIdx_iff_getElem?]
        exact getElem?_eq_getElem least
      obtain ⟨value, given⟩ := mapM_each success member
      rw [if_pos (Nat.le_refl _)] at given
      cases given
    · rw [← map_id membership]
      refine mapM_map success fun member value given => ?_
      split at given
      · cases given
      · cases given
        rfl

/-- What the row of a position says of its validator. -/
theorem performanceRowOf_eq_some {expectedBlocks blocksRemainder : UInt32} {row : PerformanceRow}
    (made : performanceRowOf cardanoIdOf storage epoch entries expectedBlocks blocksRemainder
      member = some row) : row.spoSk = removeHexPrefix member.1.sidechainPubkey ∧
      row.epochNo = Sql.asI64 epoch.epochNo.toUInt64.toNat ∧
      row.expectedBlocks = Sql.asI32 (expectedBlocks +
        if UInt32.ofNat member.2 < blocksRemainder then 1 else 0).toNat := by
  unfold performanceRowOf at made
  obtain ⟨metadata, filtered, rfl⟩ := Option.map_eq_some_iff.mp made
  have computed := (Option.filter_eq_some_iff.mp filtered).1
  cases given : performanceOf cardanoIdOf epoch entries expectedBlocks blocksRemainder member with
  | error e => simp [given, Except.toOption] at computed
  | ok performance =>
    rw [given] at computed
    cases computed
    unfold performanceOf at given
    dsimp only at given
    split at given
    · cases given
    · obtain ⟨registration, _, cardanoId, _, given⟩ := bind₂_success given
      cases given
      exact ⟨rfl, rfl, rfl⟩

/-- Which positions have a row depends on their validators only. -/
theorem performanceRowOf_other {expectedBlocks blocksRemainder : UInt32} {other : Validator × Nat}
    {row : PerformanceRow}
    (made : performanceRowOf cardanoIdOf storage epoch entries expectedBlocks blocksRemainder
      member = some row)
    (same : removeHexPrefix other.1.sidechainPubkey = removeHexPrefix member.1.sidechainPubkey) :
    ∃ otherRow, performanceRowOf cardanoIdOf storage epoch entries expectedBlocks
      blocksRemainder other = some otherRow := by
  rw [← Option.isSome_iff_exists]
  have isSome := congrArg Option.isSome made
  rw [Option.isSome_some] at isSome
  rw [← isSome]
  unfold performanceRowOf performanceOf
  dsimp only
  rw [same]
  cases blocksProduced entries (removeHexPrefix member.1.sidechainPubkey) with
  | none => rfl
  | some count =>
    cases valToRegistration entries (removeHexPrefix member.1.sidechainPubkey) with
    | none => rfl
    | some registration =>
      dsimp only [okOr, bind, Except.bind]
      cases cardanoIdOf (removeHexPrefix registration.mainchainPubKey) with
      | none => rfl
      | some cardanoId =>
        rw [Option.isSome_map, Option.isSome_map]
        change (Option.filter _ (some _)).isSome = (Option.filter _ (some _)).isSome
        rw [Option.isSome_filter, Option.isSome_filter]
        rfl


end

end MidnightIndexer.Source.SpoIndexer
