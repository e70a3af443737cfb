import Mathlib.Algebra.BigOperators.Ring.Finset
import MidnightIndexer.Guarantees.Committees
import MidnightIndexer.Guarantees.SlotShares

/-!
# Expected slots and expected blocks

The membership table shares the slots of an epoch out among the positions of the
committee. The performance table has one row for a validator, made for its first position:
the same quotient, and one more block by the remainder of the epoch's duration in
milliseconds instead of the remainder of its slots.
-/

namespace MidnightIndexer.Guarantees.ExpectedBlocks

open Committees EpochRange EpochTimes Lib List Source.SpoIndexer SpoStorage Apportion

def validators (node : Node) (epochNo : UInt32) : List Text := (node epochNo).map storedKey

/-- The slots that an epoch of full length has room for. -/
def epochBlocks (client : SpoClient) : Nat :=
  min client.slotsPerEpoch.toNat (client.epochDuration.toNat / 6000)

/-- What the performance table says of a validator. -/
def blocksFor (client : SpoClient) (committee : List Text) (validator : Text) : Nat :=
  epochBlocks client / committee.length +
    if committee.idxOf validator < client.epochDuration.toNat % committee.length then 1 else 0

/-! ## The length of an epoch -/

variable {client : SpoClient} {epoch : Epoch}

theorem epochAfter_length {current : Epoch} {latest : UInt32}
    (found : epochAfter client current latest = some epoch) :
    epoch.endsAt - epoch.startsAt = current.endsAt - current.startsAt := by
  unfold epochAfter at found
  dsimp only at found
  split at found
  · cases found
  · cases found
    dsimp only
    grind

theorem getEpochToProcess_length {storage : SpoStorage} {answers : Answers}
    (found : getEpochToProcess client storage answers = .ok (some epoch)) :
    epoch.endsAt - epoch.startsAt = asI64 client.epochDuration := by
  unfold getEpochToProcess at found
  obtain ⟨status, _, latest, _, found⟩ := bind₂_success found
  rw [epochAfter_length (Except.ok.inj found), SpoClient.getCurrentEpoch]
  dsimp only
  grind

theorem toNat_min (a b : UInt32) : (min a b).toNat = min a.toNat b.toNat := by
  change (if a ≤ b then a else b).toNat = _
  split
  next below => exact (Nat.min_eq_left (UInt32.le_iff_toNat_le.mp below)).symm
  next above =>
    rw [UInt32.le_iff_toNat_le] at above
    omega

theorem getExpectedBlocks_toNat
    (full : epoch.endsAt - epoch.startsAt = asI64 client.epochDuration) (size : UInt32) :
    (getExpectedBlocks client epoch size).toNat = epochBlocks client / size.toNat := by
  rw [getExpectedBlocks, full, asI64, UInt64.toUInt64_toInt64, UInt32.toUInt32_toUInt64,
    UInt32.toNat_div, toNat_min, UInt32.toNat_div]
  rfl

theorem epochBlocks_le (client : SpoClient) : epochBlocks client ≤ 715827 := by
  have word := client.epochDuration.toNat_lt
  unfold epochBlocks
  omega

/-! ## One performance -/

theorem index_of_find {α β : Type} [DecidableEq β] [BEq β] [LawfulBEq β] (f : α → β) (v : β)
    (xs : List α) (start : Nat) {position : α × Nat}
    (found : (xs.zipIdx start).find? (fun position => f position.1 = v) = some position) :
    position.2 = start + (xs.map f).idxOf v ∧ v ∈ xs.map f := by
  induction xs generalizing start with
  | nil => cases found
  | cons x rest ih =>
    rw [zipIdx_cons] at found
    by_cases own : f x = v
    · rw [find?_cons_of_pos (by simpa using own)] at found
      cases found
      simp [own]
    · rw [find?_cons_of_neg (by simpa using own)] at found
      obtain ⟨index, member⟩ := ih (start + 1) found
      rw [map_cons, idxOf_cons_ne _ own]
      exact ⟨by omega, mem_cons_of_mem _ member⟩

section

variable {client : SpoClient} {cardanoIdOf : Text → Option Text} {node : Node}
  {storage : SpoStorage} {answers : Answers}

/-- A row that is inserted first is made for the first position of its validator. -/
theorem first_performance {entries : List Entry} {committee : List Validator}
    {expectedBlocks blocksRemainder : UInt32} {row : PerformanceRow}
    (first : Table.lookup performanceKey (performanceKey row)
      (committee.zipIdx.filterMap (performanceRowOf cardanoIdOf storage epoch entries
        expectedBlocks blocksRemainder)) = some row) :
    ∃ position : Validator × Nat, position.1 ∈ committee ∧
      performanceRowOf cardanoIdOf storage epoch entries expectedBlocks blocksRemainder position =
        some row ∧
      position.2 = (committee.map fun v => removeHexPrefix v.sidechainPubkey).idxOf row.spoSk ∧
      row.spoSk ∈ committee.map fun v => removeHexPrefix v.sidechainPubkey := by
  rw [Table.lookup, find?_filterMap, Option.bind_eq_some_iff] at first
  obtain ⟨position, found, made⟩ := first
  obtain ⟨key, epochNo, _⟩ := performanceRowOf_eq_some made
  have listed := fst_mem_of_mem_zipIdx (mem_of_find?_eq_some found)
  have byKey : (fun other => (performanceRowOf cardanoIdOf storage epoch entries expectedBlocks
      blocksRemainder other).any fun r => decide (performanceKey r = performanceKey row)) =
      fun other : Validator × Nat =>
        decide (removeHexPrefix other.1.sidechainPubkey = row.spoSk) := by
    funext other
    rw [Bool.eq_iff_iff, decide_eq_true_iff, Option.any_eq_true]
    constructor
    · rintro ⟨r, given, same⟩
      obtain ⟨otherKey, _, _⟩ := performanceRowOf_eq_some given
      rw [← otherKey]
      exact (Prod.mk.inj (of_decide_eq_true same)).2
    · intro same
      obtain ⟨r, given⟩ := performanceRowOf_other made (same.trans key)
      obtain ⟨otherKey, otherEpoch, _⟩ := performanceRowOf_eq_some given
      refine ⟨r, given, decide_eq_true ?_⟩
      rw [performanceKey, performanceKey, otherKey, otherEpoch, same, epochNo]
  rw [byKey] at found
  obtain ⟨index, member⟩ := index_of_find (fun v : Validator => removeHexPrefix v.sidechainPubkey)
    row.spoSk committee 0 found
  exact ⟨position, listed, made, by omega, member⟩

/-- The stored number of a validator at its first position. -/
theorem expectedBlocks_eq {committee : List Text}
    (full : epoch.endsAt - epoch.startsAt = asI64 client.epochDuration)
    (small : committee.length < 2 ^ 32) {validator : Text} (member : validator ∈ committee) :
    Sql.asI32 (getExpectedBlocks client epoch (UInt32.ofNat committee.length) +
        if UInt32.ofNat (committee.idxOf validator) <
          client.epochDuration % UInt32.ofNat committee.length then 1 else 0).toNat =
      blocksFor client committee validator := by
  have size : (UInt32.ofNat committee.length).toNat = committee.length := by
    rw [UInt32.toNat_ofNat', Nat.mod_eq_of_lt small]
  have index := idxOf_lt_length_of_mem member
  have position : (UInt32.ofNat (committee.idxOf validator)).toNat =
      committee.idxOf validator := by
    rw [UInt32.toNat_ofNat', Nat.mod_eq_of_lt (by omega)]
  have quotient := getExpectedBlocks_toNat full (UInt32.ofNat committee.length)
  rw [size] at quotient
  have bound := Nat.div_le_self (epochBlocks client) committee.length
  have most := epochBlocks_le client
  have below_iff : UInt32.ofNat (committee.idxOf validator) <
      client.epochDuration % UInt32.ofNat committee.length ↔
        committee.idxOf validator < client.epochDuration.toNat % committee.length := by
    rw [UInt32.lt_iff_toNat_lt, position, UInt32.toNat_mod, size]
  rw [blocksFor]
  simp only [below_iff]
  split <;> rw [UInt32.toNat_add, quotient, Nat.mod_eq_of_lt, Sql.asI32_of_lt] <;> simp <;> omega

theorem pollStep_performance (answered : Answered node answers) {row : PerformanceRow}
    (member : row ∈ (pollStep client cardanoIdOf storage answers).performance) :
    row ∈ storage.performance ∨ ∃ epochNo,
      Stored (pollStep client cardanoIdOf storage answers) epochNo ∧ ¬Stored storage epochNo ∧
      answers.committee epochNo ≠ .failed ∧ row.epochNo = epochNo.toNat ∧
      row.spoSk ∈ validators node epochNo ∧
      row.expectedBlocks = blocksFor client (validators node epochNo) row.spoSk := by
  rcases pollStep_cases client cardanoIdOf storage answers with
    same | ⟨epoch, committee, membership, entries, found, fetched, made, saved⟩
  · exact .inl (same ▸ member)
  · obtain ⟨fresh, epochs, _, withEntries, performances⟩ := saveProcessed_success saved
    rw [performances] at member
    rcases Table.mem_foldl_insertIgnore member with old | first
    · exact .inl old
    · obtain ⟨position, listed, given, index, inCommittee⟩ := first_performance first
      obtain ⟨_, epochNo, blocks⟩ := performanceRowOf_eq_some given
      have received : answers.committee epoch.epochNo ≠ .failed := by
        intro failed
        rw [failed] at fetched
        cases fetched
        cases listed
      refine .inr ⟨epoch.epochNo, (stored_append epochs _).mpr (.inr rfl), ?_, received,
        epochNo.trans (asI64_epoch _), ?_⟩
      · intro stored
        obtain ⟨old, listed, same⟩ := mem_map.mp stored
        exact fresh old listed same
      · have decoded : answers.committee epoch.epochNo =
            .response ⟨epoch.epochNo.toUInt64, node epoch.epochNo⟩ := by
          rcases answered epoch.epochNo with failed | undecodable | response
          · exact absurd failed received
          · rw [undecodable] at fetched
            cases fetched
          · exact response
        rw [decoded] at fetched
        obtain ⟨small, _⟩ := membership_rows fetched made
        cases fetched
        have keys : ((node epoch.epochNo).zipIdx.map fun member => (⟨epoch.epochNo.toUInt64,
            UInt64.ofNat member.2, removeHexPrefix member.1⟩ : Validator)).map
              (fun v => removeHexPrefix v.sidechainPubkey) = validators node epoch.epochNo := by
          rw [map_map, validators, ← zipIdx_map_fst 0 (node epoch.epochNo), map_map, zipIdx_map_fst]
          rfl
        dsimp only at index inCommittee
        rw [keys] at index inCommittee
        have length := congrArg length keys
        rw [length_map] at length
        refine ⟨inCommittee, ?_⟩
        dsimp only at blocks
        rw [blocks, length, index]
        refine expectedBlocks_eq (getEpochToProcess_length found) ?_ inCommittee
        rw [validators, length_map]
        exact small

end

/-! ## The slots of an epoch -/

/-- The rows of an epoch are those of the node's committee. -/
def FromNode (client : SpoClient) (node : Node) (storage : SpoStorage) (epochNo : UInt32) : Prop :=
  (node epochNo).length < 2 ^ 32 ∧ rowsOf storage epochNo = (node epochNo).zipIdx.map
    (committeeRow client epochNo (UInt32.ofNat (node epochNo).length))

/-- The sum of `expected_slots` over the positions of a validator. -/
def slotsFor (storage : SpoStorage) (epochNo : UInt32) (validator : Text) : Int :=
  (((rowsOf storage epochNo).filter fun row => row.spoSk = validator).map
    MembershipRow.expectedSlots).sum

def slotsInTotal (storage : SpoStorage) (epochNo : UInt32) : Int :=
  ((rowsOf storage epochNo).map MembershipRow.expectedSlots).sum

section

variable {client : SpoClient} {node : Node} {storage : SpoStorage} {epochNo : UInt32}

theorem committeeRow_expectedSlots (client : SpoClient) (epochNo : UInt32) {keys : List Text}
    (small : keys.length < 2 ^ 32) (position : Text × Nat) :
    (committeeRow client epochNo (UInt32.ofNat keys.length) position).expectedSlots =
      Sql.asI32 (share client.slotsPerEpoch.toNat keys.length position.2) := by
  rw [committeeRow]
  dsimp only
  rw [SlotShares.slots_toNat client.slotsPerEpoch small position.2]

theorem FromNode.slotsFor_eq (rows : FromNode client node storage epochNo) (validator : Text) :
    slotsFor storage epochNo validator = ((held client.slotsPerEpoch.toNat
      (validators node epochNo) validator).map Sql.asI32).sum := by
  rw [slotsFor, rows.2, filter_map, map_map, held, validators,
    zipIdx_map, filter_map, map_map, map_map, length_map]
  congr 1
  apply map_congr_left
  intro position _
  exact committeeRow_expectedSlots client epochNo rows.1 position

theorem FromNode.slotsInTotal_eq (rows : FromNode client node storage epochNo) :
    slotsInTotal storage epochNo = (((validators node epochNo).zipIdx.map fun position =>
      share client.slotsPerEpoch.toNat (validators node epochNo).length
        position.2).map Sql.asI32).sum := by
  rw [slotsInTotal, rows.2, map_map, validators, zipIdx_map, map_map, map_map, length_map]
  congr 1
  apply map_congr_left
  intro position _
  exact committeeRow_expectedSlots client epochNo rows.1 position

end

/-! ## Whole runs -/

/-- What both tables say of the committees. -/
structure Shared (client : SpoClient) (node : Node) (storage : SpoStorage) : Prop where
  fits : Fits storage
  memberships : ∀ epochNo, Stored storage epochNo →
    rowsOf storage epochNo = [] ∨ FromNode client node storage epochNo
  performance : ∀ row ∈ storage.performance, ∀ epochNo, Stored storage epochNo →
    row.epochNo = epochNo.toNat → FromNode client node storage epochNo ∧
      row.spoSk ∈ validators node epochNo ∧
      row.expectedBlocks = blocksFor client (validators node epochNo) row.spoSk

section

variable {client : SpoClient} {cardanoIdOf : Text → Option Text} {node : Node}

theorem pollStep_shared {storage : SpoStorage} {answers : Answers}
    (answered : Answered node answers) (shared : Shared client node storage) :
    Shared client node (pollStep client cardanoIdOf storage answers) := by
  rcases pollStep_stored client cardanoIdOf answered shared.fits with same | ⟨epoch, call⟩
  · rw [same]
    exact shared
  have stored := stored_append call.epochs
  have old : ∀ epochNo, Stored storage epochNo → FromNode client node storage epochNo →
      FromNode client node (pollStep client cardanoIdOf storage answers) epochNo := by
    intro epochNo isStored rows
    exact ⟨rows.1, (call.rowsOf_old isStored).trans rows.2⟩
  refine ⟨call.fits shared.fits, ?_, ?_⟩
  · intro epochNo isStored
    rcases (stored epochNo).mp isStored with before | rfl
    · rw [call.rowsOf_old before]
      exact (shared.memberships epochNo before).imp_right (old epochNo before)
    · rcases call.rowsOf_new shared.fits with ⟨_, rows⟩ | ⟨_, small, rows⟩
      · exact .inl rows
      · exact .inr ⟨small, rows⟩
  · intro row member epochNo isStored number
    rcases pollStep_performance answered member with listed | ⟨other, _, fresh, decoded, otherNumber,
      inCommittee, blocks⟩
    · obtain ⟨own, ownStored, ownNumber⟩ := shared.fits.performance row listed
      have same : own = epochNo := UInt32.toNat_inj.mp (by omega)
      rw [same] at ownStored
      obtain ⟨rows, rest⟩ := shared.performance row listed epochNo ownStored number
      exact ⟨old epochNo ownStored rows, rest⟩
    · have same : other = epochNo := UInt32.toNat_inj.mp (by omega)
      rw [same] at fresh decoded inCommittee blocks
      have isNew : epochNo = epoch.epochNo := ((stored epochNo).mp isStored).resolve_left fresh
      refine ⟨?_, inCommittee, blocks⟩
      rcases call.rowsOf_new shared.fits with ⟨failed, _⟩ | ⟨_, small, rows⟩
      · exact absurd failed (isNew ▸ decoded)
      · rw [isNew]
        exact ⟨small, rows⟩

theorem shared_empty : Shared client node empty :=
  ⟨fits_empty, fun _ stored => absurd stored not_mem_nil, fun _ member => absurd member not_mem_nil⟩

theorem after_shared (client : SpoClient) (cardanoIdOf : Text → Option Text) {inputs : List Answers}
    (answered : ∀ answers ∈ inputs, Answered node answers) :
    Shared client node (after client cardanoIdOf inputs) :=
  run_keeps_on (fun _ answers member shared => pollStep_shared (answered answers member) shared)
    empty shared_empty

end

/-! ## Both tables -/

def performancesOf (storage : SpoStorage) (epochNo : UInt32) : List PerformanceRow :=
  storage.performance.filter fun row => row.epochNo = epochNo.toNat

/-- The sum of `expected_blocks` over an epoch. -/
def blocksInTotal (storage : SpoStorage) (epochNo : UInt32) : Int :=
  ((performancesOf storage epochNo).map PerformanceRow.expectedBlocks).sum

/-- How many validators have one block more than the quotient. -/
def extraBlocks (client : SpoClient) (committee : List Text) (rows : List PerformanceRow) : Nat :=
  rows.countP fun row =>
    committee.idxOf row.spoSk < client.epochDuration.toNat % committee.length

section

variable {client : SpoClient} {node : Node} {storage : SpoStorage} {epochNo : UInt32}

theorem sum_blocksFor (client : SpoClient) (committee : List Text) (rows : List PerformanceRow) :
    (rows.map fun row => blocksFor client committee row.spoSk).sum =
      rows.length * (epochBlocks client / committee.length) +
        extraBlocks client committee rows := by
  induction rows with
  | nil => simp [extraBlocks]
  | cons row rest ih =>
    rw [map_cons, sum_cons, ih, length_cons, Nat.succ_mul, blocksFor, extraBlocks,
      extraBlocks, countP_cons]
    simp only [decide_eq_true_eq]
    omega

variable (shared : Shared client node storage) (stored : Stored storage epochNo)

include shared stored in
theorem Shared.blocksInTotal_eq : blocksInTotal storage epochNo =
      (((performancesOf storage epochNo).length *
        (epochBlocks client / (validators node epochNo).length) +
          extraBlocks client (validators node epochNo) (performancesOf storage epochNo) : Nat) :
            Int) := by
  rw [← sum_blocksFor, blocksInTotal]
  have each : (performancesOf storage epochNo).map PerformanceRow.expectedBlocks =
      ((performancesOf storage epochNo).map fun row =>
        blocksFor client (validators node epochNo) row.spoSk).map Nat.cast := by
    rw [map_map]
    apply map_congr_left
    intro row member
    obtain ⟨listed, number⟩ := mem_filter.mp member
    exact (shared.performance row listed epochNo stored (of_decide_eq_true number)).2.2
  rw [each, Nat.cast_list_sum]

include shared stored in
theorem Shared.performances_le :
    (performancesOf storage epochNo).length ≤ (validators node epochNo).length := by
  have keys : ((performancesOf storage epochNo).map performanceKey).Nodup :=
    shared.fits.unique.sublist (filter_sublist.map _)
  have distinct : ((performancesOf storage epochNo).map PerformanceRow.spoSk).Nodup := by
    refine pairwise_map.mpr ((pairwise_map.mp keys).imp_of_mem ?_)
    intro one other oneIn otherIn different same
    have oneNumber := of_decide_eq_true (mem_filter.mp oneIn).2
    have otherNumber := of_decide_eq_true (mem_filter.mp otherIn).2
    exact different (Prod.ext (oneNumber.trans otherNumber.symm) same)
  have inside : (performancesOf storage epochNo).map PerformanceRow.spoSk ⊆
      validators node epochNo := by
    intro key member
    obtain ⟨row, listed, rfl⟩ := mem_map.mp member
    obtain ⟨inTable, number⟩ := mem_filter.mp listed
    exact (shared.performance row inTable epochNo stored (of_decide_eq_true number)).2.1
  have bound := (subperm_of_subset distinct inside).length_le
  rw [length_map] at bound
  exact bound

/-- The memberships account for all slots where the performances could. -/
theorem FromNode.slotsInTotal_of_le (rows : FromNode client node storage epochNo)
    (few : client.slotsPerEpoch.toNat ≤ (validators node epochNo).length * 715828) :
    slotsInTotal storage epochNo = client.slotsPerEpoch.toNat := by
  rw [rows.slotsInTotal_eq]
  by_cases empty : validators node epochNo = []
  · rw [empty] at few ⊢
    have none_left : client.slotsPerEpoch.toNat = 0 := by simpa using few
    rw [none_left]
    rfl
  · rw [Sql.sum_asI32_of_lt, sum_shares _ empty]
    intro value member
    obtain ⟨position, _, rfl⟩ := mem_map.mp member
    have positive := length_pos_iff.mpr empty
    have quotient : client.slotsPerEpoch.toNat / (validators node epochNo).length ≤ 715828 :=
      Nat.div_le_of_le_mul few
    unfold share
    split <;> omega

include shared stored in
theorem Shared.slotsInTotal_of_blocks (total : (performancesOf storage epochNo).length *
        (epochBlocks client / (validators node epochNo).length) +
          extraBlocks client (validators node epochNo) (performancesOf storage epochNo) =
      client.slotsPerEpoch.toNat) : slotsInTotal storage epochNo = client.slotsPerEpoch.toNat := by
  have quotient : epochBlocks client / (validators node epochNo).length ≤ 715827 :=
    (Nat.div_le_self _ _).trans (epochBlocks_le client)
  have extra : extraBlocks client (validators node epochNo) (performancesOf storage epochNo) ≤
      (performancesOf storage epochNo).length := countP_le_length
  have product := Nat.mul_le_mul_left (performancesOf storage epochNo).length quotient
  have number := shared.performances_le stored
  have few : client.slotsPerEpoch.toNat ≤ (validators node epochNo).length * 715828 := by omega
  cases rows : performancesOf storage epochNo with
  | cons row rest =>
    have member : row ∈ performancesOf storage epochNo := rows ▸ mem_cons_self
    obtain ⟨listed, ofEpoch⟩ := mem_filter.mp member
    exact (shared.performance row listed epochNo stored
      (of_decide_eq_true ofEpoch)).1.slotsInTotal_of_le few
  | nil =>
    rcases shared.memberships epochNo stored with none_stored | fromNode
    · have none_left : client.slotsPerEpoch.toNat = 0 := by
        rw [← total, rows]
        simp [extraBlocks]
      rw [slotsInTotal, none_stored, none_left]
      rfl
    · exact fromNode.slotsInTotal_of_le few

end

def tenSlots : SpoClient := SpoClient.new 10

def registrationOf (key : Char) : CandidateRegistration := ⟨[key], [key], [key], true⟩

/-- A call at epoch 2, which begins with block 1, with three registered validators. -/
def callWith (committee : List Text) : Answers where
  status := some ⟨2, 180000⟩
  statusForFirst := some ⟨2, 180000⟩
  blockOneTimestamp := some 120000
  committee epochNo := .response ⟨epochNo.toUInt64, committee⟩
  registrations _ := some [(['r'], ['a', 'b', 'c'].map registrationOf)]
  poolMetadata _ := none
  now := 0
  databaseUp := true

theorem callWith_answered (committee : List Text) :
    ∀ answers ∈ [callWith committee], Answered (fun _ => committee) answers := by
  intro answers member epochNo
  rw [mem_singleton.mp member]
  exact .inr (.inr rfl)

def sharedOut (committee : List Text) : SpoStorage := after tenSlots some [callWith committee]

end MidnightIndexer.Guarantees.ExpectedBlocks
