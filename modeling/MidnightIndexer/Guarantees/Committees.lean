import MidnightIndexer.Guarantees.EpochRange

/-!
# Epochs and their committees

An epoch, its committee and the performances are stored in one transaction, so the rows of
both tables belong to stored epochs and the rows of a stored epoch never change. But the
client turns a failed request for the committee into an empty committee: the epoch is then
stored without one, and it is not looked at again.
-/

namespace MidnightIndexer.Guarantees.Committees

open EpochRange EpochTimes Lib List Source.SpoIndexer

abbrev Node := UInt32 → List Text

/-- A request for a committee fails, has an answer that cannot be decoded, or has the
node's. -/
def Answered (node : Node) (answers : Answers) : Prop :=
  ∀ epochNo, answers.committee epochNo = .failed ∨ answers.committee epochNo = .undecodable ∨
    answers.committee epochNo = .response ⟨epochNo.toUInt64, node epochNo⟩

/-- The hex prefix is removed by the client and once more on the way to the table. -/
def storedKey (key : Text) : Text := removeHexPrefix (removeHexPrefix key)

def rowsOf (storage : SpoStorage) (epochNo : UInt32) : List MembershipRow :=
  storage.memberships.filter fun row => row.epochNo = epochNo.toNat

/-- The epoch is stored with the committee that the node holds for it. -/
def HoldsCommittee (node : Node) (storage : SpoStorage) (epochNo : UInt32) : Prop :=
  (rowsOf storage epochNo).map (fun row => (row.position, row.spoSk, row.sidechainPubkey)) =
    (node epochNo).zipIdx.map fun member =>
      (Sql.asI32 member.2, storedKey member.1, storedKey member.1)

/-- All epochs are. -/
def Held (node : Node) (storage : SpoStorage) : Prop :=
  ∀ epochNo, Stored storage epochNo → HoldsCommittee node storage epochNo

/-- The rows of both tables belong to stored epochs, and a validator has at most one
performance in an epoch. -/
structure Fits (storage : SpoStorage) : Prop where
  memberships : ∀ row ∈ storage.memberships, ∃ epochNo, Stored storage epochNo ∧
    row.epochNo = epochNo.toNat
  performance : ∀ row ∈ storage.performance, ∃ epochNo, Stored storage epochNo ∧
    row.epochNo = epochNo.toNat
  unique : (storage.performance.map SpoStorage.performanceKey).Nodup

/-! ## The rows of a committee -/

def committeeRow (client : SpoClient) (epochNo size : UInt32) (member : Text × Nat) :
    MembershipRow :=
  { spoSk := storedKey member.1
    sidechainPubkey := storedKey member.1
    epochNo := epochNo.toNat
    position := Sql.asI32 member.2
    expectedSlots := Sql.asI32 (client.slotsPerEpoch / size +
      if (client.slotsPerEpoch % size).toNat > member.2 then 1 else 0).toNat }

theorem zipIdx_zipIdx {α : Type} (xs : List α) (k : Nat) :
    (xs.zipIdx k).zipIdx k = (xs.zipIdx k).map fun member => (member, member.2) := by
  induction xs generalizing k with
  | nil => rfl
  | cons x rest ih => rw [zipIdx_cons, zipIdx_cons, ih, map_cons]

theorem asI64_epoch (epochNo : UInt32) :
    Sql.asI64 epochNo.toUInt64.toNat = (epochNo.toNat : Int) := by
  have small := epochNo.toNat_lt
  rw [UInt32.toNat_toUInt64, Sql.asI64_of_lt (by omega)]

variable {epochNo : UInt32}

theorem membership_rows {client : SpoClient} {keys : List Text} {committee : List Validator}
    {membership : List ValidatorMembership}
    (fetched : getCommittee (.response ⟨epochNo.toUInt64, keys⟩) = .ok committee)
    (made : committeeToMembership client committee = .ok membership) :
    keys.length < 2 ^ 32 ∧ membership.map SpoStorage.membershipRow =
      keys.zipIdx.map (committeeRow client epochNo (UInt32.ofNat keys.length)) := by
  obtain ⟨small, rfl⟩ := committeeToMembership_success made
  cases fetched
  rw [length_map, length_zipIdx] at small ⊢
  change keys.length < 2 ^ 32 at small
  refine ⟨small, ?_⟩
  rw [zipIdx_map, zipIdx_zipIdx, map_map, map_map, map_map]
  apply map_congr_left
  intro member listed
  have index : member.2 < keys.length := by
    have bound := snd_lt_of_mem_zipIdx listed
    omega
  have position : (UInt64.ofNat member.2).toNat = member.2 := by
    rw [UInt64.toNat_ofNat', Nat.mod_eq_of_lt (by omega)]
  simp only [Function.comp_apply, Prod.map, SpoStorage.membershipRow, membershipOf, committeeRow,
    asI64_epoch, position, storedKey, id_eq]

theorem asI32_inj {m n : Nat} (mSmall : m < 2 ^ 32) (nSmall : n < 2 ^ 32)
    (same : Sql.asI32 m = Sql.asI32 n) : m = n := by
  unfold Sql.asI32 Sql.toSigned at same
  rw [Nat.mod_eq_of_lt mSmall, Nat.mod_eq_of_lt nSmall] at same
  split at same <;> split at same <;> omega

theorem committeeRow_keys_nodup (client : SpoClient) (epochNo size : UInt32) {keys : List Text}
    (small : keys.length < 2 ^ 32) : ((keys.zipIdx.map (committeeRow client epochNo size)).map
      SpoStorage.membershipKey).Nodup := by
  have positions : (keys.zipIdx.map Prod.snd).Nodup := by
    rw [zipIdx_map_snd]
    exact nodup_range'
  rw [map_map]
  refine pairwise_map.mpr ((pairwise_map.mp positions).imp_of_mem ?_)
  intro low high lowIn highIn different same
  have lowIndex := snd_lt_of_mem_zipIdx lowIn
  have highIndex := snd_lt_of_mem_zipIdx highIn
  exact different (asI32_inj (by omega) (by omega) (Prod.mk.inj same).2)

/-! ## One call -/

section

variable {client : SpoClient} {cardanoIdOf : Text → Option Text} {node : Node}
  {storage : SpoStorage} {answers : Answers}

/-- The epoch to process is stored, with its committee or without one. -/
structure StoredCall (client : SpoClient) (node : Node) (storage : SpoStorage) (answers : Answers)
    (after : SpoStorage) (epoch : Epoch) : Prop where
  found : getEpochToProcess client storage answers = .ok (some epoch)
  fresh : ¬Stored storage epoch.epochNo
  epochs : after.epochs = storage.epochs ++ [epoch]
  memberships : (answers.committee epoch.epochNo = .failed ∧
      after.memberships = storage.memberships) ∨
    (answers.committee epoch.epochNo ≠ .failed ∧ (node epoch.epochNo).length < 2 ^ 32 ∧
      after.memberships = storage.memberships ++ (node epoch.epochNo).zipIdx.map
        (committeeRow client epoch.epochNo (UInt32.ofNat (node epoch.epochNo).length)))
  performance : ∀ row ∈ after.performance, row ∈ storage.performance ∨
    row.epochNo = epoch.epochNo.toNat
  unique : (after.performance.map SpoStorage.performanceKey).Nodup

variable (client cardanoIdOf) in
theorem pollStep_stored (answered : Answered node answers) (fits : Fits storage) :
    pollStep client cardanoIdOf storage answers = storage ∨
      ∃ epoch, StoredCall client node storage answers
        (pollStep client cardanoIdOf storage answers) epoch := by
  rcases pollStep_cases client cardanoIdOf storage answers with
    same | ⟨epoch, committee, membership, entries, found, fetched, made, saved⟩
  · exact .inl same
  · obtain ⟨fresh, epochs, memberships, withEntries, performances⟩ :=
      saveProcessed_success saved
    have unstored : ¬Stored storage epoch.epochNo := by
      intro stored
      obtain ⟨old, listed, same⟩ := mem_map.mp stored
      exact fresh old listed same
    refine .inr ⟨epoch, found, unstored, epochs, ?_, ?_, ?_⟩
    · rcases answered epoch.epochNo with failed | undecodable | response
      · rw [failed] at fetched
        cases fetched
        cases made
        exact .inl ⟨failed, memberships⟩
      · rw [undecodable] at fetched
        cases fetched
      · rw [response] at fetched ⊢
        obtain ⟨small, rows⟩ := membership_rows fetched made
        refine .inr ⟨by simp, small, ?_⟩
        rw [memberships, rows, Table.foldl_insertIgnore_fresh
          (committeeRow_keys_nodup client epoch.epochNo _ small)]
        intro row new old listed same
        obtain ⟨member, _, rfl⟩ := mem_map.mp new
        obtain ⟨epochNo, stored, number⟩ := fits.memberships old listed
        have equal : (epochNo.toNat : Int) = epoch.epochNo.toNat :=
          number.symm.trans (Prod.mk.inj same).1
        have equal : epochNo = epoch.epochNo := UInt32.toNat_inj.mp (by exact_mod_cast equal)
        exact unstored (equal ▸ stored)
    · intro row member
      rw [performances] at member
      rcases Table.mem_foldl_insertIgnore member with old | first
      · exact .inl old
      · obtain ⟨listed, _⟩ := Table.lookup_some first
        obtain ⟨position, _, given⟩ := mem_filterMap.mp listed
        exact .inr ((performanceRowOf_eq_some given).2.1.trans (asI64_epoch epoch.epochNo))
    · rw [performances]
      exact Table.foldl_insertIgnore_nodup fits.unique _

variable {epoch : Epoch}

theorem StoredCall.rowsOf_old {after : SpoStorage}
    (call : StoredCall client node storage answers after epoch) (stored : Stored storage epochNo) :
    rowsOf after epochNo = rowsOf storage epochNo := by
  rcases call.memberships with ⟨_, same⟩ | ⟨_, _, added⟩
  · rw [rowsOf, same, rowsOf]
  · have different : epoch.epochNo.toNat ≠ epochNo.toNat := fun same =>
      call.fresh (UInt32.toNat_inj.mp same ▸ stored)
    rw [rowsOf, added, filter_append, rowsOf]
    refine (congrArg _ (filter_eq_nil_iff.mpr fun row new => ?_)).trans (append_nil _)
    obtain ⟨member, _, rfl⟩ := mem_map.mp new
    simpa [committeeRow] using different

theorem rowsOf_of_unstored (fits : Fits storage) (unstored : ¬Stored storage epochNo) :
    rowsOf storage epochNo = [] := by
  refine filter_eq_nil_iff.mpr fun row member => ?_
  obtain ⟨other, stored, number⟩ := fits.memberships row member
  have different : other.toNat ≠ epochNo.toNat := fun same =>
    unstored (UInt32.toNat_inj.mp same ▸ stored)
  simpa [number] using different

theorem StoredCall.rowsOf_new (fits : Fits storage) {after : SpoStorage}
    (call : StoredCall client node storage answers after epoch) :
    (answers.committee epoch.epochNo = .failed ∧ rowsOf after epoch.epochNo = []) ∨
      (answers.committee epoch.epochNo ≠ .failed ∧ (node epoch.epochNo).length < 2 ^ 32 ∧
        rowsOf after epoch.epochNo = (node epoch.epochNo).zipIdx.map (committeeRow client
          epoch.epochNo (UInt32.ofNat (node epoch.epochNo).length))) := by
  have before := rowsOf_of_unstored fits call.fresh
  rcases call.memberships with ⟨failed, same⟩ | ⟨decoded, small, added⟩
  · rw [rowsOf, same]
    exact .inl ⟨failed, before⟩
  · refine .inr ⟨decoded, small, ?_⟩
    rw [rowsOf, added, filter_append]
    rw [rowsOf] at before
    rw [before, nil_append, filter_eq_self]
    intro row new
    obtain ⟨member, _, rfl⟩ := mem_map.mp new
    simp [committeeRow]

/-- A new epoch has its committee unless the request failed, or if there is none to
hold. -/
theorem StoredCall.holdsCommittee_iff (fits : Fits storage) {after : SpoStorage}
    (call : StoredCall client node storage answers after epoch) :
    HoldsCommittee node after epoch.epochNo ↔
      answers.committee epoch.epochNo ≠ .failed ∨ node epoch.epochNo = [] := by
  rcases call.rowsOf_new fits with ⟨failed, rows⟩ | ⟨decoded, small, rows⟩
  · rw [HoldsCommittee, rows]
    cases node epoch.epochNo with
    | nil => simp
    | cons key rest => simp [failed]
  · refine iff_of_true ?_ (.inl decoded)
    rw [HoldsCommittee, rows, map_map]
    rfl

theorem StoredCall.fits (fits : Fits storage) {after : SpoStorage}
    (call : StoredCall client node storage answers after epoch) : Fits after := by
  have stored := stored_append call.epochs
  have own : Stored after epoch.epochNo := (stored _).mpr (.inr rfl)
  refine ⟨fun row member => ?_, fun row member => ?_, call.unique⟩
  · have old : row ∈ storage.memberships → ∃ epochNo, Stored after epochNo ∧
        row.epochNo = epochNo.toNat := by
      intro listed
      obtain ⟨epochNo, isStored, number⟩ := fits.memberships row listed
      exact ⟨epochNo, (stored _).mpr (.inl isStored), number⟩
    rcases call.memberships with ⟨_, same⟩ | ⟨_, _, added⟩
    · exact old (same ▸ member)
    · rw [added] at member
      rcases mem_append.mp member with listed | new
      · exact old listed
      · obtain ⟨position, _, rfl⟩ := mem_map.mp new
        exact ⟨epoch.epochNo, own, rfl⟩
  · rcases call.performance row member with listed | number
    · obtain ⟨epochNo, isStored, number⟩ := fits.performance row listed
      exact ⟨epochNo, (stored _).mpr (.inl isStored), number⟩
    · exact ⟨epoch.epochNo, own, number⟩

theorem pollStep_fits (answered : Answered node answers) (fits : Fits storage) :
    Fits (pollStep client cardanoIdOf storage answers) := by
  rcases pollStep_stored client cardanoIdOf answered fits with same | ⟨epoch, call⟩
  · rw [same]
    exact fits
  · exact call.fits fits

/-- The call does not store an epoch whose committee it failed to get. -/
def CommitteeReceived (client : SpoClient) (cardanoIdOf : Text → Option Text) (node : Node)
    (storage : SpoStorage) (answers : Answers) : Prop :=
  ∀ epoch ∈ (pollStep client cardanoIdOf storage answers).epochs, ¬Stored storage epoch.epochNo →
    answers.committee epoch.epochNo ≠ .failed ∨ node epoch.epochNo = []

instance (storage : SpoStorage) (answers : Answers) :
    Decidable (CommitteeReceived client cardanoIdOf node storage answers) :=
  inferInstanceAs (Decidable (∀ epoch ∈ (pollStep client cardanoIdOf storage answers).epochs,
    ¬epoch.epochNo ∈ storage.epochs.map Epoch.epochNo → _))

theorem pollStep_held_iff (answered : Answered node answers) (fits : Fits storage)
    (held : Held node storage) : Held node (pollStep client cardanoIdOf storage answers) ↔
      CommitteeReceived client cardanoIdOf node storage answers := by
  unfold CommitteeReceived
  rcases pollStep_stored client cardanoIdOf answered fits with same | ⟨epoch, call⟩
  · rw [same]
    refine iff_of_true held ?_
    intro epoch member unstored
    exact absurd (mem_map_of_mem member) unstored
  · have stored := stored_append call.epochs
    have old : ∀ epochNo, Stored storage epochNo →
        HoldsCommittee node (pollStep client cardanoIdOf storage answers) epochNo := by
      intro epochNo isStored
      rw [HoldsCommittee, call.rowsOf_old isStored]
      exact held epochNo isStored
    constructor
    · intro after other member unstored
      have isNew : other.epochNo = epoch.epochNo :=
        ((stored _).mp (mem_map_of_mem member)).resolve_left unstored
      rw [isNew]
      exact (call.holdsCommittee_iff fits).mp (after _ ((stored _).mpr (.inr rfl)))
    · intro received epochNo isStored
      rcases (stored epochNo).mp isStored with before | rfl
      · exact old epochNo before
      · refine (call.holdsCommittee_iff fits).mpr (received epoch ?_ call.fresh)
        rw [call.epochs]
        simp

variable (client cardanoIdOf) in
theorem pollStep_rowsOf (answered : Answered node answers) (fits : Fits storage)
    (stored : Stored storage epochNo) :
    Stored (pollStep client cardanoIdOf storage answers) epochNo ∧
      rowsOf (pollStep client cardanoIdOf storage answers) epochNo = rowsOf storage epochNo := by
  rcases pollStep_stored client cardanoIdOf answered fits with
    same | ⟨epoch, call⟩
  · rw [same]
    exact ⟨stored, rfl⟩
  · exact ⟨(stored_append call.epochs epochNo).mpr (.inl stored), call.rowsOf_old stored⟩

end

/-! ## Whole runs -/

section

variable {client : SpoClient} {cardanoIdOf : Text → Option Text} {node : Node}

theorem fits_empty : Fits SpoStorage.empty :=
  ⟨fun _ member => absurd member not_mem_nil, fun _ member => absurd member not_mem_nil, nodup_nil⟩

theorem run_fits {storage : SpoStorage} (fits : Fits storage) (inputs : List Answers)
    (answered : ∀ answers ∈ inputs, Answered node answers) :
    Fits (run (pollStep client cardanoIdOf) storage inputs) :=
  run_keeps_on (fun _ answers member fits => pollStep_fits (answered answers member) fits) storage
    fits

variable (client cardanoIdOf) in
theorem run_rowsOf {storage : SpoStorage} (fits : Fits storage) (stored : Stored storage epochNo)
    (inputs : List Answers) (answered : ∀ answers ∈ inputs, Answered node answers) :
    rowsOf (run (pollStep client cardanoIdOf) storage inputs) epochNo = rowsOf storage epochNo := by
  suffices kept : Fits (run (pollStep client cardanoIdOf) storage inputs) ∧
      Stored (run (pollStep client cardanoIdOf) storage inputs) epochNo ∧
      rowsOf (run (pollStep client cardanoIdOf) storage inputs) epochNo = rowsOf storage epochNo from
    kept.2.2
  let unchanged : SpoStorage → Prop := fun current => Fits current ∧ Stored current epochNo ∧
    rowsOf current epochNo = rowsOf storage epochNo
  refine run_keeps_on (?_ : ∀ current, ∀ answers ∈ inputs, unchanged current →
    unchanged (pollStep client cardanoIdOf current answers)) storage ⟨fits, stored, rfl⟩
  intro current answers member ⟨fits, stored, same⟩
  have own := answered answers member
  obtain ⟨kept, unmoved⟩ := pollStep_rowsOf client cardanoIdOf own fits stored
  exact ⟨pollStep_fits own fits, kept, unmoved.trans same⟩

def after (client : SpoClient) (cardanoIdOf : Text → Option Text) (calls : List Answers) :
    SpoStorage :=
  run (pollStep client cardanoIdOf) SpoStorage.empty calls

theorem after_fits (client : SpoClient) (cardanoIdOf : Text → Option Text)
    {inputs taken : List Answers} (answered : ∀ answers ∈ inputs, Answered node answers)
    (part : taken <+: inputs) : Fits (after client cardanoIdOf taken) :=
  run_fits fits_empty taken fun answers member => answered answers (part.subset member)

theorem always_held_iff (client : SpoClient) (cardanoIdOf : Text → Option Text)
    {inputs : List Answers} (answered : ∀ answers ∈ inputs, Answered node answers) :
    (∀ taken, taken <+: inputs → Held node (after client cardanoIdOf taken)) ↔
      Guarded (pollStep client cardanoIdOf) (CommitteeReceived client cardanoIdOf node)
        SpoStorage.empty inputs := by
  rw [← run_always_iff (fun storage => Fits storage ∧ Held node storage)]
  · exact ⟨fun held taken part => ⟨after_fits client cardanoIdOf answered part, held taken part⟩,
      fun holds taken part => (holds taken part).2⟩
  · intro storage answers member ⟨fits, held⟩
    have own := answered answers member
    rw [← pollStep_held_iff own fits held]
    exact and_iff_right (pollStep_fits own fits)
  · exact ⟨fits_empty, fun epochNo stored => absurd stored not_mem_nil⟩

/-- At every moment of a run all stored epochs have the committee of the node exactly if no
call stores an epoch whose committee it failed to get; and exactly then every stored epoch
has it at this or a later moment. -/
theorem epochs_with_committees_iff (client : SpoClient) (cardanoIdOf : Text → Option Text)
    (node : Node) (inputs : List Answers) (answered : ∀ answers ∈ inputs, Answered node answers) :
    ((∀ taken, taken <+: inputs → Held node (after client cardanoIdOf taken)) ↔
        Guarded (pollStep client cardanoIdOf) (CommitteeReceived client cardanoIdOf node)
          SpoStorage.empty inputs) ∧
      ((∀ taken, taken <+: inputs → ∀ epochNo, Stored (after client cardanoIdOf taken) epochNo →
          ∃ later, taken <+: later ∧ later <+: inputs ∧
            HoldsCommittee node (after client cardanoIdOf later) epochNo) ↔
        Guarded (pollStep client cardanoIdOf) (CommitteeReceived client cardanoIdOf node)
          SpoStorage.empty inputs) := by
  have always := always_held_iff client cardanoIdOf answered
  refine ⟨always, Iff.trans ?_ always⟩
  constructor
  · intro eventually taken part epochNo stored
    obtain ⟨later, ⟨more, rfl⟩, within, holds⟩ := eventually taken part epochNo stored
    have unchanged := run_rowsOf client cardanoIdOf
      (after_fits client cardanoIdOf answered part) stored more
      fun answers member => answered answers (within.subset (List.mem_append_right taken member))
    rw [HoldsCommittee, ← unchanged, after, ← run_append]
    exact holds
  · intro held taken part epochNo stored
    exact ⟨taken, List.prefix_rfl, part, held taken part epochNo stored⟩

end

/-! ## A request that fails once -/

def pairNode : Node := fun _ => ["0xaa".toList, "0xbb".toList]

/-- A call at an epoch, with or without an answer to the request for the committee. -/
def callAt (epoch : UInt32) (fails : Bool) : Answers :=
  { atEpoch 12000 epoch with
    committee := fun epochNo =>
      if fails then .failed else .response ⟨epochNo.toUInt64, pairNode epochNo⟩ }

theorem callAt_answered (epoch : UInt32) (fails : Bool) :
    Answered pairNode (callAt epoch fails) := by
  intro epochNo
  cases fails with
  | false => exact .inr (.inr rfl)
  | true => exact .inl rfl

def noCardanoId (_ : Text) : Option Text := none

theorem epochs_with_committees_sample :
    (after slotClient noCardanoId [callAt 2 false, callAt 4 false]).epochs.map Epoch.epochNo =
        [2, 3] ∧
      Held pairNode (after slotClient noCardanoId [callAt 2 false, callAt 4 false]) := by
  refine ⟨by decide +kernel, ?_⟩
  refine (epochs_with_committees_iff slotClient noCardanoId pairNode
    [callAt 2 false, callAt 4 false] ?_).1.mpr (by decide +kernel) _ List.prefix_rfl
  intro answers member
  rcases List.mem_pair.mp member with rfl | rfl
  · exact callAt_answered 2 false
  · exact callAt_answered 4 false

/-- The request for epoch 2 fails and the one for epoch 3 does not: epoch 2 stays without
its committee. -/
theorem epoch_without_committee :
    (after slotClient noCardanoId [callAt 2 true, callAt 4 false]).epochs.map Epoch.epochNo =
        [2, 3] ∧
      rowsOf (after slotClient noCardanoId [callAt 2 true, callAt 4 false]) 2 = [] ∧
      ¬HoldsCommittee pairNode (after slotClient noCardanoId [callAt 2 true, callAt 4 false]) 2 ∧
      HoldsCommittee pairNode (after slotClient noCardanoId [callAt 2 true, callAt 4 false]) 3 := by
  have without : rowsOf (after slotClient noCardanoId [callAt 2 true, callAt 4 false]) 2 = [] := by
    decide +kernel
  refine ⟨by decide +kernel, without, ?_, ?_⟩
  · rw [HoldsCommittee, without]
    decide
  · unfold HoldsCommittee
    decide +kernel

end MidnightIndexer.Guarantees.Committees
