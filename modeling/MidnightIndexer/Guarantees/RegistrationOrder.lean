import MidnightIndexer.Guarantees.EpochRange
import MidnightIndexer.Guarantees.RegistrationWrites

/-!
# Registrations in any order and number

The registrations of an epoch come from a map, in no particular order. If no two different
ones share a key, the identities, the history and the texts of the pools do not depend on
their order or repetition. The number of a key's registrations is what is stored as its
produced blocks, and a second registration of a new pool sets the time of its update.
-/

namespace MidnightIndexer.Guarantees.RegistrationOrder

open Lib List Source.SpoIndexer

/-! ## The registrations as entries -/

def SharesKey (a b : CandidateRegistration) : Prop :=
  removeHexPrefix a.sidechainPubKey = removeHexPrefix b.sidechainPubKey ∨
    removeHexPrefix a.mainchainPubKey = removeHexPrefix b.mainchainPubKey ∨
    removeHexPrefix a.aura = removeHexPrefix b.aura

/-- The same registrations, in any order and number, without two that have a key in common. -/
structure SameSet (registrations registrations' : List CandidateRegistration) : Prop where
  members : ∀ r, r ∈ registrations ↔ r ∈ registrations'
  distinct : ∀ a ∈ registrations, ∀ b ∈ registrations, SharesKey a b → a = b

variable {registrations registrations' : List CandidateRegistration} {entries : List Entry}
  {epoch : Epoch} {committee : List Validator} {after : SpoStorage}

theorem SameSet.symm (same : SameSet registrations registrations') :
    SameSet registrations' registrations where
  members := fun r => (same.members r).symm
  distinct := fun a first b second =>
    same.distinct a ((same.members a).mpr first) b ((same.members b).mpr second)

variable {cardanoIdOf : Text → Option Text}

theorem entriesOf_success (made : entriesOf cardanoIdOf registrations = .ok entries) :
    Forall₂ (fun registration entry => entry.2 = registration ∧
      cardanoIdOf (removeHexPrefix registration.mainchainPubKey) = some entry.1)
      registrations entries := by
  refine (mapM_success made).imp fun registration entry round => ?_
  obtain ⟨cardanoId, found, round⟩ := bind_success round
  cases round
  exact ⟨rfl, okOr_success found⟩

theorem mem_entriesOf (made : entriesOf cardanoIdOf registrations = .ok entries) {entry : Entry} :
    entry ∈ entries ↔ entry.2 ∈ registrations ∧
      cardanoIdOf (removeHexPrefix entry.2.mainchainPubKey) = some entry.1 := by
  have related := entriesOf_success made
  constructor
  · intro member
    obtain ⟨registration, listed, rfl, identified⟩ := forall₂_right related member
    exact ⟨listed, identified⟩
  · rintro ⟨listed, identified⟩
    obtain ⟨other, member, same, found⟩ := forall₂_left related listed
    have ids : other.1 = entry.1 := Option.some.inj (found.symm.trans identified)
    rwa [← show other = entry from Prod.ext ids same]

theorem entriesOf_same (same : ∀ r, r ∈ registrations ↔ r ∈ registrations')
    (made : entriesOf cardanoIdOf registrations = .ok entries) :
    ∃ entries', entriesOf cardanoIdOf registrations' = .ok entries' ∧
      ∀ entry, entry ∈ entries ↔ entry ∈ entries' := by
  have each : ∀ r ∈ registrations', ∃ entry : Entry, (do
        let cardanoId ← okOr (cardanoIdOf (removeHexPrefix r.mainchainPubKey)) SpoError.panic
        return (cardanoId, r)) = .ok entry := by
    intro r listed
    obtain ⟨entry, _, _, identified⟩ :=
      forall₂_left (entriesOf_success made) ((same r).mpr listed)
    rw [identified]
    exact ⟨(entry.1, r), rfl⟩
  obtain ⟨entries', made'⟩ := mapM_total each
  refine ⟨entries', made', fun entry => ?_⟩
  rw [mem_entriesOf made, mem_entriesOf made', same]

theorem entries_distinct (made : entriesOf cardanoIdOf registrations = .ok entries)
    (distinct : ∀ a ∈ registrations, ∀ b ∈ registrations, SharesKey a b → a = b) :
    ∀ a ∈ entries, ∀ b ∈ entries, Shares (identityOf a) (identityOf b) → a = b := by
  intro a first b second shares
  obtain ⟨listed, identified⟩ := (mem_entriesOf made).mp first
  obtain ⟨listed', identified'⟩ := (mem_entriesOf made).mp second
  have key : SharesKey a.2 b.2 := by
    rcases shares with spoSk | mainchain | aura | sidechain
    · exact .inl spoSk
    · exact .inr (.inl mainchain)
    · exact .inr (.inr aura)
    · exact .inl sidechain
  have same := distinct a.2 listed b.2 listed' key
  rw [same] at identified
  exact Prod.ext (Option.some.inj (identified.symm.trans identified')) same

/-- How often a key is registered, as a `u32`. -/
def timesRegistered (registrations : List CandidateRegistration) (spoSk : Text) : UInt32 :=
  UInt32.ofNat (registrations.countP fun r => removeHexPrefix r.sidechainPubKey = spoSk)

def poolRegistrations (cardanoIdOf : Text → Option Text)
    (registrations : List CandidateRegistration) (poolId : Text) : Nat :=
  registrations.countP fun r => cardanoIdOf (removeHexPrefix r.mainchainPubKey) = some poolId

theorem entries_countP (made : entriesOf cardanoIdOf registrations = .ok entries) (spoSk : Text) :
    UInt32.ofNat (entries.countP fun entry => entry.spoSk = spoSk) =
      timesRegistered registrations spoSk := by
  have listed : entries.map Prod.snd = registrations := by
    rw [← map_id registrations]
    refine mapM_map made fun registration entry round => ?_
    obtain ⟨_, _, round⟩ := bind_success round
    cases round
    rfl
  rw [timesRegistered, ← listed, countP_map]
  rfl

theorem entries_count (made : entriesOf cardanoIdOf registrations = .ok entries) (poolId : Text) :
    (entries.map Prod.fst).reverse.count poolId =
      poolRegistrations cardanoIdOf registrations poolId := by
  have related := entriesOf_success made
  clear made
  rw [count_reverse, poolRegistrations]
  induction related with
  | nil => rfl
  | cons first _ ih =>
    rw [map_cons, count_cons, countP_cons, ih, first.2]
    simp

/-! ## The performances -/

/-- Lists with the same members, all of them equal, end alike. -/
theorem getLast?_of_equal {α : Type} {xs ys : List α} (same : ∀ x, x ∈ xs ↔ x ∈ ys)
    (equal : ∀ x ∈ xs, ∀ y ∈ xs, x = y) : xs.getLast? = ys.getLast? := by
  cases last : ys.getLast? with
  | none =>
    rw [getLast?_eq_none_iff] at last ⊢
    refine eq_nil_iff_forall_not_mem.mpr fun x member => ?_
    exact not_mem_nil (last ▸ (same x).mp member)
  | some y =>
    have listed := (same y).mpr (mem_of_getLast? last)
    cases other : xs.getLast? with
    | none =>
      simp [getLast?_eq_none_iff.mp other] at listed
    | some x => rw [equal x (mem_of_getLast? other) y listed]

section

variable {entries entries' : List Entry}
  (same : ∀ entry, entry ∈ entries ↔ entry ∈ entries')
  (distinct : ∀ a ∈ entries, ∀ b ∈ entries, Shares (identityOf a) (identityOf b) → a = b)

include distinct in
include same in
theorem valToRegistration_same (spoSk : Text) :
    valToRegistration entries spoSk = valToRegistration entries' spoSk := by
  unfold valToRegistration
  refine congrArg (Option.map Prod.snd) (getLast?_of_equal ?_ ?_)
  · intro entry
    rw [mem_filter, mem_filter, same]
  · intro a first b second
    obtain ⟨listed, key⟩ := mem_filter.mp first
    obtain ⟨listed', key'⟩ := mem_filter.mp second
    exact distinct a listed b listed'
      (.inl ((of_decide_eq_true key).trans (of_decide_eq_true key').symm))

include distinct in
include same in
/-- The performances of a position are equal if its key is registered equally often. -/
theorem performanceOf_same
    (counts : ∀ spoSk, UInt32.ofNat (entries.countP fun entry => entry.spoSk = spoSk) =
      UInt32.ofNat (entries'.countP fun entry => entry.spoSk = spoSk)) (epoch : Epoch)
    (expectedBlocks blocksRemainder : UInt32) (member : Validator × Nat) :
    performanceOf cardanoIdOf epoch entries expectedBlocks blocksRemainder member =
      performanceOf cardanoIdOf epoch entries' expectedBlocks blocksRemainder member := by
  have missing : ∀ spoSk, entries.countP (fun entry => entry.spoSk = spoSk) = 0 ↔
      entries'.countP (fun entry => entry.spoSk = spoSk) = 0 := by
    intro spoSk
    simp only [countP_eq_zero, same]
  unfold performanceOf blocksProduced
  dsimp only
  rw [valToRegistration_same same distinct]
  by_cases none_registered :
      entries.countP (fun entry => entry.spoSk = removeHexPrefix member.1.sidechainPubkey) = 0
  · rw [if_pos none_registered, if_pos ((missing _).mp none_registered)]
  · rw [if_neg none_registered, if_neg (mt (missing _).mpr none_registered)]
    dsimp only
    rw [counts]

theorem performanceOf_total (identified : ∀ entry ∈ entries,
      cardanoIdOf (removeHexPrefix entry.2.mainchainPubKey) = some entry.1)
    (epoch : Epoch) (expectedBlocks blocksRemainder : UInt32) (member : Validator × Nat) :
    ∃ performance, performanceOf cardanoIdOf epoch entries expectedBlocks blocksRemainder member =
      .ok performance := by
  unfold performanceOf blocksProduced
  dsimp only
  split
  · exact ⟨none, rfl⟩
  next count produced =>
    have registered : (entries.filter fun entry =>
        entry.spoSk = removeHexPrefix member.1.sidechainPubkey) ≠ [] := by
      intro empty
      rw [if_pos (by rw [countP_eq_length_filter, empty]; rfl)] at produced
      cases produced
    have last := getLast?_eq_some_getLast registered
    have listed := mem_of_mem_filter (mem_of_getLast? last)
    rw [valToRegistration, last]
    dsimp only [Option.map, okOr]
    refine bind_total rfl ?_
    rw [identified _ listed]
    exact bind_total rfl ⟨_, rfl⟩

theorem savePerformances_total {client : SpoClient} {storage : SpoStorage}
    (success : savePerformances client cardanoIdOf epoch entries committee storage = .ok after)
    (identified : ∀ entry ∈ entries',
      cardanoIdOf (removeHexPrefix entry.2.mainchainPubKey) = some entry.1)
    (storage' : SpoStorage) : ∃ after',
      savePerformances client cardanoIdOf epoch entries' committee storage' = .ok after' := by
  unfold savePerformances at success ⊢
  split at success
  next empty => exact ⟨storage', if_pos empty⟩
  next nonempty =>
    obtain ⟨size, sized, _⟩ := bind_success success
    rw [if_neg nonempty]
    refine bind_total sized (foldlM_total (fun current member => ?_) _ storage')
    obtain ⟨performance, computed⟩ := performanceOf_total identified epoch
      (getExpectedBlocks client epoch size) (client.epochDuration % size) member
    exact bind_total computed ⟨_, rfl⟩

end

/-! ## The call -/

structure SameRows (cardanoIdOf : Text → Option Text) (storage : SpoStorage)
    (registrations registrations' : List CandidateRegistration) (first second : SpoStorage) :
    Prop where
  identities : first.identities.Perm second.identities
  history : first.history.Perm second.history
  texts : (first.poolMetadata.map PoolMetadataRow.toPoolMetadata).Perm
    (second.poolMetadata.map PoolMetadataRow.toPoolMetadata)
  /-- If each key is registered equally often. -/
  performance : (∀ spoSk, timesRegistered registrations spoSk =
    timesRegistered registrations' spoSk) → first.performance = second.performance
  /-- If each pool that was not stored is registered once in both or in neither. -/
  times : (∀ poolId, (∀ row ∈ storage.poolMetadata, row.poolId ≠ poolId) →
      (poolRegistrations cardanoIdOf registrations poolId = 1 ↔
        poolRegistrations cardanoIdOf registrations' poolId = 1)) →
    first.poolMetadata.Perm second.poolMetadata

theorem SameRows.refl (cardanoIdOf : Text → Option Text) (storage : SpoStorage)
    (registrations registrations' : List CandidateRegistration) :
    SameRows cardanoIdOf storage registrations registrations' storage storage where
  identities := Perm.refl _
  history := Perm.refl _
  texts := Perm.refl _
  performance := fun _ => rfl
  times := fun _ => Perm.refl _

section

variable {client : SpoClient} {storage : SpoStorage} {answers : Answers}
  {registrations registrations' : List CandidateRegistration} {entries' : List Entry}
  (own : ∀ id metadata, answers.poolMetadata id = some metadata → metadata.poolId = id)
  (same : SameSet registrations registrations')
  (made : entriesOf cardanoIdOf registrations = .ok entries)
  (made' : entriesOf cardanoIdOf registrations' = .ok entries')

include own same made made' in
theorem saveEntries_same {epochNo : UInt32}
    (success : entries.foldlM (saveEntry answers epochNo) storage = .ok after) :
    ∃ after', entries'.foldlM (saveEntry answers epochNo) storage = .ok after' ∧
      SameRows cardanoIdOf storage registrations registrations' after after' := by
  have members : ∀ entry, entry ∈ entries ↔ entry ∈ entries' := by
    intro entry
    rw [mem_entriesOf made, mem_entriesOf made', same.members]
  have ids : ∀ id, id ∈ (entries.map Prod.fst).reverse ↔ id ∈ (entries'.map Prod.fst).reverse := by
    intro id
    simp only [mem_reverse, mem_map, members]
  rw [saveEntries_eq] at success
  obtain ⟨pools, saved, rfl⟩ := map_success success
  have start : storage.poolMetadata.Perm (poolsAfter answers storage.poolMetadata []) := by
    rw [poolsAfter_nil]
  have loop := fun ids => savePools_cases own ids [] start fun id new =>
    absurd (mem_newIds.mp new).1 not_mem_nil
  simp only [append_nil] at loop
  rcases loop (entries.map Prod.fst) with ⟨last, success, closed, fits⟩ | ⟨e, failed, _⟩
  case inr => cases failed.symm.trans saved
  cases success.symm.trans saved
  rcases loop (entries'.map Prod.fst) with ⟨pools', saved', closed', _⟩ | ⟨e, _, unfit⟩
  case inr => exact absurd (fits.of_subset fun id member => (ids id).mpr member) unfit
  have tables := (writeEntry_laws (Sql.asI64 epochNo.toUInt64.toNat)
    (entries_distinct made same.distinct)).foldl_same_members (fun _ member => member) members
      (storage.identities, storage.history)
  refine ⟨withTables storage (entries'.foldl _ _) pools', by rw [saveEntries_eq, saved']; rfl, ?_⟩
  exact {
    identities := tables.1
    history := tables.2
    texts := (closed.map _).trans ((poolsAfter_texts ids _).trans (closed'.map _).symm)
    performance := fun _ => rfl
    times := fun once => by
      refine closed.trans ((poolsAfter_times ids fun id new => ?_).trans closed'.symm)
      rw [entries_count made, entries_count made']
      exact once id (mem_newIds.mp new).2 }

theorem savePerformances_same (same : SameSet registrations registrations')
    (made : entriesOf cardanoIdOf registrations = .ok entries)
    (made' : entriesOf cardanoIdOf registrations' = .ok entries') {first second : SpoStorage}
    (alike : SameRows cardanoIdOf storage registrations registrations' first second)
    (unwritten : first.performance = second.performance)
    (success : savePerformances client cardanoIdOf epoch entries committee first = .ok after) :
    ∃ after', savePerformances client cardanoIdOf epoch entries' committee second = .ok after' ∧
      SameRows cardanoIdOf storage registrations registrations' after after' := by
  have members : ∀ entry, entry ∈ entries ↔ entry ∈ entries' := by
    intro entry
    rw [mem_entriesOf made, mem_entriesOf made', same.members]
  have identified : ∀ entry ∈ entries',
      cardanoIdOf (removeHexPrefix entry.2.mainchainPubKey) = some entry.1 :=
    fun entry member => ((mem_entriesOf made').mp member).2
  obtain ⟨after', success'⟩ := savePerformances_total success identified second
  refine ⟨after', success', ?_⟩
  have known : first.hasIdentity = second.hasIdentity := by
    funext spoSk
    exact alike.identities.any_eq
  rw [savePerformances_success success, savePerformances_success success']
  refine ⟨alike.identities, alike.history, alike.texts, fun counts => ?_, alike.times⟩
  have equal : ∀ expectedBlocks blocksRemainder,
      performanceRowOf cardanoIdOf first epoch entries expectedBlocks blocksRemainder =
        performanceRowOf cardanoIdOf second epoch entries' expectedBlocks blocksRemainder := by
    intro expectedBlocks blocksRemainder
    funext member
    unfold performanceRowOf
    rw [performanceOf_same members (entries_distinct made same.distinct), known]
    intro spoSk
    rw [entries_countP made, entries_countP made', counts]
  rw [unwritten, equal]

include own same made made' in
theorem saveProcessed_same {membership : List ValidatorMembership}
    (success : saveProcessed client cardanoIdOf answers epoch committee membership entries
      storage = .ok after) :
    ∃ after', saveProcessed client cardanoIdOf answers epoch committee membership entries'
        storage = .ok after' ∧
      SameRows cardanoIdOf storage registrations registrations' after after' := by
  unfold saveProcessed at success ⊢
  obtain ⟨withEpoch, saveEpoch, success⟩ := bind_success success
  obtain ⟨withEntries, saveEntries, success⟩ := bind_success success
  obtain ⟨complete, savePerformances, success⟩ := bind_success success
  obtain ⟨withEntries', saveEntries', alike⟩ := saveEntries_same own same made made' saveEntries
  have unwritten : withEntries.performance = withEntries'.performance :=
    (saveEntries_frame saveEntries).2.2.trans (saveEntries_frame saveEntries').2.2.symm
  obtain ⟨complete', savePerformances', alike⟩ :=
    savePerformances_same same made made' alike unwritten savePerformances
  split at success
  next up =>
    cases success
    refine ⟨complete', ?_, ?_⟩
    · exact bind_ok saveEpoch (bind_ok saveEntries' (bind_ok savePerformances' (if_pos up)))
    · obtain ⟨_, rfl⟩ := saveEpoch_success saveEpoch
      exact ⟨alike.identities, alike.history, alike.texts, alike.performance, alike.times⟩
  · cases success

/-- A call that succeeds for one response does so for the other. -/
theorem processNextEpoch_same
    (own : ∀ id metadata, answers.poolMetadata id = some metadata → metadata.poolId = id)
    {response response' : List (Text × List CandidateRegistration)}
    (same : SameSet (getSpoRegistrations response) (getSpoRegistrations response'))
    (success : processNextEpoch client cardanoIdOf storage
      { answers with registrations := fun _ => some response } = .ok after) :
    ∃ after', processNextEpoch client cardanoIdOf storage
        { answers with registrations := fun _ => some response' } = .ok after' ∧
      SameRows cardanoIdOf storage (getSpoRegistrations response) (getSpoRegistrations response')
        after after' := by
  unfold processNextEpoch at success ⊢
  obtain ⟨found, search, success⟩ := bind_success success
  have search' : getEpochToProcess client storage
    { answers with registrations := fun _ => some response' } = .ok found := search
  cases found with
  | none =>
    cases success
    exact ⟨after, bind_ok search' rfl, SameRows.refl _ _ _ _⟩
  | some epoch =>
    obtain ⟨committee, fetched, _, responded, success⟩ := bind₂_success success
    cases responded
    obtain ⟨membership, listed, entries, made, success⟩ := bind₂_success success
    obtain ⟨entries', made', _⟩ := entriesOf_same same.members made
    obtain ⟨after', saved', alike⟩ := saveProcessed_same own same made made' success
    refine ⟨after', ?_, alike⟩
    exact bind_ok search' (bind_ok fetched (bind_ok rfl (bind_ok listed (bind_ok made' saved'))))

end

/-- For every state and every two responses with the same registrations, no two different ones
of which share a key: a call leaves the same identities, history and texts of pools, and the
same performances and times where registrations are repeated alike. -/
theorem registrations_unordered (client : SpoClient) (cardanoIdOf : Text → Option Text)
    (storage : SpoStorage) (answers : Answers)
    (own : ∀ id metadata, answers.poolMetadata id = some metadata → metadata.poolId = id)
    (response response' : List (Text × List CandidateRegistration))
    (same : SameSet (getSpoRegistrations response) (getSpoRegistrations response')) :
    SameRows cardanoIdOf storage (getSpoRegistrations response) (getSpoRegistrations response')
      (pollStep client cardanoIdOf storage
        { answers with registrations := fun _ => some response })
      (pollStep client cardanoIdOf storage
        { answers with registrations := fun _ => some response' }) := by
  unfold pollStep
  cases first : processNextEpoch client cardanoIdOf storage
      { answers with registrations := fun _ => some response } with
  | ok after =>
    obtain ⟨after', second, alike⟩ := processNextEpoch_same own same first
    rw [second]
    exact alike
  | error e =>
    cases second : processNextEpoch client cardanoIdOf storage
        { answers with registrations := fun _ => some response' } with
    | ok after' =>
      -- The first call would have succeeded as well.
      obtain ⟨after, success, _⟩ := processNextEpoch_same own same.symm second
      simp [first] at success
    | error e' => exact SameRows.refl _ _ _ _

/-! ## Two registrations -/

def registrationOf (sidechain mainchain aura : String) : CandidateRegistration :=
  ⟨sidechain.toList, mainchain.toList, aura.toList, true⟩

def oneValidator : Answers :=
  { EpochRange.atEpoch 12000 4 with
    committee := fun epochNo => .response ⟨epochNo.toUInt64, ["a1".toList]⟩ }

def processed (response : List (Text × List CandidateRegistration)) : SpoStorage :=
  pollStep EpochTimes.slotClient some SpoStorage.empty
    { oneValidator with registrations := fun _ => some response }

instance (a b : CandidateRegistration) : Decidable (SharesKey a b) := by
  unfold SharesKey
  infer_instance

def firstCandidate : CandidateRegistration := registrationOf "a1" "b1" "c1"

def secondCandidate : CandidateRegistration := registrationOf "a2" "b2" "c2"

theorem registrations_unordered_pair :
    (processed [("a1".toList, [firstCandidate]), ("a2".toList, [secondCandidate])]).identities.length
        = 2 ∧
      SameRows some SpoStorage.empty [firstCandidate, secondCandidate]
        [secondCandidate, firstCandidate, firstCandidate]
        (processed [("a1".toList, [firstCandidate]), ("a2".toList, [secondCandidate])])
        (processed [("a2".toList, [secondCandidate]),
          ("a1".toList, [firstCandidate, firstCandidate])]) := by
  have same : SameSet [firstCandidate, secondCandidate]
      [secondCandidate, firstCandidate, firstCandidate] := by
    refine ⟨fun r => ?_, by decide⟩
    simp only [List.mem_cons, List.not_mem_nil, or_false, or_self]
    exact or_comm
  refine ⟨by decide +kernel, ?_⟩
  exact registrations_unordered EpochTimes.slotClient some SpoStorage.empty oneValidator
    (fun _ _ none_found => nomatch none_found)
    [("a1".toList, [firstCandidate]), ("a2".toList, [secondCandidate])]
    [("a2".toList, [secondCandidate]), ("a1".toList, [firstCandidate, firstCandidate])] same

/-- A registration that is listed twice counts as two blocks and sets the time of the pool, and
of two registrations with one aura key the first has the identity. -/
theorem repeated_registration_counts :
    (processed [("a1".toList, [firstCandidate])]).performance.map (fun row => row.producedBlocks) =
        [1] ∧
      (processed [("a1".toList, [firstCandidate, firstCandidate])]).performance.map
        (fun row => row.producedBlocks) = [2] ∧
      (processed [("a1".toList, [firstCandidate])]).poolMetadata.map (fun row => row.updatedAt) =
        [none] ∧
      (processed [("a1".toList, [firstCandidate, firstCandidate])]).poolMetadata.map
        (fun row => row.updatedAt) = [some 0] ∧
      (processed [("a1".toList, [firstCandidate]),
        ("a2".toList, [registrationOf "a2" "b2" "c1"])]).identities.map (fun si => si.spoSk) =
        ["a1".toList] ∧
      (processed [("a2".toList, [registrationOf "a2" "b2" "c1"]),
        ("a1".toList, [firstCandidate])]).identities.map (fun si => si.spoSk) =
        ["a2".toList] := by
  decide +kernel

end MidnightIndexer.Guarantees.RegistrationOrder
