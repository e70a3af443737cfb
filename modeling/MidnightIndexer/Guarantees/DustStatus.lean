import MidnightIndexer.Source.DustStatus

/-!
# Two queries for the DUST of a reward address

What `dustGenerationStatus` reports compared with the newest registration that
`dustGenerations` lists, for every content of the tables. Rows of equal order may be found
differently by the two queries, so each reads the same rows in an order of its own.
-/

namespace MidnightIndexer.Guarantees.DustStatus

open Lib List Source.DustStatus Saturating
open Source.ChainIndexer (ByteVec RegistrationRow)

/-- The same rows, found in any order. -/
structure SameRows (db db' : DustTables) : Prop where
  blocks : db.blocks.Perm db'.blocks
  registrations : db.registrations.Perm db'.registrations
  generations : db.generations.Perm db'.generations

/-- One generation has the figures of all: the others hold no NIGHT, or it alone holds the
largest amount and has generated something unless no other has. -/
def Carries (now : Option UInt64) (row : GenerationInfo) (others : List GenerationInfo) : Prop :=
  (∀ other ∈ others, other.value = 0) ∨
    row.value = u128Max ∧ ∀ time, now = some time →
      elapsedSecondsSince time row.created ≠ 0 ∨
        ∀ other ∈ others, other.value ≠ 0 → elapsedSecondsSince time other.created = 0

/-- The newest registration is valid and its newest generation has the figures of all its
active generations, or it is not valid and these hold no NIGHT. -/
def NewestCarries (db : DustTables) (rewardAddress : ByteVec) : Prop :=
  ∀ registration, (Sql.orderByDesc RegistrationRow.registeredAt
      (openRegistrations db rewardAddress)).head? = some registration →
    if registration.valid then
      ∀ row, (Sql.orderByDesc GenerationInfo.ctime
          (activeGenerations db registration.dustAddress)).head? = some row →
        Carries (currentTime db) row ((activeGenerations db registration.dustAddress).erase row)
    else ∀ row ∈ activeGenerations db registration.dustAddress, row.value = 0

/-! ## The same rows in another order -/

variable {db db' : DustTables} {rows : List GenerationInfo}

theorem SameRows.currentTime (same : SameRows db db') : currentTime db = currentTime db' := by
  rw [Source.DustStatus.currentTime, Source.DustStatus.currentTime,
    Sql.orderByDesc_perm_eq same.blocks db.heights]

theorem SameRows.activeGenerations (same : SameRows db db') (owner : ByteVec) :
    (activeGenerations db owner).Perm (activeGenerations db' owner) :=
  same.generations.filter _

theorem SameRows.openRegistrations (same : SameRows db db') (rewardAddress : ByteVec) :
    (openRegistrations db rewardAddress).Perm (openRegistrations db' rewardAddress) :=
  same.registrations.filter _

theorem totalFigures_perm (parameters : DustParameters) (now : Option UInt64)
    {rows' : List GenerationInfo} (same : rows.Perm rows') :
    totalFigures parameters now rows = totalFigures parameters now rows' := by
  have sums : ∀ term : GenerationInfo → Nat, (rows.map term).sum = (rows'.map term).sum :=
    fun term => (same.map term).sum_eq
  rw [totalFigures_eq, totalFigures_eq]
  cases now with
  | none | some => simp only [sums]

/-! ## One generation against all -/

section

variable {parameters : DustParameters} (rate : 0 < parameters.generationDecayRate.toNat)
  (ratio : 0 < parameters.nightDustRatio.toNat)

include rate ratio in
/-- A generation has capacity at a time exactly if it holds NIGHT and a second has passed. -/
theorem capacityAt_eq_zero_iff (now : UInt64) (row : GenerationInfo) :
    capacityAt parameters now row = 0 ↔
      row.value = 0 ∨ elapsedSecondsSince now row.created = 0 := by
  have room : 0 < u128Max := by decide
  rw [capacityAt, Nat.min_eq_zero_iff]
  simp only [mul_eq_zero room]
  omega

variable {row : GenerationInfo} {others : List GenerationInfo}

include rate ratio in
/-- The largest amount generates the largest capacity as soon as a second has passed. -/
theorem capacityAt_max {now : UInt64} (full : row.value = u128Max)
    (passed : elapsedSecondsSince now row.created ≠ 0) :
    capacityAt parameters now row = u128Max := by
  rw [capacityAt, full, bound_mul rate, bound_mul ratio,
    bound_mul (Nat.pos_of_ne_zero passed), Nat.min_self]

theorem capacityAt_le (now : UInt64) (row : GenerationInfo) :
    capacityAt parameters now row ≤ u128Max :=
  (Nat.min_le_left _ _).trans (mul_le _ _ _)

theorem capacityAt_created (row : GenerationInfo) : capacityAt parameters row.created row = 0 := by
  have none_passed : elapsedSecondsSince row.created row.created = 0 := by
    simp [elapsedSecondsSince]
  rw [capacityAt, none_passed, mul_zero, Nat.zero_min]

/-- A figure of one generation is the total exactly if those of the others vanish or it is
the largest number. -/
theorem term_eq_total_iff {term : GenerationInfo → Nat} (small : term row ≤ u128Max) :
    term row = min ((row :: others).map term).sum u128Max ↔
      (∀ other ∈ others, term other = 0) ∨ term row = u128Max := by
  rw [map_cons, sum_cons, eq_comm, cut_eq_term_iff small, sum_eq_zero_iff]

include rate ratio in
/-- The current capacity, given that the generation has the NIGHT of all. -/
theorem capacity_eq_total_iff {now : UInt64} (full : row.value = u128Max) :
    capacityAt parameters now row =
        min ((row :: others).map (capacityAt parameters now)).sum u128Max ↔
      elapsedSecondsSince now row.created ≠ 0 ∨
        ∀ other ∈ others, other.value ≠ 0 → elapsedSecondsSince now other.created = 0 := by
  rw [term_eq_total_iff (capacityAt_le now row), or_comm]
  have others_iff : (∀ other ∈ others, capacityAt parameters now other = 0) ↔
      ∀ other ∈ others, other.value ≠ 0 → elapsedSecondsSince now other.created = 0 := by
    simp only [capacityAt_eq_zero_iff rate ratio, or_iff_not_imp_left, ne_eq]
  have row_iff : capacityAt parameters now row = u128Max ↔
      elapsedSecondsSince now row.created ≠ 0 := by
    constructor
    · intro largest zero
      have vanishes := (capacityAt_eq_zero_iff rate ratio now row).mpr (.inr zero)
      rw [largest] at vanishes
      exact absurd vanishes (by decide)
    · exact capacityAt_max rate ratio full
  rw [others_iff, row_iff]

include rate ratio in
theorem generationFigures_eq_total_iff (now : Option UInt64) (member : row ∈ rows) :
    generationFigures parameters now row = totalFigures parameters now rows ↔
      Carries now row (rows.erase row) := by
  rw [totalFigures_perm parameters now (perm_cons_erase member), totalFigures_eq]
  generalize rows.erase row = others
  constructor
  · intro same
    have balance := (term_eq_total_iff row.word).mp (congrArg Figures.nightBalance same)
    rcases balance with empty | full
    · exact .inl empty
    · refine .inr ⟨full, ?_⟩
      rintro time rfl
      exact (capacity_eq_total_iff rate ratio full).mp (congrArg Figures.currentCapacity same)
  · intro carries
    have scaled : ∀ factor, 0 < factor → (∀ other ∈ others, mul u128Max other.value factor = 0) ∨
          mul u128Max row.value factor = u128Max := by
      intro factor positive
      rcases carries with empty | ⟨full, _⟩
      · left
        intro other member
        rw [empty other member, zero_mul]
      · right
        rw [full, bound_mul positive]
    have capacity : ∀ time, now = some time → capacityAt parameters time row =
        min ((row :: others).map (capacityAt parameters time)).sum u128Max := by
      intro time current
      rcases carries with empty | ⟨full, passed⟩
      · refine (term_eq_total_iff (capacityAt_le time row)).mpr (.inl fun other member => ?_)
        exact (capacityAt_eq_zero_iff rate ratio time other).mpr (.inl (empty other member))
      · exact (capacity_eq_total_iff rate ratio full).mpr (passed time current)
    ext
    · exact (term_eq_total_iff row.word).mpr (carries.imp_right And.left)
    · exact (term_eq_total_iff (mul_le _ _ _)).mpr (scaled _ rate)
    · exact (term_eq_total_iff (mul_le _ _ _)).mpr (scaled _ ratio)
    · cases now with
      | none => exact capacityAt_created row
      | some time => exact capacity time rfl

theorem zero_eq_total_iff (now : Option UInt64) (rows : List GenerationInfo) :
    Figures.zero = totalFigures parameters now rows ↔ ∀ row ∈ rows, row.value = 0 := by
  rw [totalFigures_eq]
  constructor
  · intro same
    have balance : 0 = min (rows.map GenerationInfo.value).sum u128Max :=
      congrArg Figures.nightBalance same
    have room : 0 < u128Max := by decide
    exact (sum_eq_zero_iff _ _).mp (by omega)
  · intro empty
    have vanish : ∀ term : GenerationInfo → Nat, (∀ row, row.value = 0 → term row = 0) →
        0 = min (rows.map term).sum u128Max := by
      intro term without
      rw [(sum_eq_zero_iff term rows).mpr fun row member =>
        without row (empty row member), Nat.zero_min]
    ext
    · exact vanish _ fun _ none_held => none_held
    · exact vanish _ fun row none_held => by rw [none_held, zero_mul]
    · exact vanish _ fun row none_held => by rw [none_held, zero_mul]
    · cases now with
      | none => rfl
      | some time =>
        refine vanish _ fun row none_held => ?_
        rw [capacityAt, none_held, zero_mul, zero_mul, Nat.zero_min]

end

/-! ## The two queries -/

/-- The newest registration of the one query against the totals of the other. -/
theorem statusOf_eq_total_iff {parameters : DustParameters}
    (rate : 0 < parameters.generationDecayRate.toNat)
    (ratio : 0 < parameters.nightDustRatio.toNat) {rewardAddress : ByteVec}
    {newest : RegistrationRow} (found : (Sql.orderByDesc RegistrationRow.registeredAt
      (openRegistrations db rewardAddress)).head? = some newest) :
    (statusOf parameters db rewardAddress).toFigures =
        totalFigures parameters (currentTime db) (activeGenerations db newest.dustAddress) ↔
      NewestCarries db rewardAddress := by
  have condition : NewestCarries db rewardAddress ↔
      if newest.valid then
        ∀ row, (Sql.orderByDesc GenerationInfo.ctime
            (activeGenerations db newest.dustAddress)).head? = some row →
          Carries (currentTime db) row ((activeGenerations db newest.dustAddress).erase row)
      else ∀ row ∈ activeGenerations db newest.dustAddress, row.value = 0 := by
    simp only [NewestCarries, found, Option.some.injEq, forall_eq']
  rw [condition]
  cases valid : newest.valid with
  | false =>
    have figures : (statusOf parameters db rewardAddress).toFigures = Figures.zero := by
      simp [statusOf, found, valid]
    rw [figures]
    exact zero_eq_total_iff _ _
  | true =>
    rcases listed : (Sql.orderByDesc GenerationInfo.ctime
        (activeGenerations db newest.dustAddress)).head? with _ | row
    · have figures : (statusOf parameters db rewardAddress).toFigures = Figures.zero := by
        simp [statusOf, found, listed]
      have empty : activeGenerations db newest.dustAddress = [] := by
        rw [head?_eq_none_iff] at listed
        exact eq_nil_of_length_eq_zero
          ((Sql.orderBy_perm _ _).length_eq.symm.trans (congrArg length listed))
      rw [figures, empty]
      simp [totalFigures]
    · have figures : (statusOf parameters db rewardAddress).toFigures =
          generationFigures parameters (currentTime db) row := by
        simp [statusOf, found, valid, listed]
      have member := (Sql.orderByDesc_first listed).1
      rw [figures]
      simp only [if_true, Option.some.injEq, forall_eq']
      exact generationFigures_eq_total_iff rate ratio (currentTime db) member

/-- For a reward address with a valid registration, the status has the figures of the newest
registration that the other query lists exactly when the newest generation of that
registration has those of all its active generations. -/
theorem status_figures_iff (parameters : DustParameters)
    (rate : 0 < parameters.generationDecayRate.toNat)
    (ratio : 0 < parameters.nightDustRatio.toNat) (db db' : DustTables) (same : SameRows db db')
    (rewardAddresses : List ByteVec) (position : Nat) (rewardAddress : ByteVec)
    (here : rewardAddresses[position]? = some rewardAddress)
    (distinct : ((openRegistrations db rewardAddress).map RegistrationRow.registeredAt).Nodup)
    (registered : ∃ row ∈ openRegistrations db rewardAddress, row.valid = true) :
    ∃ status listed newest,
      (getDustGenerationStatus parameters db rewardAddresses)[position]? = some status ∧
      (getDustGenerations parameters db' rewardAddresses)[position]? = some listed ∧
      listed.registrations.head? = some newest ∧
      (status.toFigures = newest.toFigures ↔ NewestCarries db rewardAddress) := by
  rcases found : (Sql.orderByDesc RegistrationRow.registeredAt
      (openRegistrations db rewardAddress)).head? with _ | newest
  · obtain ⟨row, member, _⟩ := registered
    rw [List.head?_eq_none_iff] at found
    exact absurd (Sql.mem_orderByDesc.mpr member) (found ▸ List.not_mem_nil)
  · refine ⟨statusOf parameters db rewardAddress, generationsOf parameters db' rewardAddress,
      registrationData parameters db' newest, ?_, ?_, ?_, ?_⟩
    · rw [getDustGenerationStatus, List.getElem?_map, here]
      rfl
    · rw [getDustGenerations, List.getElem?_map, here]
      rfl
    · have ordered := Sql.orderByDesc_perm_eq (same.openRegistrations rewardAddress) distinct
      rw [generationsOf, ← ordered, List.head?_map, found]
      rfl
    · have totals : (registrationData parameters db' newest).toFigures =
          totalFigures parameters (currentTime db)
            (activeGenerations db newest.dustAddress) := by
        rw [same.currentTime, totalFigures_perm parameters _
          (same.activeGenerations newest.dustAddress)]
        rfl
      rw [totals]
      exact statusOf_eq_total_iff rate ratio found

/-! ## One and two generations -/

def sampleParameters : DustParameters := ⟨5000000000, 8267⟩

def sampleRegistration (dustAddress : ByteVec) (valid : Bool) (registeredAt : Int) :
    RegistrationRow where
  id := 1
  cardanoStakeKey := [1]
  dustAddress := dustAddress
  valid := valid
  registeredAt := registeredAt
  removedAt := none
  blockId := 1
  utxoTxHash := none
  utxoOutputIndex := none

/-- The latest block is at ten seconds. -/
def sampleTables (registrations : List RegistrationRow) (generations : List GenerationInfo) :
    DustTables where
  blocks := [⟨7, 10000⟩, ⟨6, 4000⟩]
  registrations := registrations
  generations := generations
  heights := by decide

def firstGeneration : GenerationInfo := ⟨[2], 3, 4, none, by decide⟩

def secondGeneration : GenerationInfo := ⟨[2], 4, 6, none, by decide⟩

def oneGeneration : DustTables := sampleTables [sampleRegistration [2] true 5] [firstGeneration]

theorem status_figures_one_generation :
    ∃ status listed newest,
      (getDustGenerationStatus sampleParameters oneGeneration [[1]])[0]? = some status ∧
      (getDustGenerations sampleParameters oneGeneration [[1]])[0]? = some listed ∧
      listed.registrations.head? = some newest ∧ status.toFigures = newest.toFigures := by
  obtain ⟨status, listed, newest, first, second, head, agree⟩ :=
    status_figures_iff sampleParameters (by decide) (by decide) oneGeneration oneGeneration
      ⟨.refl _, .refl _, .refl _⟩ [[1]] 0 [1] rfl (by decide) ⟨_, List.mem_cons_self, rfl⟩
  refine ⟨status, listed, newest, first, second, head, agree.mpr ?_⟩
  intro registration found
  cases found
  intro row found
  cases found
  exact .inl nofun

def twoGenerations : DustTables :=
  sampleTables [sampleRegistration [2] true 5] [firstGeneration, secondGeneration]

/-- With two active generations the status reports the newer one, the other query their sum. -/
theorem status_drops_older_generation :
    (∃ row ∈ openRegistrations twoGenerations [1], row.valid = true) ∧
    (statusOf sampleParameters twoGenerations [1]).toFigures =
      ⟨4, 33068, 20000000000, 132272⟩ ∧
    (generationsOf sampleParameters twoGenerations [1]).registrations.map
      DustRegistration.toFigures = [⟨7, 57869, 35000000000, 281078⟩] := by
  refine ⟨⟨_, List.mem_cons_self, rfl⟩, ?_, ?_⟩
  · decide
  · decide

end MidnightIndexer.Guarantees.DustStatus
