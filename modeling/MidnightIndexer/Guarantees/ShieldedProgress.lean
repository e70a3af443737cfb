import MidnightIndexer.Guarantees.ShieldedDelivery
import MidnightIndexer.Source.ShieldedProgress

/-!
# The order of the three progress numbers

What is reported as checked is the end index of the transaction with the largest
`last_indexed_transaction_id` of any wallet. A first connect writes its start index
there, and nothing says that a regular transaction has that id: a start index beyond
the tip, or on a system transaction, makes the lookup fail, and the number is 0 for all
wallets. Otherwise the order holds, since a wallet's relevant transactions are at or
below its own last indexed id.
-/

namespace MidnightIndexer.Guarantees.ShieldedProgress

open Lib List ShieldedDelivery Source RegularTransaction

variable {env : WalletEnv} {db after : WalletDb} {walletId : Uuid}

/-- What the chain indexer guarantees of the commits. -/
def CommitChained (db : WalletDb) : WalletInput → Prop
  | .commit row => ChainCommit db row
  | _ => True

instance CommitChained.decidable (db : WalletDb) : ∀ input, Decidable (CommitChained db input)
  | .commit row => inferInstanceAs (Decidable (ChainCommit db row))
  | .connect .. | .index _ => isTrue trivial

/-- A forward query starts within the column. -/
def ForwardFits (db : WalletDb) : WalletInput → Prop
  | .index call => ∀ w ∈ db.walletById call.walletId,
    w.firstIndexedTransactionId ≤ w.wantedStartIndex →
      w.lastIndexedTransactionId < call.maxTransactionId → w.lastIndexedTransactionId + 1 < 2 ^ 63
  | _ => True

instance ForwardFits.decidable (db : WalletDb) : ∀ input, Decidable (ForwardFits db input)
  | .index call => inferInstanceAs (Decidable (∀ w ∈ db.walletById call.walletId,
      w.firstIndexedTransactionId ≤ w.wantedStartIndex →
        w.lastIndexedTransactionId < call.maxTransactionId →
          w.lastIndexedTransactionId + 1 < 2 ^ 63))
  | .connect .. | .commit _ => isTrue trivial

/-- No relevant transaction has an end index other than 0, or the largest last indexed
id is that of a regular transaction and no relevant one behind it ends later. -/
def CheckedCovers (db : WalletDb) (walletId : Uuid) : Prop :=
  (∀ t ∈ db.connectedTransactions walletId, t.zswapEndIndex = 0) ∨
    ∃ checked ∈ db.regularTransactions, db.highestIndexedId = some checked.id ∧
      ∀ t ∈ db.connectedTransactions walletId, checked.id < t.id →
        t.zswapEndIndex ≤ checked.zswapEndIndex

/-! ## The three numbers -/

variable {t : RegularTransaction}

theorem mem_connectedTransactions (member : t ∈ db.connectedTransactions walletId) :
    t ∈ db.walletTransactions walletId := by
  unfold WalletDb.connectedTransactions at member
  split at member
  · exact member
  · cases member

theorem regular_of_wallet (member : t ∈ db.walletTransactions walletId) :
    t ∈ db.regularTransactions := by
  obtain ⟨row, stored, _, regular⟩ := mem_walletTransactions.mp member
  exact mem_filterMap.mpr ⟨row, stored, regular⟩

theorem regularTransactions_unique (ordered : OrderedTransactions db.transactions) :
    (db.regularTransactions.map RegularTransaction.id).Nodup := by
  rw [Nodup, pairwise_map]
  refine pairwise_filterMap.mpr (ordered.increasing.imp ?_)
  intro a b less t t_regular s s_regular
  rw [(toRegular_some t_regular).1, (toRegular_some s_regular).1]
  exact Nat.ne_of_lt less

theorem end_le_of_id_le (ordered : OrderedTransactions db.transactions)
    (chain : RangesChained db.transactions) {s : RegularTransaction}
    (s_stored : s ∈ db.regularTransactions) (t_stored : t ∈ db.regularTransactions)
    (less : s.id ≤ t.id) : s.zswapEndIndex ≤ t.zswapEndIndex := by
  rcases Nat.lt_or_eq_of_le less with below | same
  · obtain ⟨a, a_stored, a_regular⟩ := mem_filterMap.mp s_stored
    obtain ⟨b, b_stored, b_regular⟩ := mem_filterMap.mp t_stored
    obtain ⟨a_id, a_range⟩ := toRegular_some a_regular
    obtain ⟨b_id, b_range⟩ := toRegular_some b_regular
    have behind := chain.chained a a_stored b b_stored (by omega) _ a_range _ b_range
    have within := (chain.within b b_stored _ b_range).1
    exact behind.trans within
  · have equal := inj_on_of_nodup_map (regularTransactions_unique ordered) s_stored t_stored same
    rw [equal]

/-- The reported number of the relevant transactions is their largest end index. -/
theorem relevant_le_iff (db : WalletDb) (walletId : Uuid) (bound : Nat) :
    (makeProgress db walletId).highestRelevantZswapEndIndex ≤ bound ↔
      ∀ t ∈ db.connectedTransactions walletId, t.zswapEndIndex ≤ bound := by
  change ((Sql.orderByDesc zswapEndIndex
    (db.connectedTransactions walletId)).head?.map zswapEndIndex).getD 0 ≤ bound ↔ _
  cases first : (Sql.orderByDesc zswapEndIndex (db.connectedTransactions walletId)).head? with
  | none =>
    have empty := Sql.orderBy_eq_nil.mp (head?_eq_none_iff.mp first)
    simp [empty]
  | some top =>
    obtain ⟨member, highest⟩ := Sql.orderByDesc_first first
    exact ⟨fun low t listed => (highest t listed).trans low, fun all => all top member⟩

theorem checked_eq (db : WalletDb) (walletId : Uuid) :
    (makeProgress db walletId).highestCheckedZswapEndIndex = 0 ∧
        (∀ checked ∈ db.regularTransactions, db.highestIndexedId ≠ some checked.id) ∨
      ∃ checked ∈ db.regularTransactions, db.highestIndexedId = some checked.id ∧
        (makeProgress db walletId).highestCheckedZswapEndIndex = checked.zswapEndIndex := by
  change ((db.highestIndexedId.bind fun id =>
    Table.lookup RegularTransaction.id id db.regularTransactions).map _).getD 0 = 0 ∧ _ ∨
    ∃ checked ∈ _, _ ∧ ((db.highestIndexedId.bind fun id =>
      Table.lookup RegularTransaction.id id db.regularTransactions).map _).getD 0 = _
  cases highest : db.highestIndexedId with
  | none => exact .inl ⟨rfl, fun _ _ same => nomatch same⟩
  | some id =>
    rw [Option.bind_some]
    cases found : Table.lookup RegularTransaction.id id db.regularTransactions with
    | none =>
      refine .inl ⟨rfl, fun checked stored same => ?_⟩
      cases same
      exact Table.lookup_eq_none.mp found checked stored rfl
    | some checked =>
      obtain ⟨stored, same⟩ := Table.lookup_some found
      exact .inr ⟨checked, stored, by rw [same], rfl⟩

theorem checked_le_highest (db : WalletDb) (walletId : Uuid) :
    (makeProgress db walletId).highestCheckedZswapEndIndex ≤
      (makeProgress db walletId).highestZswapEndIndex := by
  rcases checked_eq db walletId with ⟨zero, _⟩ | ⟨checked, stored, _, value⟩
  · rw [zero]
    exact Nat.zero_le _
  · rw [value]
    change checked.zswapEndIndex ≤ (db.regularTransactions.map zswapEndIndex).max?.getD 0
    exact le_max?_getD_of_mem (mem_map_of_mem stored)

theorem relevant_le_checked_iff (ordered : OrderedTransactions db.transactions)
    (chain : RangesChained db.transactions) (walletId : Uuid) :
    (makeProgress db walletId).highestRelevantZswapEndIndex ≤
        (makeProgress db walletId).highestCheckedZswapEndIndex ↔ CheckedCovers db walletId := by
  rw [relevant_le_iff]
  rcases checked_eq db walletId with ⟨zero, missing⟩ | ⟨checked, stored, highest, value⟩
  · rw [zero]
    constructor
    · intro all
      exact .inl fun t member => Nat.le_zero.mp (all t member)
    · rintro (none_there | ⟨checked, stored, same, _⟩) t member
      · exact Nat.le_of_eq (none_there t member)
      · exact absurd same (missing checked stored)
  · rw [value]
    constructor
    · intro all
      exact .inr ⟨checked, stored, highest, fun t member _ => all t member⟩
    · rintro (none_there | ⟨other, other_stored, same, later⟩) t member
      · rw [none_there t member]
        exact Nat.zero_le _
      · have equal : other = checked :=
          inj_on_of_nodup_map (regularTransactions_unique ordered) other_stored stored
            (Option.some.inj (same.symm.trans highest))
        rw [equal] at later
        rcases Nat.lt_or_ge checked.id t.id with behind | before
        · exact later t member behind
        · exact end_le_of_id_le ordered chain
            (regular_of_wallet (mem_connectedTransactions member)) stored before

/-! ## Runs -/

structure ChainInvariant (env : WalletEnv) (db : WalletDb) : Prop where
  tables : WalletTables env db
  chain : RangesChained db.transactions

theorem ChainInvariant.step (invariant : ChainInvariant env db) (input : WalletInput)
    (allowed : CommitChained db input) : ChainInvariant env (walletStep env db input) := by
  refine ⟨invariant.tables.step input, ?_⟩
  cases input with
  | connect id key startIndex now session =>
    simp only [walletStep]
    split
    next connected => exact (connectWallet_frame connected).1 ▸ invariant.chain
    next => exact invariant.chain
  | commit row =>
    rcases commitTransaction_cases row db with refused | ⟨_, above, committed⟩
    · rw [walletStep, refused]
      exact invariant.chain
    · rw [walletStep, committed]
      exact invariant.chain.append above allowed
  | index call =>
    simp only [walletStep]
    split
    next indexed => exact indexWallet_transactions indexed ▸ invariant.chain
    next => exact invariant.chain

theorem chainInvariant_empty (env : WalletEnv) : ChainInvariant env WalletDb.empty :=
  ⟨walletTables_empty env, fun _ member => absurd member not_mem_nil,
    fun _ member => absurd member not_mem_nil⟩

/-- Relevant transactions lie at or below the cursor of their wallet. -/
structure ReadyInvariant (env : WalletEnv) (db : WalletDb) : Prop where
  tables : WalletTables env db
  ready : ∀ w ∈ db.wallets, True → WalletReady db w

theorem ReadyInvariant.index (invariant : ReadyInvariant env db) {call : IndexCall}
    {published : Bool} (allowed : ForwardFits db (.index call))
    (success : env.indexWallet call db = .ok (after, published)) :
    ReadyInvariant env after := by
  have tables := invariant.tables
  refine ⟨tables.indexWallet_kept success, ?_⟩
  rcases indexWallet_success success with ⟨rfl, _⟩ | ⟨wallet, found, arm⟩
  · exact invariant.ready
  · have member := (Table.lookup_some found).1
    rcases arm with ⟨gap, scanned⟩ | ⟨closed, behind, scanned⟩
    · obtain ⟨first, relevant, effect⟩ :=
        indexBackward_effects tables.ordered gap (tables.columns wallet member).2.1 scanned
      exact WalletReady.insert (fun _ => True) tables invariant.ready tables.ids member
        effect.wallets effect.inserted (fun _ => rfl) (fun _ => rfl)
        fun _ ready => ready.backward effect
    · rcases indexForward_effects tables.ordered (tables.walletByKey_of_mem member) scanned with
        ⟨rfl, _⟩ | ⟨last, relevant, effect⟩
      · exact invariant.ready
      · exact WalletReady.insert (fun _ => True) tables invariant.ready tables.keys member
          effect.wallets effect.inserted (fun _ => rfl) (fun _ => rfl)
          fun _ ready => ready.forward (allowed wallet found closed behind) effect

theorem ReadyInvariant.step (invariant : ReadyInvariant env db) (input : WalletInput)
    (allowed : ForwardFits db input) : ReadyInvariant env (walletStep env db input) := by
  cases input with
  | connect id key startIndex now session =>
    simp only [walletStep]
    split
    next connected =>
      exact ⟨invariant.tables.connectWallet_kept connected,
        WalletReady.connect (fun _ => True) invariant.tables invariant.ready connected⟩
    next => exact invariant
  | commit row =>
    refine ⟨invariant.tables.commitTransaction_kept row, ?_⟩
    rcases commitTransaction_cases row db with refused | ⟨_, _, committed⟩
    · rw [walletStep, refused]
      exact invariant.ready
    · rw [walletStep, committed]
      intro w stored _
      obtain ⟨cursors, recorded, session⟩ := invariant.ready w stored trivial
      exact ⟨cursors, recorded, session⟩
  | index call =>
    simp only [walletStep]
    split
    next indexed => exact invariant.index allowed indexed
    next => exact invariant

/-- A relevant transaction is at or below the largest last indexed id. -/
theorem ReadyInvariant.id_le (invariant : ReadyInvariant env db)
    (member : t ∈ db.walletTransactions walletId) {highest : Nat}
    (found : db.highestIndexedId = some highest) : t.id ≤ highest := by
  obtain ⟨row, _, recorded, id, _⟩ := walletTransactions_row member
  obtain ⟨w, stored, same, _⟩ := invariant.tables.sound _ recorded
  have own := (invariant.ready w stored trivial).recorded row.id (by rw [same]; exact recorded)
  have largest := (max?_eq_some_iff.mp found).2 _ (mem_map_of_mem stored)
  omega

/-- In every run the checked number is at most the highest one, and the relevant number
at most the checked one if and only if `CheckedCovers`. In a run whose forward queries
fit the column this comes down to the largest last indexed id: it is that of a regular
transaction, or the relevant number is 0. -/
theorem shielded_progress_iff (env : WalletEnv) (inputs : List WalletInput)
    (guarded : Guarded (walletStep env) CommitChained WalletDb.empty inputs) (walletId : Uuid) :
    let db := run (walletStep env) WalletDb.empty inputs
    (makeProgress db walletId).highestCheckedZswapEndIndex ≤
        (makeProgress db walletId).highestZswapEndIndex ∧
      ((makeProgress db walletId).highestRelevantZswapEndIndex ≤
          (makeProgress db walletId).highestCheckedZswapEndIndex ↔ CheckedCovers db walletId) ∧
      (Guarded (walletStep env) ForwardFits WalletDb.empty inputs →
        (CheckedCovers db walletId ↔
          (∀ t ∈ db.connectedTransactions walletId, t.zswapEndIndex = 0) ∨
            ∃ checked ∈ db.regularTransactions, db.highestIndexedId = some checked.id)) := by
  intro db
  have keep : ∀ db input, ChainInvariant env db → CommitChained db input →
      ChainInvariant env (walletStep env db input) :=
    fun _ input invariant allowed => invariant.step input allowed
  have chained := run_invariant keep WalletDb.empty inputs (chainInvariant_empty env) guarded
  refine ⟨checked_le_highest db walletId,
    relevant_le_checked_iff chained.tables.ordered chained.chain walletId, fun fits => ?_⟩
  have keepReady : ∀ db input, ReadyInvariant env db → ForwardFits db input →
      ReadyInvariant env (walletStep env db input) :=
    fun _ input invariant allowed => invariant.step input allowed
  have ready := run_invariant keepReady WalletDb.empty inputs
    ⟨walletTables_empty env, fun _ member => absurd member List.not_mem_nil⟩ fits
  refine or_congr Iff.rfl (exists_congr fun checked => and_congr_right fun _ => ?_)
  refine and_iff_left_of_imp fun highest t member behind => ?_
  have below := ready.id_le (mem_connectedTransactions member) highest
  omega

/-- A wallet with a relevant transaction, and no other one. -/
def progressSample : List WalletInput :=
  [.commit (sampleTransaction 1 [7] 0 1), .connect 1 7 none 0 1, .index sampleCall,
    .commit (sampleTransaction 2 [8] 1 3)]

theorem shielded_progress_sample :
    let progress := makeProgress (run (walletStep sampleEnv) WalletDb.empty progressSample) 1
    progress.highestRelevantZswapEndIndex = 1 ∧ progress.highestZswapEndIndex = 3 ∧
      progress.highestRelevantZswapEndIndex ≤ progress.highestCheckedZswapEndIndex ∧
      progress.highestCheckedZswapEndIndex ≤ progress.highestZswapEndIndex := by
  obtain ⟨checked, relevant, covers⟩ := shielded_progress_iff sampleEnv progressSample
    (by decide +kernel) 1
  have stored : ∃ checked ∈ (run (walletStep sampleEnv) WalletDb.empty
      progressSample).regularTransactions, (run (walletStep sampleEnv) WalletDb.empty
        progressSample).highestIndexedId = some checked.id := by
    decide +kernel
  exact ⟨by decide +kernel, by decide +kernel,
    relevant.mpr ((covers (by decide +kernel)).mpr (Or.inr stored)), checked⟩

/-- Then another wallet connects with a start index beyond the tip: nothing counts as
checked any more. -/
theorem future_start_hides_checked :
    let progress := makeProgress (run (walletStep sampleEnv) WalletDb.empty
      (progressSample ++ [.connect 2 8 (some 100) 0 2])) 1
    progress.highestRelevantZswapEndIndex = 1 ∧ progress.highestCheckedZswapEndIndex = 0 ∧
      ¬ progress.highestRelevantZswapEndIndex ≤ progress.highestCheckedZswapEndIndex := by
  decide +kernel

/-! ## The polling loop -/

variable {α : Type} [DecidableEq α]

/-- How often the newest answer came before without a break, newest first. -/
def repeats : List α → Nat
  | newest :: before :: rest => if newest = before then repeats (before :: rest) + 1 else 0
  | _ => 0

/-- Whatever is answered, the loop sleeps for the base interval, doubled for each repetition
of the last answer up to eight times. -/
theorem progress_backs_off (base : Nat) (answers : List α) :
    (run (progressRound base) ⟨base, none⟩ answers).currentInterval =
      base * min 8 (2 ^ repeats answers.reverse) := by
  let invariant (s : ProgressLoop α) (taken : List α) : Prop :=
    s.last = taken.getLast? ∧ s.currentInterval = base * min 8 (2 ^ repeats taken.reverse)
  have keep : ∀ s taken answer, invariant s taken →
      invariant (progressRound base s answer) (taken ++ [answer]) := by
    rintro s taken answer ⟨last, interval⟩
    refine ⟨by simp [progressRound], ?_⟩
    rw [progressRound, nextPollInterval, last, interval, ← head?_reverse, reverse_concat]
    cases taken.reverse with
    | nil => simp [repeats]
    | cons before rest =>
      by_cases same : answer = before
      · simp only [repeats, same, head?_cons, ne_eq, not_true, decide_false, if_true,
          Bool.false_eq_true, if_false, Nat.mul_assoc, Nat.mul_min_mul_left, Nat.pow_succ]
        congr 1
        omega
      · simp [repeats, same, Ne.symm same]
  exact (run_history invariant keep ⟨rfl, by simp [repeats]⟩ answers).2

end MidnightIndexer.Guarantees.ShieldedProgress
