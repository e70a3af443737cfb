import MidnightIndexer.Guarantees.ShieldedReader

/-!
# What a shielded subscription delivers

Forward batches always append above the reader's position. A backward batch
inserts rows of older transactions, and those below the position are never read,
although the wallet indexer announces them. The other way to fail is a page that
ends with an empty zswap range, which is read again.
-/

namespace MidnightIndexer.Guarantees

open Lib List Source

namespace ShieldedDelivery

/-- Every event for the wallet has been published and processed. -/
def Settled (params : ShieldedParams) (s : ShieldedState) (sub : Subscription) : Prop :=
  sub.phase = .waiting ∧ params.walletId ∉ s.pending ∧ params.walletId ∉ s.events

/-- What the chain indexer guarantees of a commit: the zswap range is well formed
and starts at or after the end of every earlier one. -/
def ChainCommit (db : WalletDb) (row : TransactionRow) : Prop :=
  ∀ r ∈ row.regular, r.zswapStartIndex ≤ r.zswapEndIndex ∧ r.zswapEndIndex < 2 ^ 63 ∧
    ∀ t ∈ db.transactions, ∀ q ∈ t.regular, q.zswapEndIndex ≤ r.zswapStartIndex

/-- An indexing call of the wallet: a backward gap has no relevant transaction
below the reader's position, and a forward query starts within the column. -/
def IndexAhead (env : WalletEnv) (params : ShieldedParams) (s : ShieldedState) (call : IndexCall) :
    Prop :=
  ∀ w ∈ s.db.walletById call.walletId, w.id = params.walletId →
    if w.wantedStartIndex < w.firstIndexedTransactionId then
      ∀ sub ∈ s.subscription, ∀ t ∈ s.db.transactions, env.isRelevant w.viewingKey t →
        w.wantedStartIndex ≤ t.id → t.id < w.firstIndexedTransactionId → NotPassed params sub t
    else w.lastIndexedTransactionId < call.maxTransactionId →
      w.lastIndexedTransactionId + 1 < 2 ^ 63

/-- A query does not end its page with an empty range. -/
def PageAdvances (params : ShieldedParams) (db : WalletDb) (sub : Subscription) : Prop :=
  match sub.phase with
  | .streaming cursor [] =>
    ∀ last ∈ (db.relevantTransactionsPage params.walletId params.batchSize cursor).getLast?,
      last.zswapStartIndex < last.zswapEndIndex
  | _ => True

/-- The condition on one step, over the state it is taken in. -/
def DeliveryStep (env : WalletEnv) (params : ShieldedParams) (s : ShieldedState) :
    ShieldedInput → Prop
  | .wallet (.commit row) => ChainCommit s.db row
  | .wallet (.index call) => IndexAhead env params s call
  | .wallet (.connect ..) => True
  | .publish _ => True
  | .subscribe => params.index < 2 ^ 63
  | .poll => ∀ sub ∈ s.subscription, PageAdvances params s.db sub

instance ChainCommit.decidable (db : WalletDb) (row : TransactionRow) :
    Decidable (ChainCommit db row) :=
  inferInstanceAs (Decidable (∀ r ∈ row.regular, r.zswapStartIndex ≤ r.zswapEndIndex ∧
    r.zswapEndIndex < 2 ^ 63 ∧
    ∀ t ∈ db.transactions, ∀ q ∈ t.regular, q.zswapEndIndex ≤ r.zswapStartIndex))

instance NotPassed.decidable (params : ShieldedParams) (sub : Subscription)
    (row : TransactionRow) : Decidable (NotPassed params sub row) :=
  inferInstanceAs (Decidable (∀ r ∈ row.regular,
    ¬ (params.index ≤ r.zswapStartIndex ∧ r.zswapStartIndex < position sub)))

instance IndexAhead.decidable (env : WalletEnv) (params : ShieldedParams) (s : ShieldedState)
    (call : IndexCall) : Decidable (IndexAhead env params s call) :=
  inferInstanceAs (Decidable (∀ w ∈ s.db.walletById call.walletId, w.id = params.walletId →
    if w.wantedStartIndex < w.firstIndexedTransactionId then
      ∀ sub ∈ s.subscription, ∀ t ∈ s.db.transactions, env.isRelevant w.viewingKey t →
        w.wantedStartIndex ≤ t.id → t.id < w.firstIndexedTransactionId → NotPassed params sub t
    else w.lastIndexedTransactionId < call.maxTransactionId →
      w.lastIndexedTransactionId + 1 < 2 ^ 63))

instance PageAdvances.decidable (params : ShieldedParams) (db : WalletDb) :
    ∀ sub, Decidable (PageAdvances params db sub)
  | ⟨_, .streaming cursor [], _⟩ => inferInstanceAs (Decidable (∀ last ∈
      (db.relevantTransactionsPage params.walletId params.batchSize cursor).getLast?,
        last.zswapStartIndex < last.zswapEndIndex))
  | ⟨_, .streaming _ (_ :: _), _⟩ => isTrue trivial
  | ⟨_, .waiting, _⟩ => isTrue trivial

instance DeliveryStep.decidable (env : WalletEnv) (params : ShieldedParams) (s : ShieldedState) :
    ∀ input, Decidable (DeliveryStep env params s input)
  | .wallet (.commit row) => inferInstanceAs (Decidable (ChainCommit s.db row))
  | .wallet (.index call) => inferInstanceAs (Decidable (IndexAhead env params s call))
  | .wallet (.connect ..) => isTrue trivial
  | .publish _ => isTrue trivial
  | .subscribe => inferInstanceAs (Decidable (params.index < 2 ^ 63))
  | .poll => inferInstanceAs (Decidable (∀ sub ∈ s.subscription, PageAdvances params s.db sub))

structure DeliveryInvariant (env : WalletEnv) (params : ShieldedParams) (s : ShieldedState) :
    Prop where
  tables : WalletTables env s.db
  chain : RangesChained s.db.transactions
  ready : ∀ w ∈ s.db.wallets, w.id = params.walletId → WalletReady s.db w
  reader : ∀ sub, s.subscription = some sub →
    ReaderInvariant params s.db s.pending s.events sub

variable {env : WalletEnv} {params : ShieldedParams} {db after : WalletDb} {row : TransactionRow}

theorem RangesChained.append {transactions : List TransactionRow}
    (chain : RangesChained transactions) (above : ∀ t ∈ transactions, t.id < row.id)
    (allowed : ∀ r ∈ row.regular, r.zswapStartIndex ≤ r.zswapEndIndex ∧ r.zswapEndIndex < 2 ^ 63 ∧
      ∀ t ∈ transactions, ∀ q ∈ t.regular, q.zswapEndIndex ≤ r.zswapStartIndex) :
    RangesChained (transactions ++ [row]) := by
  constructor <;> simp only [mem_append, mem_singleton]
  · rintro t (stored | rfl) r regular
    · exact chain.within t stored r regular
    · exact ⟨(allowed r regular).1, (allowed r regular).2.1⟩
  · rintro a (a_stored | rfl) b (b_stored | rfl) less r r_regular q q_regular
    · exact chain.chained a a_stored b b_stored less r r_regular q q_regular
    · exact (allowed q q_regular).2.2 a a_stored r r_regular
    · exact absurd (above b b_stored) (by omega)
    · exact absurd less (by omega)

theorem walletTransactions_commit (tables : WalletTables env db)
    (above : ∀ t ∈ db.transactions, t.id < row.id) (walletId : Uuid) :
    { db with transactions := db.transactions ++ [row] }.walletTransactions walletId =
      db.walletTransactions walletId := by
  have unrecorded : RelevantRow.mk walletId row.id ∉ db.relevantTransactions := by
    intro recorded
    obtain ⟨_, _, _, t, stored, same, _⟩ := tables.sound _ recorded
    have less := above t stored
    simp only at same
    omega
  simp [WalletDb.walletTransactions, filter_append, unrecorded]

namespace DeliveryInvariant

variable {s : ShieldedState} (invariant : DeliveryInvariant env params s)

include invariant

theorem sessionOpen (t : RegularTransaction)
    (member : t ∈ s.db.walletTransactions params.walletId) : s.db.sessionOpen params.walletId := by
  obtain ⟨row, _, recorded, _⟩ := mem_walletTransactions.mp member
  obtain ⟨w, stored, same, _⟩ := invariant.tables.sound _ recorded
  have session := (invariant.ready w stored same).session
  simp only [WalletDb.sessionOpen, any_eq_true, decide_eq_true_eq]
  exact ⟨w, stored, same, session⟩

theorem commit (allowed : ChainCommit s.db row) :
    DeliveryInvariant env params { s with db := commitTransaction row s.db } := by
  have tables := invariant.tables.commitTransaction_kept row
  rcases commitTransaction_cases row s.db with refused | ⟨_, above, committed⟩
  · rw [refused]
    exact invariant
  · rw [committed] at tables ⊢
    refine ⟨tables, invariant.chain.append above allowed, ?_, fun sub found => ?_⟩
    · intro w stored own
      obtain ⟨cursors, recorded, session⟩ := invariant.ready w stored own
      exact ⟨cursors, recorded, session⟩
    · exact (invariant.reader sub found).congr (walletTransactions_commit invariant.tables above _)

theorem connect {id : Uuid} {key : ViewingKey} {startIndex : Option Nat} {now : Int}
    {session : SessionId} (success : connectWallet id key startIndex now session s.db = .ok after) :
    DeliveryInvariant env params { s with db := after } := by
  obtain ⟨transactions, relevant⟩ := connectWallet_frame success
  refine ⟨invariant.tables.connectWallet_kept success, transactions ▸ invariant.chain,
    WalletReady.connect (· = params.walletId) invariant.tables invariant.ready success,
    fun sub found => (invariant.reader sub found).congr ?_⟩
  simp only [WalletDb.walletTransactions, transactions, relevant]

variable {wallet : WalletRow} {relevant : List TransactionRow} {published : Bool}

/-- An indexing step of either arm: it moves a cursor of one wallet, inserts rows
of it that are not passed yet, and keeps them at or below its forward cursor. -/
theorem insert {κ : Type} [DecidableEq κ] {column : WalletRow → κ} {f : WalletRow → WalletRow}
    (tables : WalletTables env after) (unique : (s.db.wallets.map column).Nodup)
    (member : wallet ∈ s.db.wallets)
    (wallets : after.wallets = Table.update column (column wallet) f s.db.wallets)
    (inserted : Inserted env wallet relevant s.db after published)
    (id_same : ∀ w, (f w).id = w.id) (session_same : ∀ w, (f w).sessionId = w.sessionId)
    (moved : wallet.id = params.walletId → WalletReady s.db wallet →
      (f wallet).firstIndexedTransactionId ≤ (f wallet).lastIndexedTransactionId ∧
      wallet.lastIndexedTransactionId ≤ (f wallet).lastIndexedTransactionId ∧
      ∀ t ∈ relevant, t.id ≤ (f wallet).lastIndexedTransactionId)
    (ahead : wallet.id = params.walletId → WalletReady s.db wallet →
      ∀ sub, s.subscription = some sub → ∀ t ∈ relevant, NotPassed params sub t) :
    DeliveryInvariant env params { s with
      db := after
      pending := if published then wallet.id :: s.pending else s.pending } := by
  refine ⟨tables, inserted.transactions ▸ invariant.chain,
    WalletReady.insert (· = params.walletId) invariant.tables invariant.ready unique member wallets
      inserted id_same session_same moved, fun sub found => ?_⟩
  exact (invariant.reader sub found).insert invariant.tables inserted
    fun own => ahead own (invariant.ready wallet member own) sub found

theorem backward {call : IndexCall} {first : Nat} (tables : WalletTables env after)
    (allowed : IndexAhead env params s call) (found : s.db.walletById call.walletId = some wallet)
    (gap : wallet.wantedStartIndex < wallet.firstIndexedTransactionId)
    (effect : BackwardEffect env wallet call.batch s.db after published first relevant) :
    DeliveryInvariant env params { s with
      db := after
      pending := if published then wallet.id :: s.pending else s.pending } := by
  have member := (Table.lookup_some found).1
  refine invariant.insert tables invariant.tables.ids member effect.wallets effect.inserted
    (fun _ => rfl) (fun _ => rfl) (fun _ ready => ready.backward effect) ?_
  · intro own _ sub subscribed t chosen
    have condition := allowed wallet found own
    rw [if_pos gap] at condition
    obtain ⟨stored, keep⟩ := effect.inserted.sound t chosen
    obtain ⟨low, high⟩ := effect.bounds t chosen
    exact condition sub subscribed t stored keep (effect.low.trans low) high

/-- Forward rows are younger than every row of the wallet, so they start behind
everything that has been read. -/
theorem forward {last : Nat} (tables : WalletTables env after) (member : wallet ∈ s.db.wallets)
    (fits : wallet.id = params.walletId → wallet.lastIndexedTransactionId + 1 < 2 ^ 63)
    (effect : ForwardEffect env wallet s.db after published last relevant) :
    DeliveryInvariant env params { s with
      db := after
      pending := if published then wallet.id :: s.pending else s.pending } := by
  refine invariant.insert tables invariant.tables.keys member effect.wallets effect.inserted
    (fun _ => rfl) (fun _ => rfl) (fun own ready => ready.forward (fits own) effect) ?_
  · intro own ready sub subscribed t chosen range regular
    obtain ⟨stored, _, above, _⟩ := ((effect.covers (fits own)).2 t).mp chosen
    rintro ⟨low, passed⟩
    rcases (invariant.reader sub subscribed).reached with at_start | ⟨read, read_member, read_end⟩
    · omega
    · obtain ⟨row, row_stored, recorded, _, row_range⟩ := walletTransactions_row read_member
      have older := ready.recorded row.id (own ▸ recorded)
      have behind := invariant.chain.chained row row_stored t stored (by omega) _ row_range
        range regular
      simp only at behind
      omega

theorem index {call : IndexCall} (allowed : IndexAhead env params s call)
    (success : env.indexWallet call s.db = .ok (after, published)) :
    DeliveryInvariant env params { s with
      db := after
      pending := if published then call.walletId :: s.pending else s.pending } := by
  have tables := invariant.tables
  have tables_after := tables.indexWallet_kept success
  rcases indexWallet_success success with ⟨rfl, rfl⟩ | ⟨wallet, found, arm⟩
  · exact invariant
  · obtain ⟨member, same⟩ := Table.lookup_some found
    rw [← same]
    rcases arm with ⟨gap, scanned⟩ | ⟨closed, behind, scanned⟩
    · obtain ⟨first, relevant, effect⟩ :=
        indexBackward_effects tables.ordered gap (tables.columns wallet member).2.1 scanned
      exact invariant.backward tables_after allowed found gap effect
    · rcases indexForward_effects tables.ordered (tables.walletByKey_of_mem member) scanned with
        ⟨rfl, rfl⟩ | ⟨last, relevant, effect⟩
      · exact invariant
      · refine invariant.forward tables_after member (fun own => ?_) effect
        have fits := allowed wallet found own
        rw [if_neg (not_lt.mpr closed)] at fits
        exact fits behind

theorem poll {sub : Subscription} (found : s.subscription = some sub)
    (advances : PageAdvances params s.db sub) :
    ReaderInvariant params s.db s.pending (Source.poll params s.db s.events sub).1
      (Source.poll params s.db s.events sub).2 := by
  have reader := invariant.reader sub found
  obtain ⟨index, phase, delivered⟩ := sub
  match phase with
  | .streaming cursor (t :: rest) => exact reader.yield
  | .streaming cursor [] =>
    have advances : ∀ last ∈ (s.db.relevantTransactionsPage params.walletId params.batchSize
        cursor).getLast?, last.zswapStartIndex < last.zswapEndIndex := advances
    have fits : cursor < 2 ^ 63 := reader.fits
    have unique := invariant.tables.ordered.unique
    rcases relevantTransactionsPage_cases unique invariant.sessionOpen fits
      params.batchSize with ⟨empty, exhausted⟩ | ⟨last, final, page_iff⟩
    · simp only [Source.poll, empty, getLast?_nil]
      exact reader.finish exhausted
    · simp only [Source.poll, final]
      exact reader.fetch invariant.tables invariant.chain final
        (relevantTransactionsPage_nodup unique _ _ _) page_iff (advances last final)
  | .waiting =>
    cases events : s.events with
    | nil =>
      simp only [Source.poll]
      exact events ▸ reader
    | cons event later =>
      simp only [Source.poll]
      split
      next => exact reader.restart
      next other =>
        refine reader.announce fun outstanding => ?_
        rw [events, mem_cons] at outstanding
        rcases outstanding with pending | rfl | queued
        · exact .inl pending
        · exact absurd rfl other
        · exact .inr queued

theorem publish (walletId : Uuid) :
    DeliveryInvariant env params (shieldedStep env params s (.publish walletId)) := by
  simp only [shieldedStep]
  split
  next =>
    refine ⟨invariant.tables, invariant.chain, invariant.ready, fun sub found => ?_⟩
    have subscribed : s.subscription = some sub := found
    refine (invariant.reader sub found).announce ?_
    simp only [subscribed, Option.isSome_some, if_true, mem_append, mem_singleton]
    rintro (pending | queued)
    · by_cases own : params.walletId = walletId
      · exact .inr (.inr own)
      · exact .inl ((mem_erase_of_ne own).mpr pending)
    · exact .inr (.inl queued)
  next => exact invariant

theorem subscribe (fits : params.index < 2 ^ 63) :
    DeliveryInvariant env params (shieldedStep env params s .subscribe) := by
  simp only [shieldedStep]
  split
  next =>
    refine ⟨invariant.tables, invariant.chain, invariant.ready, fun sub found => ?_⟩
    cases found
    refine ⟨le_refl _, fits, .inl rfl, fun t => ?_, nodup_nil, fun _ => rfl,
      nofun, nofun⟩
    simp only [readRows, buffer, position, ShieldedParams.start, map_nil, append_nil,
      not_mem_nil, false_iff]
    omega
  next => exact invariant

theorem step (input : ShieldedInput) (allowed : DeliveryStep env params s input) :
    DeliveryInvariant env params (shieldedStep env params s input) := by
  cases input with
  | wallet input =>
    cases input with
    | connect id key startIndex now session =>
      simp only [shieldedStep, walletStep]
      split
      next connected => exact invariant.connect connected
      next => exact invariant
    | commit row => exact invariant.commit allowed
    | index call =>
      simp only [shieldedStep]
      split
      next indexed => exact invariant.index allowed indexed
      next => exact invariant
  | publish walletId => exact invariant.publish walletId
  | subscribe => exact invariant.subscribe allowed
  | poll =>
    simp only [shieldedStep]
    split
    next => exact invariant
    next sub found =>
      refine ⟨invariant.tables, invariant.chain, invariant.ready, fun polled same => ?_⟩
      cases same
      exact invariant.poll found (allowed sub found)

end DeliveryInvariant

theorem deliveryInvariant_empty (env : WalletEnv) (params : ShieldedParams) :
    DeliveryInvariant env params ShieldedState.empty where
  tables := walletTables_empty env
  chain := ⟨nofun, nofun⟩
  ready := nofun
  reader := nofun

/-- In every run whose steps meet `DeliveryStep`, once every event for the wallet
has been published and processed, the subscription has delivered exactly the
wallet's relevant transactions from the requested index on, each once. -/
theorem shielded_delivery_exact (env : WalletEnv) (params : ShieldedParams)
    (inputs : List ShieldedInput)
    (guarded : Guarded (shieldedStep env params) (DeliveryStep env params) ShieldedState.empty
      inputs)
    (sub : Subscription)
    (subscribed : (run (shieldedStep env params) ShieldedState.empty inputs).subscription =
      some sub)
    (settled : Settled params (run (shieldedStep env params) ShieldedState.empty inputs) sub) :
    (∀ t, t ∈ sub.delivered.map RelevantTransaction.transaction ↔
      t ∈ (run (shieldedStep env params) ShieldedState.empty inputs).db.walletTransactions
        params.walletId ∧ params.index ≤ t.zswapStartIndex) ∧
    (sub.delivered.map RelevantTransaction.transaction).Nodup := by
  have keep : ∀ s input, DeliveryInvariant env params s → DeliveryStep env params s input →
      DeliveryInvariant env params (shieldedStep env params s input) :=
    fun _ input invariant allowed => invariant.step input allowed
  have invariant := run_invariant keep ShieldedState.empty inputs
    (deliveryInvariant_empty env params) guarded
  have reader := invariant.reader sub subscribed
  obtain ⟨waiting, published, processed⟩ := settled
  have rows_eq : readRows sub = sub.delivered.map RelevantTransaction.transaction := by
    simp [readRows, buffer, waiting]
  rw [← rows_eq]
  refine ⟨fun t => ?_, reader.once⟩
  rw [reader.read t]
  constructor
  · rintro ⟨member, low, _⟩
    exact ⟨member, low⟩
  · rintro ⟨member, low⟩
    refine ⟨member, low, Nat.lt_of_not_le fun behind => ?_⟩
    exact (reader.announced waiting ⟨t, member, behind⟩).elim published processed

def sampleParams : ShieldedParams := ⟨1, 0, .ofNat 1⟩

/-- One transaction before the subscription and one after its backfill. -/
def sampleDelivery : List ShieldedInput :=
  [.wallet (.commit (sampleTransaction 1 [7] 0 1)), .wallet (.connect 1 7 none 0 1),
    .subscribe, .wallet (.index sampleCall), .poll, .poll, .publish 1, .poll,
    .wallet (.commit (sampleTransaction 2 [7] 1 2)), .wallet (.index sampleCall), .publish 1,
    .poll, .poll, .poll, .poll, .poll, .poll]

def sampleTransactions : List RegularTransaction :=
  [⟨1, .first .V1_0, [7], 0, 1⟩, ⟨2, .first .V1_0, [7], 1, 2⟩]

theorem shielded_delivery_exact_sample :
    let s := run (shieldedStep sampleEnv sampleParams) ShieldedState.empty sampleDelivery
    let sub : Subscription := ⟨2, .waiting, sampleTransactions.map fun t => ⟨t, none⟩⟩
    s.subscription = some sub ∧ Settled sampleParams s sub ∧
      ∀ t, t ∈ sampleTransactions ↔
        t ∈ s.db.walletTransactions 1 ∧ 0 ≤ t.zswapStartIndex := by
  have subscribed : (run (shieldedStep sampleEnv sampleParams) ShieldedState.empty
      sampleDelivery).subscription =
        some ⟨2, .waiting, sampleTransactions.map fun t => ⟨t, none⟩⟩ := by
    decide +kernel
  have settled : Settled sampleParams (run (shieldedStep sampleEnv sampleParams)
      ShieldedState.empty sampleDelivery)
        ⟨2, .waiting, sampleTransactions.map fun t => ⟨t, none⟩⟩ :=
    ⟨rfl, by decide +kernel, by decide +kernel⟩
  exact ⟨subscribed, settled, (shielded_delivery_exact sampleEnv sampleParams sampleDelivery
    (by decide +kernel) _ subscribed settled).1⟩

/-- A subscription reads the transaction a forward scan found; then the client
connects with a lower start index and the backward scan finds an older one. -/
def passedBackward : List ShieldedInput :=
  [.wallet (.commit (sampleTransaction 1 [7] 0 1)),
    .wallet (.commit (sampleTransaction 2 [8] 1 2)),
    .wallet (.commit (sampleTransaction 3 [7] 2 3)), .wallet (.connect 1 7 (some 2) 0 1),
    .wallet (.index sampleCall), .publish 1, .subscribe, .poll, .poll, .poll,
    .wallet (.connect 1 7 (some 1) 0 1), .wallet (.index sampleCall), .publish 1,
    .poll, .poll]

/-- The older transaction is recorded and announced but never delivered. -/
theorem backward_transaction_lost :
    let s := run (shieldedStep sampleEnv sampleParams) ShieldedState.empty passedBackward
    let wallet : WalletRow := ⟨1, 7, 1, 1, 3, 0, some 1⟩
    let lost : RegularTransaction := ⟨1, .first .V1_0, [7], 0, 1⟩
    let read : RegularTransaction := ⟨3, .first .V1_0, [7], 2, 3⟩
    let sub : Subscription := ⟨3, .waiting, [⟨read, some (0, 1)⟩]⟩
    s.subscription = some sub ∧ Settled sampleParams s sub ∧
      s.db.walletById 1 = some wallet ∧ ScanComplete s.db wallet ∧
      lost ∈ s.db.walletTransactions 1 ∧ lost ∉ sub.delivered.map RelevantTransaction.transaction := by
  refine ⟨by decide +kernel, ⟨rfl, by decide +kernel, by decide +kernel⟩, by decide +kernel,
    ⟨by decide, by decide +kernel⟩, by decide +kernel, by decide⟩

end ShieldedDelivery

end MidnightIndexer.Guarantees
