import MidnightIndexer.Source.WalletTables

/-!
# Replicas of the wallet indexer

The statements of `index_wallet` (wallet-indexer/src/application.rs:207-351,
wallet-indexer/src/infra/storage.rs:70-261) with what other services do between them. A
replica acquires the wallet's lock and reads the wallet, it queries a page, and it saves and
commits; each statement sees the tables of its own moment. The lock is held up to the
commit or until the transaction is dropped. `connect_wallet`
(indexer-api/src/infra/storage/wallet.rs:24-73) and the chain indexer take no lock.

The lock of a wallet has at most one holder by the type of `locks`. Without other steps in
between the three statements are the call of `indexWallet` (`indexWallet_eq`).
-/

namespace MidnightIndexer.Source

open Lib List Table

/-- A call that holds the lock: the row it has read and then the page it has queried. -/
structure Flight where
  call : IndexCall
  wallet : WalletRow
  page : Option (List TransactionRow)
  deriving DecidableEq

namespace Flight

/-- There is a gap below `first_indexed_transaction_id`. -/
def backward (flight : Flight) : Bool :=
  flight.wallet.wantedStartIndex < flight.wallet.firstIndexedTransactionId

/-- The first id of a page of the gap, which is in descending order. -/
def lowest (flight : Flight) (page : List TransactionRow) : Nat :=
  (page.getLast?.map TransactionRow.id).getD flight.wallet.wantedStartIndex

/-- The last id of a page above `last_indexed_transaction_id`. -/
def highest (flight : Flight) (page : List TransactionRow) : Nat :=
  (page.getLast?.map TransactionRow.id).getD flight.wallet.lastIndexedTransactionId

def move (flight : Flight) (page : List TransactionRow) : WalletRow → WalletRow :=
  if flight.backward then moveFirst (flight.lowest page) else moveLast (flight.highest page)

@[simp] theorem move_id (flight : Flight) (page : List TransactionRow) (w : WalletRow) :
    (flight.move page w).id = w.id := by
  unfold move
  split <;> rfl

@[simp] theorem move_viewingKey (flight : Flight) (page : List TransactionRow) (w : WalletRow) :
    (flight.move page w).viewingKey = w.viewingKey := by
  unfold move
  split <;> rfl

end Flight

/-- The call after it has read the wallet, if there is something to scan. -/
def startScan (call : IndexCall) (wallet : WalletRow) : Option Flight :=
  if wallet.wantedStartIndex < wallet.firstIndexedTransactionId ∨
      wallet.lastIndexedTransactionId < call.maxTransactionId then
    some ⟨call, wallet, none⟩
  else none

variable {db : WalletDb}

namespace WalletEnv

variable (env : WalletEnv)

def queryPage (flight : Flight) (db : WalletDb) : Except Sql.Error (List TransactionRow) :=
  if flight.backward then
    getTransactionsInRange env.backend flight.wallet.wantedStartIndex
      flight.wallet.firstIndexedTransactionId flight.call.batch db
  else getTransactions env.backend (flight.wallet.lastIndexedTransactionId + 1) flight.call.batch db

/-- A forward scan ends at an empty page. -/
def pageEnds (flight : Flight) (page : List TransactionRow) : Bool :=
  !flight.backward && page.isEmpty

def savePage (flight : Flight) (page : List TransactionRow) (db : WalletDb) :
    Except IndexError WalletDb := do
  let relevant ← env.selectRelevant flight.wallet.viewingKey page
  if flight.backward then
    (saveBackwardRelevantTransactions flight.wallet.id relevant (flight.lowest page) db).mapError
      .storage
  else match page.getLast? with
    | none => return db
    | some t =>
      (saveRelevantTransactions flight.call.freshId flight.call.now flight.wallet.viewingKey
        relevant t.id db).mapError .storage

/-- The three statements in a row. -/
def scanAtOnce (call : IndexCall) (wallet : WalletRow) (db : WalletDb) :
    Except IndexError WalletDb :=
  match startScan call wallet with
  | none => .ok db
  | some flight =>
    match env.queryPage flight db with
    | .error error => .error (.storage error)
    | .ok page => if pageEnds flight page then .ok db else env.savePage flight page db

theorem indexWallet_eq {call : IndexCall} {wallet : WalletRow} (lock : call.lock = true)
    (found : db.walletById call.walletId = some wallet) :
    (env.indexWallet call db).map Prod.fst = env.scanAtOnce call wallet db := by
  unfold indexWallet scanAtOnce startScan
  rw [lock, found]
  by_cases gap : wallet.wantedStartIndex < wallet.firstIndexedTransactionId
  · have backward : (Flight.mk call wallet none).backward = true := decide_eq_true gap
    simp only [gap, true_or, if_true, Bool.true_eq_false, if_false, queryPage, pageEnds, savePage,
      backward, Bool.not_true, Bool.false_and, Bool.false_eq_true]
    unfold indexBackward
    cases getTransactionsInRange env.backend wallet.wantedStartIndex
      wallet.firstIndexedTransactionId call.batch db with
    | error _ => rfl
    | ok page =>
      cases selected : env.selectRelevant wallet.viewingKey page with
      | error _ => simp [selected, Except.mapError, Except.map, bind, Except.bind]
      | ok relevant =>
        simp only [selected, Except.mapError, Except.map, bind, Except.bind, pure, Except.pure,
          Flight.lowest]
        cases saveBackwardRelevantTransactions wallet.id relevant _ db <;> rfl
  · have forward : (Flight.mk call wallet none).backward = false := decide_eq_false gap
    by_cases behind : wallet.lastIndexedTransactionId < call.maxTransactionId
    · simp only [gap, behind, or_true, if_true, Bool.true_eq_false, if_false, queryPage, pageEnds,
        savePage, forward, Bool.not_false, Bool.true_and, Bool.false_eq_true]
      unfold indexForward
      cases getTransactions env.backend (wallet.lastIndexedTransactionId + 1) call.batch db with
      | error _ => rfl
      | ok page =>
        cases last : page.getLast? with
        | none =>
          rw [getLast?_eq_none_iff.mp last]
          rfl
        | some t =>
          have nonempty : page.isEmpty = false := by
            cases page with
            | nil => cases last
            | cons _ _ => rfl
          cases selected : env.selectRelevant wallet.viewingKey page with
          | error _ =>
            simp [selected, last, nonempty, Except.mapError, Except.map, bind, Except.bind]
          | ok relevant =>
            simp only [selected, last, nonempty, Except.mapError, Except.map, bind, Except.bind,
              pure, Except.pure, Bool.false_eq_true, if_false]
            cases saveRelevantTransactions call.freshId call.now wallet.viewingKey relevant t.id
              db <;> rfl
    · simp only [gap, behind, or_self, if_false, Bool.true_eq_false]
      rfl

end WalletEnv

structure ReplicaState where
  db : WalletDb
  locks : Uuid → Option Flight

def ReplicaState.empty : ReplicaState := ⟨WalletDb.empty, fun _ => none⟩

/-- The transaction ends, and the lock with it. -/
def ReplicaState.release (s : ReplicaState) (walletId : Uuid) : ReplicaState :=
  { s with locks := Function.update s.locks walletId none }

theorem ReplicaState.release_locks (s : ReplicaState) (walletId other : Uuid) :
    (s.release walletId).locks other = if other = walletId then none else s.locks other :=
  Function.update_apply s.locks walletId none other

inductive ReplicaInput where
  | connect (id : Uuid) (key : ViewingKey) (startIndex : Option Nat) (now : Int)
      (session : SessionId)
  | commit (row : TransactionRow)
  | acquire (call : IndexCall)
  | query (walletId : Uuid)
  | save (walletId : Uuid)
  | drop (walletId : Uuid)

variable (env : WalletEnv)

def acquireStep (call : IndexCall) (s : ReplicaState) : ReplicaState :=
  if call.lock ∧ s.locks call.walletId = none then
    match (s.db.walletById call.walletId).bind (startScan call) with
    | none => s
    | some flight => { s with locks := Function.update s.locks call.walletId (some flight) }
  else s

def queryStep (walletId : Uuid) (s : ReplicaState) : ReplicaState :=
  match s.locks walletId with
  | none => s
  | some flight =>
    match flight.page with
    | some _ => s
    | none =>
      match env.queryPage flight s.db with
      | .error _ => s.release walletId
      | .ok page =>
        if WalletEnv.pageEnds flight page then s.release walletId
        else { s with
          locks := Function.update s.locks walletId (some { flight with page := some page }) }

/-- The page of the call that holds the lock. -/
def ReplicaState.pageOf (s : ReplicaState) (walletId : Uuid) :
    Option (Flight × List TransactionRow) :=
  (s.locks walletId).bind fun flight => flight.page.map fun page => (flight, page)

def saveStep (walletId : Uuid) (s : ReplicaState) : ReplicaState :=
  match s.pageOf walletId with
  | none => s
  | some (flight, page) =>
    match env.savePage flight page s.db with
    | .error _ => s.release walletId
    | .ok saved => { s with db := saved }.release walletId

def replicaStep (s : ReplicaState) : ReplicaInput → ReplicaState
  | .connect id key startIndex now session =>
    { s with db := walletStep env s.db (.connect id key startIndex now session) }
  | .commit row => { s with db := walletStep env s.db (.commit row) }
  | .acquire call => acquireStep call s
  | .query walletId => queryStep env walletId s
  | .save walletId => saveStep env walletId s
  | .drop walletId => s.release walletId

/-! ## What the holder of a lock knows -/

/-- The facts about a queried page that later commits keep. A forward page is only above
the cursor if the start of its query fits the cast. -/
structure PageRead (flight : Flight) (page : List TransactionRow) (db : WalletDb) : Prop where
  stored : ∀ t ∈ page, t ∈ db.transactions ∧ t.isRegular
  unique : (page.map TransactionRow.id).Nodup
  gap : flight.backward = true → flight.wallet.wantedStartIndex ≤ flight.lowest page ∧
    flight.lowest page < flight.wallet.firstIndexedTransactionId ∧
    ∀ t ∈ page, flight.lowest page ≤ t.id ∧ t.id < flight.wallet.firstIndexedTransactionId
  above : flight.backward = false → (∃ t ∈ page, t.id = flight.highest page) ∧
    (flight.wallet.lastIndexedTransactionId + 1 < 2 ^ 63 → ∀ t ∈ page,
      flight.wallet.lastIndexedTransactionId < t.id ∧ t.id ≤ flight.highest page)

variable {env : WalletEnv} {flight : Flight} {page : List TransactionRow} {after : WalletDb}
  {walletId : Uuid}

theorem queryPage_read (ordered : OrderedTransactions db.transactions)
    (column : flight.wallet.firstIndexedTransactionId < 2 ^ 63)
    (queried : env.queryPage flight db = .ok page)
    (goes_on : WalletEnv.pageEnds flight page = false) : PageRead flight page db := by
  unfold WalletEnv.queryPage at queried
  split at queried
  next backward =>
    obtain ⟨low, high, sound, _⟩ :=
      getTransactionsInRange_covers ordered (of_decide_eq_true backward) column queried
    refine ⟨fun t member => ⟨(sound t member).1, (sound t member).2.1⟩,
      Sql.page_nodup (ordered.filter_unique _) queried, fun _ => ⟨low, high, fun t member =>
        (sound t member).2.2⟩, fun forward => ?_⟩
    simp [backward] at forward
  next forward =>
    rw [Bool.not_eq_true] at forward
    have nonempty : page ≠ [] := by
      rintro rfl
      simp [WalletEnv.pageEnds, forward] at goes_on
    have final := getLast?_eq_some_getLast nonempty
    have highest : flight.highest page = (page.getLast nonempty).id := by
      rw [Flight.highest, final]
      rfl
    refine ⟨getTransactions_sound queried, Sql.page_nodup (ordered.filter_unique _) queried,
      fun backward => ?_, fun _ => ⟨⟨_, getLast_mem nonempty, highest.symm⟩, ?_⟩⟩
    · simp [forward] at backward
    · intro fits t member
      rw [highest]
      exact (((getTransactions_covers ordered fits queried final).2.2 t).mp member).2.2

theorem PageRead.mono (read : PageRead flight page db)
    (transactions : ∀ t ∈ db.transactions, t ∈ after.transactions) : PageRead flight page after :=
  { read with
    stored := fun t member => ⟨transactions t (read.stored t member).1, (read.stored t member).2⟩ }

/-- A row whose cursors are as before. A connect may have lowered the wanted start. -/
structure SameCursors (old new : WalletRow) : Prop where
  id : new.id = old.id
  viewingKey : new.viewingKey = old.viewingKey
  first : new.firstIndexedTransactionId = old.firstIndexedTransactionId
  last : new.lastIndexedTransactionId = old.lastIndexedTransactionId
  wanted : new.wantedStartIndex ≤ old.wantedStartIndex

theorem SameCursors.refl (w : WalletRow) : SameCursors w w := ⟨rfl, rfl, rfl, rfl, le_rfl⟩

theorem SameCursors.trans {a b c : WalletRow} (first : SameCursors a b) (second : SameCursors b c) :
    SameCursors a c :=
  ⟨second.id.trans first.id, second.viewingKey.trans first.viewingKey,
    second.first.trans first.first, second.last.trans first.last,
    second.wanted.trans first.wanted⟩

/-- The cursors are as the holder of the lock has read them. -/
structure LockHeld (db : WalletDb) (walletId : Uuid) (flight : Flight) : Prop where
  row : ∃ w, db.walletById walletId = some w ∧ SameCursors flight.wallet w
  read : ∀ page, flight.page = some page → PageRead flight page db

theorem LockHeld.mono (held : LockHeld db walletId flight)
    (transactions : ∀ t ∈ db.transactions, t ∈ after.transactions)
    (row : ∀ w, db.walletById walletId = some w →
      ∃ w', after.walletById walletId = some w' ∧ SameCursors w w') :
    LockHeld after walletId flight := by
  obtain ⟨w, found, same⟩ := held.row
  obtain ⟨w', found', same'⟩ := row w found
  exact ⟨⟨w', found', same.trans same'⟩, fun page queried => (held.read page queried).mono
    transactions⟩

structure Locked (env : WalletEnv) (s : ReplicaState) : Prop where
  tables : WalletTables env s.db
  held : ∀ walletId flight, s.locks walletId = some flight → LockHeld s.db walletId flight

open SameCursors

theorem connectWallet_rows {id : Uuid} {key : ViewingKey} {startIndex : Option Nat} {now : Int}
    {session : SessionId} (success : connectWallet id key startIndex now session db = .ok after)
    {w : WalletRow} (found : db.walletById walletId = some w) :
    ∃ w', after.walletById walletId = some w' ∧ SameCursors w w' := by
  rcases (connectWallet_success success).2 with ⟨_, _, rfl⟩ | ⟨_, _, rfl⟩
  · rw [WalletDb.walletById] at found ⊢
    dsimp only
    rw [lookup_update (f := reconnect (startIndex.getD 0) now session) WalletRow.id
      fun _ => rfl, found]
    refine ⟨_, rfl, ?_⟩
    dsimp only
    split
    · refine ⟨rfl, rfl, rfl, rfl, ?_⟩
      dsimp only [reconnect]
      split <;> omega
    · exact refl w
  · refine ⟨w, ?_, refl w⟩
    rw [WalletDb.walletById] at found ⊢
    rw [lookup_append_singleton, found]
    rfl

/-- Ids and keys are unique, so a wallet is addressed by either. -/
theorem update_viewingKey_eq (tables : WalletTables env db) {w : WalletRow}
    (member : w ∈ db.wallets) (f : WalletRow → WalletRow) :
    update WalletRow.viewingKey w.viewingKey f db.wallets =
      update WalletRow.id w.id f db.wallets := by
  refine map_congr_left fun row listed => ?_
  have same : row.viewingKey = w.viewingKey ↔ row.id = w.id := by
    constructor
    · intro keys
      rw [inj_on_of_nodup_map tables.keys listed member keys]
    · intro ids
      rw [inj_on_of_nodup_map tables.ids listed member ids]
  by_cases hit : row.id = w.id
  · rw [if_pos hit, if_pos (same.mpr hit)]
  · rw [if_neg hit, if_neg (hit ∘ same.mp)]

variable (tables : WalletTables env db) (held : LockHeld db walletId flight)
  (queried : flight.page = some page)

include tables held queried in
/-- Both arms of a save: the cursor moves and the relevant rows are inserted. -/
theorem savePage_eq : env.savePage flight page db =
      (env.selectRelevant flight.wallet.viewingKey page >>= fun relevant =>
        (insertRelevant walletId relevant { db with
          wallets := update WalletRow.id walletId (flight.move page) db.wallets }).mapError
            IndexError.storage) := by
  obtain ⟨w, found, same⟩ := held.row
  obtain ⟨member, own⟩ := lookup_some found
  have id_eq : flight.wallet.id = walletId := same.id.symm.trans own
  unfold WalletEnv.savePage
  congr 1
  funext relevant
  cases direction : flight.backward with
  | true =>
    rw [if_pos rfl, saveBackwardRelevantTransactions, Flight.move, direction, if_pos rfl, id_eq]
    rfl
  | false =>
    obtain ⟨⟨t, t_member, _⟩, _⟩ := (held.read page queried).above direction
    have final := getLast?_eq_some_getLast (ne_nil_of_mem t_member)
    have by_key : db.walletByKey flight.wallet.viewingKey = some w := by
      rw [← same.viewingKey]
      exact tables.walletByKey_of_mem member
    rw [if_neg Bool.false_ne_true, final]
    dsimp only
    rw [saveRelevantTransactions, by_key, Flight.move, direction, if_neg Bool.false_ne_true,
      Flight.highest, final, ← same.viewingKey, ← own, ← update_viewingKey_eq tables member]
    rfl

include tables held queried in
theorem savePage_success (success : env.savePage flight page db = .ok after) :
    ∃ relevant, env.selectRelevant flight.wallet.viewingKey page = .ok relevant ∧ after = { db with
        wallets := update WalletRow.id walletId (flight.move page) db.wallets
        relevantTransactions := db.relevantTransactions ++
          relevant.map fun t => RelevantRow.mk walletId t.id } ∧
      after.relevantTransactions.Nodup := by
  rw [savePage_eq tables held queried] at success
  obtain ⟨relevant, selected, success⟩ := bind_success success
  obtain ⟨rfl, unique⟩ := insertRelevant_success (mapError_success success)
  exact ⟨relevant, selected, rfl, unique⟩

include tables held queried in
theorem savePage_kept (success : env.savePage flight page db = .ok after) :
    WalletTables env after := by
  obtain ⟨relevant, selected, rfl, unique⟩ := savePage_success tables held queried success
  have read := held.read page queried
  obtain ⟨w, found, same⟩ := held.row
  obtain ⟨member, own⟩ := lookup_some found
  have relevant_eq := env.selectRelevant_success selected fun t listed => (read.stored t listed).2
  have inserted : Inserted env w relevant db { db with
      wallets := update WalletRow.id walletId (flight.move page) db.wallets
      relevantTransactions := db.relevantTransactions ++
        relevant.map fun t => RelevantRow.mk walletId t.id } (!relevant.isEmpty) := by
    refine ⟨rfl, by rw [own], ?_, unique, rfl⟩
    intro t listed
    rw [relevant_eq, mem_filter] at listed
    rw [same.viewingKey]
    exact ⟨(read.stored t listed.1).1, listed.2⟩
  refine tables.insert_rows member rfl inserted (Flight.move_id flight page)
    (Flight.move_viewingKey flight page) ?_
  intro row listed hit
  rw [inj_on_of_nodup_map tables.ids listed member (hit.trans own.symm)]
  obtain ⟨low, first, last⟩ := tables.columns w member
  have wanted := same.wanted
  have same_first := same.first
  unfold Flight.move
  split
  next backward =>
    obtain ⟨above_wanted, below_first, _⟩ := read.gap backward
    dsimp only [moveFirst]
    exact ⟨by omega, by omega, last⟩
  next forward =>
    obtain ⟨⟨t, t_member, t_highest⟩, _⟩ := read.above (Bool.not_eq_true _ ▸ forward)
    have column := tables.ordered.column t (read.stored t t_member).1
    dsimp only [moveLast]
    exact ⟨low, first, by omega⟩

namespace Locked

variable {env : WalletEnv} {s : ReplicaState} (locked : Locked env s)

include locked

theorem release (walletId : Uuid) : Locked env (s.release walletId) := by
  refine ⟨locked.tables, fun id flight found => ?_⟩
  rw [ReplicaState.release_locks] at found
  split at found
  · cases found
  · exact locked.held id flight found

/-- The lock is given to a call that has read the tables as they are. -/
theorem hold (held : LockHeld s.db walletId flight) :
    Locked env { s with locks := Function.update s.locks walletId (some flight) } := by
  refine ⟨locked.tables, fun id other found => ?_⟩
  dsimp only at found
  rw [Function.update_apply] at found
  split at found
  next same =>
    cases found
    rw [same]
    exact held
  · exact locked.held id other found

theorem pageOf (found : s.pageOf walletId = some (flight, page)) :
    s.locks walletId = some flight ∧ flight.page = some page ∧ LockHeld s.db walletId flight := by
  obtain ⟨holder, held, queried⟩ := Option.bind_eq_some_iff.mp found
  obtain ⟨_, page_eq, same⟩ := Option.map_eq_some_iff.mp queried
  cases same
  exact ⟨held, page_eq, locked.held walletId flight held⟩

/-- What a save under the lock has written. -/
theorem saved (found : s.pageOf walletId = some (flight, page))
    (success : env.savePage flight page s.db = .ok after) :
    ∃ relevant, env.selectRelevant flight.wallet.viewingKey page = .ok relevant ∧
      after = { s.db with
        wallets := update WalletRow.id walletId (flight.move page) s.db.wallets
        relevantTransactions := s.db.relevantTransactions ++
          relevant.map fun t => RelevantRow.mk walletId t.id } := by
  obtain ⟨_, queried, held⟩ := locked.pageOf found
  obtain ⟨relevant, selected, same, _⟩ := savePage_success locked.tables held queried success
  exact ⟨relevant, selected, same⟩

theorem save (walletId : Uuid) : Locked env (saveStep env walletId s) := by
  unfold saveStep
  split
  · exact locked
  next flight page found =>
    obtain ⟨_, queried, held⟩ := locked.pageOf found
    split
    · exact locked.release walletId
    next saved success =>
      refine ⟨savePage_kept locked.tables held queried success, fun id other holds => ?_⟩
      rw [ReplicaState.release_locks] at holds
      split at holds
      · cases holds
      next different =>
        obtain ⟨_, _, rfl, _⟩ := savePage_success locked.tables held queried success
        refine (locked.held id other holds).mono (fun _ stored => stored) fun w w_found => ?_
        refine ⟨w, ?_, refl w⟩
        rw [WalletDb.walletById] at w_found ⊢
        dsimp only [ReplicaState.release]
        rw [lookup_update WalletRow.id (Flight.move_id flight page), w_found,
          Option.map_some, if_neg]
        rw [(lookup_some w_found).2]
        exact different

theorem step (input : ReplicaInput) : Locked env (replicaStep env s input) := by
  cases input with
  | connect id key startIndex now session =>
    refine ⟨locked.tables.step (.connect id key startIndex now session), fun walletId flight
      found => ?_⟩
    refine (locked.held walletId flight found).mono ?_ ?_
    all_goals
      dsimp only [replicaStep, walletStep]
      split
    next success => exact fun t stored => (connectWallet_frame success).1 ▸ stored
    next => exact fun t stored => stored
    next success => exact fun w w_found => connectWallet_rows success w_found
    next => exact fun w w_found => ⟨w, w_found, refl w⟩
  | commit row =>
    refine ⟨locked.tables.step (.commit row), fun walletId flight found => ?_⟩
    refine (locked.held walletId flight found).mono ?_ ?_
    all_goals
      dsimp only [replicaStep, walletStep]
      rcases commitTransaction_cases row s.db with refused | ⟨_, _, committed⟩
    · rw [refused]
      exact fun t stored => stored
    · rw [committed]
      exact fun t stored => mem_append_left _ stored
    · rw [refused]
      exact fun w w_found => ⟨w, w_found, refl w⟩
    · rw [committed]
      exact fun w w_found => ⟨w, w_found, refl w⟩
  | acquire call =>
    dsimp only [replicaStep, acquireStep]
    split
    · split
      · exact locked
      next flight started =>
        obtain ⟨w, found, begun⟩ := Option.bind_eq_some_iff.mp started
        unfold startScan at begun
        split at begun
        · cases begun
          exact locked.hold ⟨⟨w, found, refl w⟩, by simp⟩
        · cases begun
    · exact locked
  | query walletId =>
    dsimp only [replicaStep, queryStep]
    split
    · exact locked
    next flight holds =>
      split
      · exact locked
      · split
        · exact locked.release walletId
        next page queried =>
          split
          · exact locked.release walletId
          next goes_on =>
            obtain ⟨row, _⟩ := locked.held walletId flight holds
            obtain ⟨w, found, same⟩ := row
            have column := (locked.tables.columns w (lookup_some found).1).2.1
            rw [same.first] at column
            have read := queryPage_read locked.tables.ordered column queried
              (Bool.not_eq_true _ ▸ goes_on)
            refine locked.hold ⟨⟨w, found, same⟩, fun other same_page => ?_⟩
            cases same_page
            exact ⟨read.stored, read.unique, read.gap, read.above⟩
  | save walletId => exact locked.save walletId
  | drop walletId => exact locked.release walletId

end Locked

theorem acquireStep_db (call : IndexCall) (s : ReplicaState) : (acquireStep call s).db = s.db := by
  unfold acquireStep
  split
  · split <;> rfl
  · rfl

theorem queryStep_db (env : WalletEnv) (walletId : Uuid) (s : ReplicaState) :
    (queryStep env walletId s).db = s.db := by
  unfold queryStep
  split
  · rfl
  · split
    · rfl
    · split
      · rfl
      · split <;> rfl

/-- What a step does to the tables: nothing, a connect, a commit of the chain indexer, or a
save under the lock. -/
theorem replicaStep_db (env : WalletEnv) (s : ReplicaState) (input : ReplicaInput) :
    (replicaStep env s input).db = s.db ∨
      (∃ id key startIndex now session, connectWallet id key startIndex now session s.db =
        .ok (replicaStep env s input).db) ∨
      (∃ row, input = .commit row ∧ (replicaStep env s input).db =
        { s.db with transactions := s.db.transactions ++ [row] }) ∨
      ∃ walletId flight page, input = .save walletId ∧ s.pageOf walletId = some (flight, page) ∧
        env.savePage flight page s.db = .ok (replicaStep env s input).db := by
  cases input with
  | connect id key startIndex now session =>
    dsimp only [replicaStep, walletStep]
    cases success : connectWallet id key startIndex now session s.db with
    | error _ => exact .inl rfl
    | ok after => exact .inr (.inl ⟨id, key, startIndex, now, session, success⟩)
  | commit row =>
    rcases commitTransaction_cases row s.db with refused | ⟨_, _, committed⟩
    · exact .inl refused
    · exact .inr (.inr (.inl ⟨row, rfl, committed⟩))
  | acquire call => exact .inl (acquireStep_db call s)
  | query walletId => exact .inl (queryStep_db env walletId s)
  | save walletId =>
    dsimp only [replicaStep]
    unfold saveStep
    split
    · exact .inl rfl
    next flight page found =>
      split
      · exact .inl rfl
      next saved success =>
        exact .inr (.inr (.inr ⟨walletId, flight, page, rfl, found, success⟩))
  | drop walletId => exact .inl rfl

/-- The holders of locks know the cursors in every run. -/
theorem locked_run (env : WalletEnv) (inputs : List ReplicaInput) :
    Locked env (run (replicaStep env) ReplicaState.empty inputs) :=
  run_keeps (fun _ input locked => locked.step input) _ inputs ⟨walletTables_empty env, nofun⟩

end MidnightIndexer.Source
