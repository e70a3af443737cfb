import MidnightIndexer.Source.ShieldedSubscription
import MidnightIndexer.Source.WalletTables

/-!
# The reader's side of a shielded subscription

The subscription only ever reads upwards: later queries start at its position,
the end index of the last row it has read. The rows read are at every moment
exactly the wallet's rows between the requested index and the position, and
whatever lies above is announced by an event that is still to be published or
taken. Each lemma below is one thing that can happen to the reader.
-/

namespace MidnightIndexer.Guarantees

open Lib List Source RelevantTransaction

namespace ShieldedDelivery

/-- Later queries start here. -/
def position (sub : Subscription) : Nat :=
  match sub.phase with
  | .streaming cursor _ => cursor
  | .waiting => sub.index

def buffer (sub : Subscription) : List RegularTransaction :=
  match sub.phase with
  | .streaming _ buffer => buffer
  | .waiting => []

/-- Rows read from the tables, handed on or not. -/
def readRows (sub : Subscription) : List RegularTransaction :=
  sub.delivered.map RelevantTransaction.transaction ++ buffer sub

/-- The transaction is not one the subscription has asked for and moved past. -/
def NotPassed (params : ShieldedParams) (sub : Subscription) (row : TransactionRow) : Prop :=
  ∀ r ∈ row.regular, ¬ (params.index ≤ r.zswapStartIndex ∧ r.zswapStartIndex < position sub)

/-- Zswap ranges of committed transactions follow each other. -/
structure RangesChained (transactions : List TransactionRow) : Prop where
  within : ∀ t ∈ transactions, ∀ r ∈ t.regular,
    r.zswapStartIndex ≤ r.zswapEndIndex ∧ r.zswapEndIndex < 2 ^ 63
  chained : ∀ a ∈ transactions, ∀ b ∈ transactions, a.id < b.id →
    ∀ r ∈ a.regular, ∀ q ∈ b.regular, r.zswapEndIndex ≤ q.zswapStartIndex

/-- The wallet's rows lie at or below its forward cursor, and its session is
open. -/
structure WalletReady (db : WalletDb) (wallet : WalletRow) : Prop where
  cursors : wallet.firstIndexedTransactionId ≤ wallet.lastIndexedTransactionId
  recorded : ∀ n, RelevantRow.mk wallet.id n ∈ db.relevantTransactions →
    n ≤ wallet.lastIndexedTransactionId
  session : wallet.sessionId.isSome

structure ReaderInvariant (params : ShieldedParams) (db : WalletDb) (pending events : List Uuid)
    (sub : Subscription) : Prop where
  low : params.index ≤ position sub
  fits : position sub < 2 ^ 63
  reached : position sub = params.index ∨
    ∃ t ∈ db.walletTransactions params.walletId, t.zswapEndIndex = position sub
  read : ∀ t, t ∈ readRows sub ↔ t ∈ db.walletTransactions params.walletId ∧
    params.index ≤ t.zswapStartIndex ∧ t.zswapStartIndex < position sub
  once : (readRows sub).Nodup
  index : buffer sub = [] → sub.index = position sub
  final : ∀ last ∈ (buffer sub).getLast?, last.zswapEndIndex = position sub
  announced : sub.phase = .waiting →
    (∃ t ∈ db.walletTransactions params.walletId, position sub ≤ t.zswapStartIndex) →
    params.walletId ∈ pending ∨ params.walletId ∈ events

variable {env : WalletEnv} {params : ShieldedParams} {db after : WalletDb}
  {pending events : List Uuid} {sub : Subscription} {published : Bool}
  {relevant : List TransactionRow} {wallet : WalletRow}

namespace WalletReady

variable (chosen : Uuid → Prop)
  (tables : WalletTables env db) (ready : ∀ w ∈ db.wallets, chosen w.id → WalletReady db w)

include tables ready in
theorem connect {id : Uuid} {key : ViewingKey} {startIndex : Option Nat} {now : Int}
    {session : SessionId} (success : connectWallet id key startIndex now session db = .ok after) :
    ∀ w ∈ after.wallets, chosen w.id → WalletReady after w := by
  rcases (connectWallet_success success).2 with ⟨_, _, rfl⟩ | ⟨_, fresh, rfl⟩
  · intro w stored own
    obtain ⟨old, old_stored, rfl⟩ := Table.mem_update.mp stored
    by_cases hit : old.viewingKey = key
    · rw [if_pos hit] at own ⊢
      obtain ⟨cursors, recorded, _⟩ := ready old old_stored own
      exact ⟨cursors, recorded, rfl⟩
    · rw [if_neg hit] at own ⊢
      obtain ⟨cursors, recorded, session⟩ := ready old old_stored own
      exact ⟨cursors, recorded, session⟩
  · intro w stored own
    rcases mem_append.mp stored with old | new
    · obtain ⟨cursors, recorded, session⟩ := ready w old own
      exact ⟨cursors, recorded, session⟩
    · rw [mem_singleton.mp new]
      refine ⟨le_refl _, fun n recorded => ?_, rfl⟩
      obtain ⟨owner, owner_stored, same, _⟩ := tables.sound _ recorded
      exact absurd same (fresh owner owner_stored)

include tables ready in
/-- An indexing step of either arm moves a cursor of one wallet and inserts rows of it
at or below its forward cursor. -/
theorem insert {κ : Type} [DecidableEq κ] {column : WalletRow → κ} {f : WalletRow → WalletRow}
    (unique : (db.wallets.map column).Nodup) (member : wallet ∈ db.wallets)
    (wallets : after.wallets = Table.update column (column wallet) f db.wallets)
    (inserted : Inserted env wallet relevant db after published) (id_same : ∀ w, (f w).id = w.id)
    (session_same : ∀ w, (f w).sessionId = w.sessionId)
    (moved : chosen wallet.id → WalletReady db wallet →
      (f wallet).firstIndexedTransactionId ≤ (f wallet).lastIndexedTransactionId ∧
      wallet.lastIndexedTransactionId ≤ (f wallet).lastIndexedTransactionId ∧
      ∀ t ∈ relevant, t.id ≤ (f wallet).lastIndexedTransactionId) :
    ∀ w ∈ after.wallets, chosen w.id → WalletReady after w := by
  intro w stored own
  rw [wallets] at stored
  obtain ⟨old, old_stored, rfl⟩ := Table.mem_update.mp stored
  by_cases hit : column old = column wallet
  · cases inj_on_of_nodup_map unique old_stored member hit
    rw [if_pos rfl] at own ⊢
    rw [id_same] at own
    have before := ready wallet member own
    obtain ⟨cursors, further, below⟩ := moved own before
    refine ⟨cursors, fun n recorded => ?_, session_same wallet ▸ before.session⟩
    rw [id_same] at recorded
    simp only [inserted.rows, mem_append, mem_map] at recorded
    rcases recorded with old | ⟨t, listed, same⟩
    · exact (before.recorded n old).trans further
    · rw [← (RelevantRow.mk.inj same).2]
      exact below t listed
  · rw [if_neg hit] at own ⊢
    obtain ⟨cursors, recorded, session⟩ := ready old old_stored own
    refine ⟨cursors, fun n row => ?_, session⟩
    simp only [inserted.rows, mem_append, mem_map] at row
    rcases row with before | ⟨t, _, same⟩
    · exact recorded n before
    · have same_wallet := inj_on_of_nodup_map tables.ids member old_stored
        (RelevantRow.mk.inj same).1
      exact absurd (same_wallet ▸ rfl) hit

theorem backward (ready : WalletReady db wallet) {batch : NonZeroUsize} {first : Nat}
    (effect : BackwardEffect env wallet batch db after published first relevant) :
    (moveFirst first wallet).firstIndexedTransactionId ≤
        (moveFirst first wallet).lastIndexedTransactionId ∧
      wallet.lastIndexedTransactionId ≤ (moveFirst first wallet).lastIndexedTransactionId ∧
      ∀ t ∈ relevant, t.id ≤ (moveFirst first wallet).lastIndexedTransactionId := by
  have cursors := ready.cursors
  refine ⟨effect.high.le.trans cursors, le_refl _, fun t listed => ?_⟩
  exact (effect.bounds t listed).2.le.trans cursors

theorem forward (ready : WalletReady db wallet) {last : Nat}
    (fits : wallet.lastIndexedTransactionId + 1 < 2 ^ 63)
    (effect : ForwardEffect env wallet db after published last relevant) :
    (moveLast last wallet).firstIndexedTransactionId ≤
        (moveLast last wallet).lastIndexedTransactionId ∧
      wallet.lastIndexedTransactionId ≤ (moveLast last wallet).lastIndexedTransactionId ∧
      ∀ t ∈ relevant, t.id ≤ (moveLast last wallet).lastIndexedTransactionId := by
  obtain ⟨further, covers⟩ := effect.covers fits
  refine ⟨ready.cursors.trans further.le, further.le, fun t listed => ?_⟩
  exact Nat.le_of_lt_succ ((covers t).mp listed).2.2.2

end WalletReady

variable {t s : RegularTransaction} {walletId : Uuid}

theorem walletTransactions_row (member : t ∈ db.walletTransactions walletId) :
    ∃ row ∈ db.transactions, RelevantRow.mk walletId row.id ∈ db.relevantTransactions ∧
      t.id = row.id ∧ ⟨t.zswapStartIndex, t.zswapEndIndex⟩ ∈ row.regular := by
  obtain ⟨row, stored, recorded, regular⟩ := mem_walletTransactions.mp member
  exact ⟨row, stored, recorded, toRegular_some regular⟩

variable (chain : RangesChained db.transactions) (left : s ∈ db.walletTransactions walletId)
  (right : t ∈ db.walletTransactions walletId) (less : s.id < t.id)

include chain left right less in
theorem RangesChained.walletTransactions_end : s.zswapEndIndex ≤ t.zswapStartIndex := by
  obtain ⟨a, a_stored, _, a_id, a_range⟩ := walletTransactions_row left
  obtain ⟨b, b_stored, _, b_id, b_range⟩ := walletTransactions_row right
  exact chain.chained a a_stored b b_stored (by omega) _ a_range _ b_range

include chain left right less in
theorem RangesChained.walletTransactions_start : s.zswapStartIndex ≤ t.zswapStartIndex := by
  obtain ⟨a, a_stored, _, _, a_range⟩ := walletTransactions_row left
  exact (chain.within a a_stored _ a_range).1.trans (chain.walletTransactions_end left right less)

theorem mem_walletTransactions_inserted (tables : WalletTables env db)
    (inserted : Inserted env wallet relevant db after published) :
    t ∈ after.walletTransactions walletId ↔ t ∈ db.walletTransactions walletId ∨
      wallet.id = walletId ∧ ∃ row ∈ relevant, row.toRegular = some t := by
  simp only [mem_walletTransactions, inserted.transactions, inserted.rows, mem_append]
  constructor
  · rintro ⟨row, stored, old | new, regular⟩
    · exact .inl ⟨row, stored, old, regular⟩
    · obtain ⟨chosen, member, same⟩ := mem_map.mp new
      obtain ⟨own, same_id⟩ := RelevantRow.mk.inj same
      have same_row := inj_on_of_nodup_map tables.ordered.unique (inserted.sound chosen member).1
        stored same_id
      exact .inr ⟨own, row, same_row ▸ member, regular⟩
  · rintro (⟨row, stored, old, regular⟩ | ⟨rfl, row, member, regular⟩)
    · exact ⟨row, stored, .inl old, regular⟩
    · exact ⟨row, (inserted.sound row member).1,
        .inr (mem_map_of_mem member), regular⟩

namespace ReaderInvariant

variable {index cursor : Nat} {delivered : List RelevantTransaction} {last : RegularTransaction}

theorem yield {rest : List RegularTransaction} (reader : ReaderInvariant params db pending events
      ⟨index, .streaming cursor (t :: rest), delivered⟩) : ReaderInvariant params db pending events
      ⟨t.zswapEndIndex, .streaming cursor rest, delivered ++ [makeRelevantTransaction index t]⟩ := by
  have rows_eq : readRows ⟨t.zswapEndIndex, .streaming cursor rest,
      delivered ++ [makeRelevantTransaction index t]⟩ =
      readRows ⟨index, .streaming cursor (t :: rest), delivered⟩ := by
    simp [readRows, buffer, makeRelevantTransaction]
  refine ⟨reader.low, reader.fits, reader.reached, ?_, ?_, fun empty => ?_, fun last found => ?_,
    nofun⟩
  · rw [rows_eq]
    exact reader.read
  · rw [rows_eq]
    exact reader.once
  · have empty : rest = [] := empty
    exact reader.final t (by simp [buffer, empty])
  · have found : last ∈ rest.getLast? := found
    refine reader.final last ?_
    rw [buffer, getLast?_cons, Option.mem_def.mp found]
    rfl

/-- The end index of a row separates the rows up to it from those behind it. -/
theorem end_separates (tables : WalletTables env db) (chain : RangesChained db.transactions)
    (stored : last ∈ db.walletTransactions walletId)
    (advances : last.zswapStartIndex < last.zswapEndIndex)
    (member : t ∈ db.walletTransactions walletId) :
    t.id ≤ last.id ↔ t.zswapStartIndex < last.zswapEndIndex := by
  constructor
  · intro le
    rcases Nat.lt_or_eq_of_le le with less | same
    · have before := chain.walletTransactions_start member stored less
      omega
    · have unique := walletTransactions_unique tables.ordered.unique walletId
      rw [inj_on_of_nodup_map unique member stored same]
      exact advances
  · intro below
    refine Nat.le_of_not_lt fun less => ?_
    have behind := chain.walletTransactions_end stored member less
    omega

theorem fetch {page : List RegularTransaction} (tables : WalletTables env db)
    (chain : RangesChained db.transactions)
    (reader : ReaderInvariant params db pending events ⟨index, .streaming cursor [], delivered⟩)
    (final : page.getLast? = some last) (unique : page.Nodup)
    (page_iff : ∀ t, t ∈ page ↔ t ∈ db.walletTransactions params.walletId ∧
      cursor ≤ t.zswapStartIndex ∧ t.id ≤ last.id)
    (advances : last.zswapStartIndex < last.zswapEndIndex) :
    ReaderInvariant params db pending events
      ⟨index, .streaming last.zswapEndIndex page, delivered⟩ := by
  obtain ⟨stored, above, _⟩ := (page_iff last).mp (mem_of_getLast? final)
  have low : params.index ≤ cursor := reader.low
  have read : ∀ t, t ∈ delivered.map transaction ↔
      t ∈ db.walletTransactions params.walletId ∧ params.index ≤ t.zswapStartIndex ∧
        t.zswapStartIndex < cursor := by
    simpa [readRows, buffer, position] using reader.read
  have once : (delivered.map transaction).Nodup := by
    simpa [readRows, buffer] using reader.once
  have last_column : last.zswapEndIndex < 2 ^ 63 := by
    obtain ⟨row, row_stored, _, _, range⟩ := walletTransactions_row stored
    exact (chain.within row row_stored _ range).2
  have cut : ∀ t ∈ db.walletTransactions params.walletId,
      t.id ≤ last.id ↔ t.zswapStartIndex < last.zswapEndIndex :=
    fun t member => end_separates tables chain stored advances member
  refine ⟨?_, last_column, .inr ⟨last, stored, rfl⟩, fun t => ?_, ?_, fun empty => ?_, ?_,
    nofun⟩
  · change params.index ≤ last.zswapEndIndex
    omega
  · change t ∈ delivered.map transaction ++ page ↔ _ ∧ _ ∧ t.zswapStartIndex < last.zswapEndIndex
    rw [mem_append, read, page_iff]
    constructor
    · rintro (⟨member, low, below⟩ | ⟨member, from_cursor, le⟩)
      · exact ⟨member, low, by omega⟩
      · exact ⟨member, by omega, (cut t member).mp le⟩
    · rintro ⟨member, low, below⟩
      rcases Nat.lt_or_ge t.zswapStartIndex cursor with before | from_cursor
      · exact .inl ⟨member, low, before⟩
      · exact .inr ⟨member, from_cursor, (cut t member).mpr below⟩
  · change (delivered.map transaction ++ page).Nodup
    refine nodup_append.mpr ⟨once, unique, ?_⟩
    rintro a a_read b b_page rfl
    have before := ((read a).mp a_read).2.2
    have from_cursor := ((page_iff a).mp b_page).2.1
    omega
  · have empty : page = [] := empty
    simp [empty] at final
  · intro other found
    have found : page.getLast? = some other := found
    cases final.symm.trans found
    rfl

/-- An empty page ends the stream: nothing is left behind the position. -/
theorem finish
    (reader : ReaderInvariant params db pending events ⟨index, .streaming cursor [], delivered⟩)
    (exhausted : ∀ t ∈ db.walletTransactions params.walletId, t.zswapStartIndex < cursor) :
    ReaderInvariant params db pending events ⟨index, .waiting, delivered⟩ := by
  have index_eq : index = cursor := reader.index rfl
  subst index_eq
  refine ⟨reader.low, reader.fits, reader.reached, reader.read, reader.once, fun _ => rfl,
    reader.final, ?_⟩
  rintro - ⟨t, member, behind⟩
  exact absurd (exhausted t member) (not_lt.mpr behind)

theorem restart {later : List Uuid}
    (reader : ReaderInvariant params db pending events ⟨index, .waiting, delivered⟩) :
    ReaderInvariant params db pending later ⟨index, .streaming index [], delivered⟩ :=
  ⟨reader.low, reader.fits, reader.reached, reader.read, reader.once, fun _ => rfl, reader.final,
    nofun⟩

variable (reader : ReaderInvariant params db pending events sub)

include reader

/-- Only the announcements depend on the events in flight. -/
theorem announce {pending' events'} (kept : params.walletId ∈ pending ∨ params.walletId ∈ events →
      params.walletId ∈ pending' ∨ params.walletId ∈ events') :
    ReaderInvariant params db pending' events' sub :=
  { reader with announced := fun waiting behind => kept (reader.announced waiting behind) }

theorem congr
    (same : after.walletTransactions params.walletId = db.walletTransactions params.walletId) :
    ReaderInvariant params after pending events sub := by
  obtain ⟨low, fits, reached, read, once, index, final, announced⟩ := reader
  rw [← same] at reached announced
  simp only [← same] at read
  exact ⟨low, fits, reached, read, once, index, final, announced⟩

/-- New rows, none of them already passed, leave what has been read exact. -/
theorem insert (tables : WalletTables env db)
    (inserted : Inserted env wallet relevant db after published)
    (ahead : wallet.id = params.walletId → ∀ t ∈ relevant, NotPassed params sub t) :
    ReaderInvariant params after (if published then wallet.id :: pending else pending) events
      sub := by
  have grown : ∀ t, t ∈ after.walletTransactions params.walletId ↔ _ :=
    fun _ => mem_walletTransactions_inserted tables inserted
  refine ⟨reader.low, reader.fits, ?_, fun t => ?_, reader.once, reader.index, reader.final, ?_⟩
  · refine reader.reached.imp_right ?_
    rintro ⟨t, member, same⟩
    exact ⟨t, (grown t).mpr (.inl member), same⟩
  · rw [reader.read t, grown t]
    constructor
    · rintro ⟨old, inside⟩
      exact ⟨.inl old, inside⟩
    · rintro ⟨old | ⟨own, row, chosen, regular⟩, inside⟩
      · exact ⟨old, inside⟩
      · exact absurd inside (ahead own row chosen _ (toRegular_some regular).2)
  · rintro waiting ⟨t, member, behind⟩
    rcases (grown t).mp member with old | ⟨own, row, chosen, _⟩
    · rcases reader.announced waiting ⟨t, old, behind⟩ with outstanding | in_flight
      · refine .inl ?_
        split
        · exact mem_cons_of_mem _ outstanding
        · exact outstanding
      · exact .inr in_flight
    · have announced : published = true := by
        rw [inserted.announced]
        simpa using ne_nil_of_mem chosen
      simp [announced, own]

end ReaderInvariant

end ShieldedDelivery

end MidnightIndexer.Guarantees
