import MidnightIndexer.Source.WalletSessions

/-!
# `active_wallet_ids` beside the API

wallet-indexer/src/infra/storage.rs:263-345. The function selects the wallets with
a session, then reads the clock, then clears the sessions of the outdated ones: with
PostgreSQL in one statement, with SQLite in one for each wallet. A statement that
ends in a deadlock or finds the writer busy is passed over. Each statement is
atomic. `connect_wallet`, `keep_wallet_active` and `disconnect_wallet` are one
statement each, with the time at which it is made. Any number of calls runs side by
side; the clock never goes back.
-/

namespace MidnightIndexer.Source.ActiveWallets

open Lib WalletSessions

/-- After the query; after the clock has been read, with the ids of each `UPDATE`
still to be made; returned. -/
inductive Phase where
  | selected
  | clearing (now : Int) (statements : List (List Uuid))
  | returned (ids : List Uuid)

structure ActiveCall where
  ttl : Nat
  wallets : List (Uuid × Int)
  phase : Phase

structure PollState where
  db : WalletDb
  clock : Int
  calls : List ActiveCall

def PollState.started (db : WalletDb) (clock : Int) : PollState := ⟨db, clock, []⟩

inductive PollInput where
  | tick (time : Int)
  | connect (id : Uuid) (key : ViewingKey) (startIndex : Option Nat) (session : SessionId)
  | keepActive (walletId : Uuid)
  | disconnect (session : SessionId)
  | select (ttl : Nat)
  | readClock (call : Nat)
  | clear (call : Nat)
  | passOver (call : Nat)
  | finish (call : Nat)

/-- `SELECT id, last_active FROM wallets WHERE session_id IS NOT NULL`. -/
def selectWallets (db : WalletDb) : List (Uuid × Int) :=
  (db.wallets.filter fun wallet => wallet.sessionId.isSome).map fun wallet =>
    (wallet.id, wallet.lastActive)

def outdatedIds (minLastActive : Int) (wallets : List (Uuid × Int)) : List Uuid :=
  (wallets.filter fun wallet => wallet.2 < minLastActive).map Prod.fst

def recentIds (minLastActive : Int) (wallets : List (Uuid × Int)) : List Uuid :=
  (wallets.filter fun wallet => minLastActive ≤ wallet.2).map Prod.fst

/-- The updates that clear the sessions. -/
def clearStatements (backend : Sql.Backend) (outdated : List Uuid) : List (List Uuid) :=
  match backend with
  | .postgres => if outdated.isEmpty then [] else [outdated]
  | .sqlite => outdated.map fun id => [id]

namespace PollState

variable (s : PollState)

def advance (call : Nat) (phase : Phase) : List ActiveCall :=
  s.calls.modify call fun c => { c with phase := phase }

def step (backend : Sql.Backend) : PollInput → PollState
  | .tick time => { s with clock := max s.clock time }
  | .connect id key startIndex session =>
    match connectWallet id key startIndex s.clock session s.db with
    | .ok after => { s with db := after }
    | .error _ => s
  | .keepActive walletId => { s with db := keepWalletActive walletId s.clock s.db }
  | .disconnect session => { s with db := disconnectWallet session s.db }
  | .select ttl => { s with calls := s.calls ++ [⟨ttl, selectWallets s.db, .selected⟩] }
  | .readClock call =>
    match s.calls[call]? with
    | some ⟨ttl, wallets, .selected⟩ =>
      { s with calls := s.advance call (.clearing s.clock
          (clearStatements backend (outdatedIds (s.clock - ttl) wallets))) }
    | _ => s
  | .clear call =>
    match s.calls[call]? with
    | some ⟨ttl, _, .clearing now (ids :: rest)⟩ =>
      { s with
        db := clearOutdated ids (now - ttl) s.db
        calls := s.advance call (.clearing now rest) }
    | _ => s
  | .passOver call =>
    match s.calls[call]? with
    | some ⟨_, _, .clearing now (_ :: rest)⟩ =>
      { s with calls := s.advance call (.clearing now rest) }
    | _ => s
  | .finish call =>
    match s.calls[call]? with
    | some ⟨ttl, wallets, .clearing now []⟩ =>
      { s with calls := s.advance call (.returned (recentIds (now - ttl) wallets)) }
    | _ => s

end PollState

end MidnightIndexer.Source.ActiveWallets
