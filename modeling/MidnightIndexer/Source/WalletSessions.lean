import MidnightIndexer.Lib.Bytes
import MidnightIndexer.Source.WalletIndexer

/-!
# Wallet sessions

indexer-api/src/infra/storage/wallet.rs:74-128, the `disconnect` mutation of
indexer-api/src/infra/api/v4/mutation.rs:81-103, `decode_session_id` of
indexer-api/src/infra/api/v4.rs:514-527 and the statement with which
wallet-indexer/src/infra/storage.rs:263-345 ends the sessions of inactive wallets.
A session is the value of the unique column `session_id` of a wallet;
`connect_wallet` is modelled with the wallet indexer. A statement that fails
changes nothing and is left out.
-/

namespace MidnightIndexer.Source.WalletSessions

open Lib

/-- `ApiError`, with the message that the client gets. -/
inductive ApiError where
  | client (message : String)
  | server (message : String)
  deriving DecidableEq, Repr

/-! ## Session ids from clients -/

abbrev HexEncoded := List Char

def hexDigit (c : Char) : Option Nat :=
  if '0' ≤ c ∧ c ≤ '9' then some (c.toNat - '0'.toNat)
  else if 'a' ≤ c ∧ c ≤ 'f' then some (c.toNat - 'a'.toNat + 10)
  else if 'A' ≤ c ∧ c ≤ 'F' then some (c.toNat - 'A'.toNat + 10)
  else none

def hexBytes : List Char → Option (List UInt8)
  | [] => some []
  | [_] => none
  | high :: low :: rest => do
    let high ← hexDigit high
    let low ← hexDigit low
    let bytes ← hexBytes rest
    return UInt8.ofNat (16 * high + low) :: bytes

/-- `const_hex::decode`, which skips a prefix `0x`. -/
def hexDecode : HexEncoded → Option (List UInt8)
  | '0' :: 'x' :: digits => hexBytes digits
  | digits => hexBytes digits

inductive DecodeSessionIdError where
  | hexDecode
  | byteArrayLen (length : Nat)
  deriving DecidableEq, Repr

/-- `decode_session_id`: 32 bytes. -/
def decodeSessionId (sessionId : HexEncoded) : Except DecodeSessionIdError SessionId :=
  match hexDecode sessionId with
  | none => .error .hexDecode
  | some bytes =>
    if bytes.length = 32 then .ok (BitVec.ofNat 256 (Bytes.leNat bytes))
    else .error (.byteArrayLen bytes.length)

/-! ## Storage -/

def clearSession (wallet : WalletRow) : WalletRow := { wallet with sessionId := none }

/-- `UPDATE wallets SET session_id = NULL WHERE session_id = $1`. -/
def disconnectWallet (session : SessionId) (db : WalletDb) : WalletDb :=
  { db with wallets := Table.update WalletRow.sessionId (some session) clearSession db.wallets }

def resolveSessionId (session : SessionId) (db : WalletDb) : Option Uuid :=
  (Table.lookup WalletRow.sessionId (some session) db.wallets).map WalletRow.id

/-- `UPDATE wallets SET last_active = $1 WHERE id = $2 AND session_id IS NOT NULL`. -/
def keepWalletActive (walletId : Uuid) (now : Int) (db : WalletDb) : WalletDb :=
  { db with
    wallets := db.wallets.map fun wallet =>
      if wallet.id = walletId ∧ wallet.sessionId.isSome then { wallet with lastActive := now }
      else wallet }

/-- `UPDATE wallets SET session_id = NULL WHERE id = ANY($1) AND last_active < $2`. -/
def clearOutdated (ids : List Uuid) (minLastActive : Int) (db : WalletDb) : WalletDb :=
  { db with
    wallets := db.wallets.map fun wallet =>
      if ids.contains wallet.id ∧ wallet.lastActive < minLastActive then clearSession wallet
      else wallet }

/-- The `disconnect` mutation up to its second statement, `disconnect_wallet`. -/
def resolveDisconnect (sessionId : HexEncoded) (db : WalletDb) : Except ApiError SessionId :=
  match decodeSessionId sessionId with
  | .error _ => .error (.client "invalid session ID")
  | .ok session =>
    match resolveSessionId session db with
    | none => .error (.client "unknown or expired session ID")
    | some _ => .ok session

end MidnightIndexer.Source.WalletSessions
