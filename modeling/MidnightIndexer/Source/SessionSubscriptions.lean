import MidnightIndexer.Source.ShieldedSubscription
import MidnightIndexer.Source.WalletSessions

/-!
# Sessions and the subscriptions opened with them

indexer-api/src/infra/api/v4/subscription/shielded.rs:135-250, with the statements
of indexer-api/src/infra/storage/wallet.rs and mutation.rs:81-103. A subscription
resolves its session once, when it is opened, and keeps the wallet id; each query
of `get_relevant_transactions` then only asks that the wallet has a session. Any
number of subscriptions runs beside connects, disconnects, expiries and the wallet
indexer; a disconnect is two statements.
-/

namespace MidnightIndexer.Source.SessionSubscriptions

open Lib WalletSessions

/-- A subscription, the session it was opened with and the events it has not
taken yet. -/
structure Opened where
  session : SessionId
  params : ShieldedParams
  events : List Uuid
  sub : Subscription

/-- `disconnecting` are the sessions that a disconnect has resolved and not yet
ended, `revoked` those that a disconnect has ended or a connect has replaced. -/
structure SessionState where
  db : WalletDb
  pending : List Uuid
  disconnecting : List SessionId
  subscriptions : List Opened
  revoked : List SessionId

def SessionState.started (db : WalletDb) : SessionState := ⟨db, [], [], [], []⟩

inductive SessionInput where
  | connect (id : Uuid) (key : ViewingKey) (startIndex : Option Nat) (now : Int)
      (session : SessionId)
  | commit (row : TransactionRow)
  | index (call : IndexCall)
  | publish (walletId : Uuid)
  | resolveDisconnect (sessionId : HexEncoded)
  | disconnect (session : SessionId)
  | expire (ids : List Uuid) (minLastActive : Int)
  | keepActive (walletId : Uuid) (now : Int)
  | subscribe (sessionId : HexEncoded) (index : Nat) (batchSize : NonZeroU32)
  | poll (position : Nat)

/-- The session that a connect with the key puts another one in place of. -/
def replacedBy (key : ViewingKey) (session : SessionId) (db : WalletDb) : List SessionId :=
  match (db.walletByKey key).bind WalletRow.sessionId with
  | some old => if old = session then [] else [old]
  | none => []

/-- The sessions that the input ends, by a disconnect or a new connect. -/
def SessionState.revokes (s : SessionState) : SessionInput → List SessionId
  | .connect id key startIndex now session =>
    match connectWallet id key startIndex now session s.db with
    | .ok _ => replacedBy key session s.db
    | .error _ => []
  | .disconnect session => if session ∈ s.disconnecting then [session] else []
  | _ => []

def Opened.poll (db : WalletDb) (opened : Opened) : Opened :=
  let (events, sub) := Source.poll opened.params db opened.events opened.sub
  { opened with events := events, sub := sub }

/-- What the input does to all but `revoked`. -/
def SessionState.move (env : WalletEnv) (s : SessionState) : SessionInput → SessionState
  | .connect id key startIndex now session =>
    { s with db := walletStep env s.db (.connect id key startIndex now session) }
  | .commit row => { s with db := walletStep env s.db (.commit row) }
  | .index call =>
    match env.indexWallet call s.db with
    | .ok (after, published) =>
      { s with
        db := after
        pending := if published then call.walletId :: s.pending else s.pending }
    | .error _ => s
  | .publish walletId =>
    if s.pending.contains walletId then
      { s with
        pending := s.pending.erase walletId
        subscriptions := s.subscriptions.map fun opened =>
          { opened with events := opened.events ++ [walletId] } }
    else s
  | .resolveDisconnect sessionId =>
    match resolveDisconnect sessionId s.db with
    | .ok session => { s with disconnecting := session :: s.disconnecting }
    | .error _ => s
  | .disconnect session =>
    if session ∈ s.disconnecting then
      { s with
        db := disconnectWallet session s.db
        disconnecting := s.disconnecting.erase session }
    else s
  | .expire ids minLastActive => { s with db := clearOutdated ids minLastActive s.db }
  | .keepActive walletId now => { s with db := keepWalletActive walletId now s.db }
  | .subscribe sessionId index batchSize =>
    match decodeSessionId sessionId with
    | .error _ => s
    | .ok session =>
      match resolveSessionId session s.db with
      | none => s
      | some walletId =>
        let params : ShieldedParams := ⟨walletId, index, batchSize⟩
        { s with subscriptions := s.subscriptions ++ [⟨session, params, [], params.start⟩] }
  | .poll position => { s with subscriptions := s.subscriptions.modify position (Opened.poll s.db) }

def sessionStep (env : WalletEnv) (s : SessionState) (input : SessionInput) : SessionState :=
  { s.move env input with revoked := s.revokes input ++ s.revoked }

end MidnightIndexer.Source.SessionSubscriptions
