import MidnightIndexer.Source.ProtocolVersion

/-!
# Relevance of a ledger transaction to a viewing key

indexer-common/src/domain/ledger/transaction.rs:249-305 and 359-380, and
wallet-indexer/src/domain.rs:41-50. Deserialization, the secret key
representation and decryption live in the ledger crates and are the fields of
`LedgerCodec`. The V8 and V9 arms of the source differ in their types only.
-/

namespace MidnightIndexer.Source

/-- 32 secret bytes. -/
abbrev ViewingKey := BitVec 256

/-- `Offer` of the zswap crates: what `can_decrypt` reads of it. An output or
a transient without ciphertext is `none`. -/
structure Offer (Ciphertext : Type) where
  outputs : List (Option Ciphertext)
  transient : List (Option Ciphertext)
  deriving DecidableEq, Repr

/-- A deserialized transaction; `fallibleCoins` maps segments to offers. -/
inductive LedgerTransaction (Ciphertext : Type) where
  | standard (guaranteedCoins : Option (Offer Ciphertext))
      (fallibleCoins : List (Nat × Offer Ciphertext))
  | claimRewards
  deriving DecidableEq, Repr

inductive LedgerError where
  | deserialize
  /-- `SecretKey::from_repr(..).expect(..)` panics. -/
  | secretKeyPanic
  deriving DecidableEq, Repr

/-- The parts of the ledger crates that relevance rests on. -/
structure LedgerCodec where
  Ciphertext : Type
  SecretKey : Type
  deserialize : List UInt8 → LedgerVersion → Option (LedgerTransaction Ciphertext)
  fromRepr : ViewingKey → Option SecretKey
  decrypt : SecretKey → Ciphertext → Bool

namespace LedgerCodec

variable (codec : LedgerCodec)

def canDecrypt (key : codec.SecretKey) (offer : Offer codec.Ciphertext) : Bool :=
  let outputs := offer.outputs.filterMap id
  let transient := offer.transient.filterMap id
  (outputs ++ transient).any (codec.decrypt key)

/-- Neither the transaction result nor the success of a segment is read. -/
def ledgerRelevant (transaction : LedgerTransaction codec.Ciphertext) (viewingKey : ViewingKey) :
    Except LedgerError Bool :=
  match transaction with
  | .standard guaranteedCoins fallibleCoins =>
    match codec.fromRepr viewingKey with
    | none => .error .secretKeyPanic
    | some secretKey =>
      .ok (guaranteedCoins.any (codec.canDecrypt secretKey) ||
        fallibleCoins.any (fun coins => codec.canDecrypt secretKey coins.2))
  | .claimRewards => .ok false

/-- `Transaction::relevant` of the wallet indexer. -/
def relevant (raw : List UInt8) (protocolVersion : ProtocolVersion) (viewingKey : ViewingKey) :
    Except LedgerError Bool :=
  match codec.deserialize raw protocolVersion.ledgerVersion with
  | none => .error .deserialize
  | some transaction => codec.ledgerRelevant transaction viewingKey

/-- A codec to run the model with: every byte is the ciphertext of an output for
the viewing key of that value. -/
def plain : LedgerCodec where
  Ciphertext := ViewingKey
  SecretKey := ViewingKey
  deserialize raw _ :=
    some (.standard (some ⟨raw.map (fun b => some (BitVec.ofNat 256 b.toNat)), []⟩) [])
  fromRepr key := some key
  decrypt key ciphertext := key == ciphertext

end LedgerCodec

end MidnightIndexer.Source
