import MidnightIndexer.Source.UnshieldedUtxos

/-!
# Extracting a transaction's unshielded UTXOs

indexer-common/src/domain/ledger/ledger_state.rs:1303-1405 and 1456-1576 for
ledger version 8, 2103-2205 and 2252-2366 for version 9. The two copies differ in
the ledger crate they name, so there is one definition over `UtxoCrate` and each
version applies it to its own crate.

`UtxoCrate` is the boundary: the crate's types, hashes and the two lookups in its
ledger state. `segments` is computed by the crate too and comes with the
transaction; what is assumed about it is `CoversIntents`. Segment ids are `u16`
in the source. Extraction from system transactions is left out.
-/

namespace MidnightIndexer.Source.ChainIndexer

open Lib List

structure UtxoOutput where
  value : Nat
  owner : ByteVec
  tokenType : ByteVec
  deriving DecidableEq

/-- `UtxoSpend`; its owner is a verifying key. -/
structure UtxoSpend (VerifyingKey : Type) where
  value : Nat
  owner : VerifyingKey
  tokenType : ByteVec
  intentHash : ByteVec
  outputNo : UInt32

/-- The crate's `Utxo`, by which the ledger state is asked for the creation time. -/
structure LedgerUtxo where
  value : Nat
  owner : ByteVec
  tokenType : ByteVec
  intentHash : ByteVec
  outputNo : UInt32
  deriving DecidableEq

structure OutputInstruction where
  amount : Nat
  targetAddress : ByteVec
  nonce : ByteVec
  deriving DecidableEq

structure UtxoCrate where
  VerifyingKey : Type
  Intent : Type
  ErasedIntent : Type
  State : Type
  userAddress : VerifyingKey → ByteVec
  /-- `erase_proofs().erase_signatures()`. -/
  erase : Intent → ErasedIntent
  intentHash : ErasedIntent → (segment : Nat) → ByteVec
  guaranteedOutputs : Intent → List UtxoOutput
  fallibleOutputs : Intent → List UtxoOutput
  guaranteedInputs : Intent → List (UtxoSpend VerifyingKey)
  fallibleInputs : Intent → List (UtxoSpend VerifyingKey)
  night : ByteVec
  mkIntentHash : OutputInstruction → (tokenType : ByteVec) → ByteVec
  persistentCommit : UInt32 → ByteVec → ByteVec
  nightIndices : State → ByteVec → Bool
  ctime : State → LedgerUtxo → Option UInt64

/-- `StandardTransaction`: its intents are a map from segments. -/
structure StandardTransaction (crate : UtxoCrate) where
  intents : List (Nat × crate.Intent)
  keys : (intents.map Prod.fst).Nodup
  segments : List Nat

structure ClaimRewards (crate : UtxoCrate) where
  owner : crate.VerifyingKey
  value : Nat
  nonce : ByteVec

inductive LedgerTransaction (crate : UtxoCrate) where
  | standard (transaction : StandardTransaction crate)
  | claimRewards (claim : ClaimRewards crate)

section

variable {crate : UtxoCrate}

def makeInitialNonce (crate : UtxoCrate) (outputIndex : UInt32) (intentHash : ByteVec) : ByteVec :=
  crate.persistentCommit outputIndex intentHash

def registeredForDustGeneration (crate : UtxoCrate) (outputIndex : UInt32) (intentHash : ByteVec)
    (state : crate.State) : Bool :=
  crate.nightIndices state (crate.persistentCommit outputIndex intentHash)

/-- The indexer's record of a UTXO of the ledger. -/
def makeUnshieldedUtxo (state : crate.State) (utxo : LedgerUtxo) : UnshieldedUtxo where
  owner := utxo.owner
  tokenType := utxo.tokenType
  value := utxo.value
  intentHash := utxo.intentHash
  outputIndex := utxo.outputNo
  ctime := crate.ctime state utxo
  initialNonce := makeInitialNonce crate utxo.outputNo utxo.intentHash
  registeredForDustGeneration :=
    registeredForDustGeneration crate utxo.outputNo utxo.intentHash state

/-- The UTXOs of an intent's outputs, numbered in `u32`. -/
def outputUtxos (intentHash : ByteVec) (outputs : List UtxoOutput) : List LedgerUtxo :=
  outputs.zipIdx.map fun output =>
    { value := output.1.value
      owner := output.1.owner
      tokenType := output.1.tokenType
      intentHash := intentHash
      outputNo := UInt32.ofNat output.2 }

def inputUtxo (crate : UtxoCrate) (spend : UtxoSpend crate.VerifyingKey) : LedgerUtxo where
  value := spend.value
  owner := crate.userAddress spend.owner
  tokenType := spend.tokenType
  intentHash := spend.intentHash
  outputNo := spend.outputNo

def intentOutputs (segment : Nat) (intent : crate.Intent) (guaranteed : Bool) :
    List LedgerUtxo :=
  outputUtxos (crate.intentHash (crate.erase intent) segment)
    (if guaranteed then crate.guaranteedOutputs intent else crate.fallibleOutputs intent)

def intentInputs (intent : crate.Intent) (guaranteed : Bool) : List LedgerUtxo :=
  (if guaranteed then crate.guaranteedInputs intent else crate.fallibleInputs intent).map
    (inputUtxo crate)

/-- The outputs and inputs collected so far, extended by those of an intent. -/
def extendUnshieldedUtxos (state : crate.State) (segment : Nat) (guaranteed : Bool)
    (collected : List UnshieldedUtxo × List UnshieldedUtxo) (intent : crate.Intent) :
    List UnshieldedUtxo × List UnshieldedUtxo :=
  (collected.1 ++ (intentOutputs segment intent guaranteed).map (makeUnshieldedUtxo state),
    collected.2 ++ (intentInputs intent guaranteed).map (makeUnshieldedUtxo state))

def successfulSegments (segments : List Nat) : TransactionResult → List Nat
  | .success => segments
  | .partialSuccess results => results.filterMap fun result =>
      if result.2 then some result.1 else none
  | .failure => []

/-- One round of the loop over the segments. -/
def extendSegment (t : StandardTransaction crate) (successful : List Nat) (state : crate.State)
    (collected : List UnshieldedUtxo × List UnshieldedUtxo) (segment : Nat) :
    List UnshieldedUtxo × List UnshieldedUtxo :=
  if segment = 0 then
    (t.intents.map Prod.snd).foldl (extendUnshieldedUtxos state segment true) collected
  else
    match Table.lookup Prod.fst segment t.intents with
    | some (_, intent) =>
      if segment ∈ successful then extendUnshieldedUtxos state segment false collected intent
      else collected
    | none => collected

def claimUtxo (claim : ClaimRewards crate) : LedgerUtxo where
  value := claim.value
  owner := crate.userAddress claim.owner
  tokenType := List.replicate 32 0
  intentHash := crate.mkIntentHash
    ⟨claim.value, crate.userAddress claim.owner, claim.nonce⟩ crate.night
  outputNo := 0

def makeUnshieldedUtxosForRegularTransaction (transaction : LedgerTransaction crate)
    (result : TransactionResult) (state : crate.State) :
    List UnshieldedUtxo × List UnshieldedUtxo :=
  if result = .failure then ([], [])
  else
    match transaction with
    | .standard t =>
      t.segments.foldl (extendSegment t (successfulSegments t.segments result) state) ([], [])
    | .claimRewards claim => ([makeUnshieldedUtxo state (claimUtxo claim)], [])

end

abbrev UtxoCrates := LedgerVersion → UtxoCrate

def makeUnshieldedUtxosForRegularTransactionV8 (crates : UtxoCrates)
    (transaction : LedgerTransaction (crates .V8)) (result : TransactionResult)
    (state : (crates .V8).State) : List UnshieldedUtxo × List UnshieldedUtxo :=
  makeUnshieldedUtxosForRegularTransaction transaction result state

def makeUnshieldedUtxosForRegularTransactionV9 (crates : UtxoCrates)
    (transaction : LedgerTransaction (crates .V9)) (result : TransactionResult)
    (state : (crates .V9).State) : List UnshieldedUtxo × List UnshieldedUtxo :=
  makeUnshieldedUtxosForRegularTransaction transaction result state

/-! ## The loop as a sum over the segments -/

variable {crate : UtxoCrate}

/-- The crate's list of segments: no repetition, 0 and every intent's segment. -/
structure CoversIntents (t : StandardTransaction crate) : Prop where
  distinct : t.segments.Nodup
  guaranteed : 0 ∈ t.segments
  intents : ∀ intent ∈ t.intents, intent.1 ∈ t.segments

theorem foldl_extendUnshieldedUtxos (state : crate.State) (segment : Nat) (guaranteed : Bool)
    (intents : List crate.Intent) (collected : List UnshieldedUtxo × List UnshieldedUtxo) :
    intents.foldl (extendUnshieldedUtxos state segment guaranteed) collected =
      (collected.1 ++ (intents.flatMap (intentOutputs segment · guaranteed)).map
          (makeUnshieldedUtxo state),
        collected.2 ++ (intents.flatMap (intentInputs · guaranteed)).map
          (makeUnshieldedUtxo state)) := by
  induction intents generalizing collected with
  | nil => simp
  | cons intent rest ih =>
    rw [foldl_cons, ih]
    simp [extendUnshieldedUtxos, append_assoc]

/-- What a segment adds, given what an intent adds in each phase. -/
def segmentPart (t : StandardTransaction crate) (successful : List Nat)
    (part : Nat → crate.Intent → Bool → List LedgerUtxo) (segment : Nat) : List LedgerUtxo :=
  if segment = 0 then t.intents.flatMap fun intent => part 0 intent.2 true
  else
    (Table.lookup Prod.fst segment t.intents).elim [] fun intent =>
      if segment ∈ successful then part segment intent.2 false else []

variable (t : StandardTransaction crate) (successful : List Nat) (state : crate.State)

include t successful state

theorem extendSegment_eq (collected : List UnshieldedUtxo × List UnshieldedUtxo) (segment : Nat) :
    extendSegment t successful state collected segment =
      (collected.1 ++ (segmentPart t successful intentOutputs segment).map
          (makeUnshieldedUtxo state),
        collected.2 ++ (segmentPart t successful (fun _ => intentInputs) segment).map
          (makeUnshieldedUtxo state)) := by
  unfold extendSegment segmentPart
  split
  next guaranteed =>
    rw [foldl_extendUnshieldedUtxos, guaranteed, flatMap_map, flatMap_map]
  next =>
    cases Table.lookup Prod.fst segment t.intents with
    | none => simp
    | some intent =>
      by_cases success : segment ∈ successful
      · simp [success, extendUnshieldedUtxos]
      · simp [success]

theorem foldl_extendSegment (segments : List Nat)
    (collected : List UnshieldedUtxo × List UnshieldedUtxo) :
    segments.foldl (extendSegment t successful state) collected =
      (collected.1 ++ (segments.flatMap (segmentPart t successful intentOutputs)).map
          (makeUnshieldedUtxo state),
        collected.2 ++ (segments.flatMap (segmentPart t successful fun _ => intentInputs)).map
          (makeUnshieldedUtxo state)) := by
  induction segments generalizing collected with
  | nil => simp
  | cons segment rest ih =>
    rw [foldl_cons, ih, extendSegment_eq]
    simp [append_assoc]

end MidnightIndexer.Source.ChainIndexer
