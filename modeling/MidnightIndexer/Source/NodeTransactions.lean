import MidnightIndexer.Source.ApplyTransactions

/-!
# Transactions as the node hands them over

chain-indexer/src/infra/subxt_node.rs:323-326 and 827-893, with
indexer-common/src/domain/ledger/transaction.rs:52-247 and 314-359. The raw
transactions of a block are deserialized, and every contract action asks the node
for the state of its contract. All of a block's transactions ask at the same
block.

What the ledger crates read from a transaction, and the node's answer, are
parameters.
-/

namespace MidnightIndexer.Source.ChainIndexer

open Lib

inductive RuntimeTransaction where
  | regular (raw : ByteVec)
  | system (raw : ByteVec)
  deriving DecidableEq, Repr

/-- The ledger crates' `ContractAction`. -/
inductive CrateAction (Address : Type) where
  | deploy (address : Address)
  | call (address : Address) (entryPoint : ByteVec)
  | maintain (address : Address)

/-- The variants of the ledger crates' `Transaction`. -/
inductive CrateTransaction (Address : Type) where
  | standard (actions : List (CrateAction Address))
  | claimRewards

/-- What the ledger crates read from transactions. -/
structure TransactionCrates (crates : LedgerCrates) where
  Identifier : LedgerVersion → Type
  hash : {version : LedgerVersion} → crates.Transaction version → ByteVec
  systemHash : {version : LedgerVersion} → crates.SystemTransaction version → ByteVec
  identifiers : {version : LedgerVersion} → crates.Transaction version → List (Identifier version)
  serializeIdentifier : {version : LedgerVersion} → Identifier version → Option ByteVec
  variant : {version : LedgerVersion} → crates.Transaction version →
    CrateTransaction (crates.ContractAddress version)
  serializeContractAddress : {version : LedgerVersion} → crates.ContractAddress version →
    Option ByteVec

/-- The errors of making a transaction: those of `ledger::Error` shared with
applying one, and the two that only `contract_actions` has. -/
inductive MakeError (NodeError : Type) where
  | ledger (cause : LedgerError)
  | fromUtf8 (what : String)
  | getContractState (address : ByteVec) (cause : NodeError)
  deriving DecidableEq, Repr

def stringFromUtf8 (bytes : ByteVec) : Option String :=
  String.fromUTF8? ⟨bytes.toArray⟩

variable {crates : LedgerCrates} {NodeError : Type}

/-- `serialize_contract_address` and `serialize_contract_address_v9`; the first names
no version in its error. -/
def serializeContractAddress (decoder : TransactionCrates crates) {version : LedgerVersion}
    (address : crates.ContractAddress version) : Except (MakeError NodeError) ByteVec :=
  okOr (decoder.serializeContractAddress address) (.ledger (.serialize
    (match version with
    | .V8 => "ContractAddress"
    | .V9 => "ContractAddressV9")))

def addressAndState (decoder : TransactionCrates crates)
    (getContractState : ByteVec → Except NodeError ByteVec) {version : LedgerVersion}
    (address : crates.ContractAddress version) :
    Except (MakeError NodeError) (ByteVec × ByteVec) := do
  let address ← serializeContractAddress decoder address
  let state ← (getContractState address).mapError (.getContractState address)
  return (address, state)

/-- One action, converted to the chain indexer's: the zswap state and the balances are
filled in when the transaction is applied. -/
def makeContractAction (decoder : TransactionCrates crates)
    (getContractState : ByteVec → Except NodeError ByteVec) {version : LedgerVersion} :
    CrateAction (crates.ContractAddress version) →
      Except (MakeError NodeError) (ContractAction crates)
  | .deploy address => do
    let found ← addressAndState decoder getContractState address
    return ⟨found.1, found.2, [], [], .deploy⟩
  | .call address entryPoint => do
    let found ← addressAndState decoder getContractState address
    let entryPoint ← okOr (stringFromUtf8 entryPoint) (.fromUtf8 (label "EntryPointBuf" version))
    return ⟨found.1, found.2, [], [], .call entryPoint⟩
  | .maintain address => do
    let found ← addressAndState decoder getContractState address
    return ⟨found.1, found.2, [], [], .update⟩

def contractActions (decoder : TransactionCrates crates)
    (getContractState : ByteVec → Except NodeError ByteVec) {version : LedgerVersion}
    (transaction : crates.Transaction version) :
    Except (MakeError NodeError) (List (ContractAction crates)) :=
  match decoder.variant transaction with
  | .standard actions => actions.mapM (makeContractAction decoder getContractState)
  | .claimRewards => .ok []

def identifiers (decoder : TransactionCrates crates) {version : LedgerVersion}
    (transaction : crates.Transaction version) : Except (MakeError NodeError) (List ByteVec) :=
  (decoder.identifiers transaction).mapM fun identifier =>
    okOr (decoder.serializeIdentifier identifier)
      (.ledger (.serialize (label "TransactionIdentifier" version)))

def makeRegularTransaction (decoder : TransactionCrates crates)
    (getContractState : NodeVersion → ByteVec → Except NodeError ByteVec)
    (protocolVersion : ProtocolVersion) (stateNodeVersion : NodeVersion) (raw : ByteVec) :
    Except (MakeError NodeError) (NodeRegularTransaction crates) := do
  let version := protocolVersion.ledgerVersion
  let transaction ← okOr (crates.deserializeTransaction version raw)
    (.ledger (.deserialize (label "LedgerTransaction" version)))
  let identifiers ← identifiers decoder transaction
  let actions ← contractActions decoder (getContractState stateNodeVersion) transaction
  return { hash := decoder.hash transaction
           protocolVersion := protocolVersion
           raw := raw
           identifiers := identifiers
           contractActions := actions }

def makeSystemTransaction (decoder : TransactionCrates crates)
    (protocolVersion : ProtocolVersion) (raw : ByteVec) :
    Except (MakeError NodeError) NodeSystemTransaction := do
  let version := protocolVersion.ledgerVersion
  let transaction ← okOr (crates.deserializeSystemTransaction version raw)
    (.ledger (.deserialize (label "LedgerSystemTransaction" version)))
  return ⟨decoder.systemHash transaction, protocolVersion, raw⟩

def makeTransaction (decoder : TransactionCrates crates)
    (getContractState : NodeVersion → ByteVec → Except NodeError ByteVec)
    (protocolVersion : ProtocolVersion) (stateNodeVersion : NodeVersion) :
    RuntimeTransaction → Except (MakeError NodeError) (NodeTransaction crates)
  | .regular raw => do
    let made ← makeRegularTransaction decoder getContractState protocolVersion stateNodeVersion raw
    return .regular made
  | .system raw => do
    let made ← makeSystemTransaction decoder protocolVersion raw
    return .system made

def makeTransactions (decoder : TransactionCrates crates)
    (getContractState : NodeVersion → ByteVec → Except NodeError ByteVec)
    (protocolVersion : ProtocolVersion) (stateNodeVersion : NodeVersion)
    (transactions : List RuntimeTransaction) :
    Except (MakeError NodeError) (List (NodeTransaction crates)) :=
  transactions.mapM (makeTransaction decoder getContractState protocolVersion stateNodeVersion)

/-! ## Where the state of an action is from -/

def CrateAction.address {Address : Type} : CrateAction Address → Address
  | .deploy address | .call address _ | .maintain address => address

def CrateTransaction.actions {Address : Type} : CrateTransaction Address →
    List (CrateAction Address)
  | .standard actions => actions
  | .claimRewards => []

/-- The contracts a raw transaction acts on, in the order of its actions. -/
def contractsOf (decoder : TransactionCrates crates) (version : LedgerVersion) (raw : ByteVec) :
    List ByteVec :=
  match crates.deserializeTransaction version raw with
  | none => []
  | some transaction => (decoder.variant transaction).actions.filterMap
      fun action => decoder.serializeContractAddress action.address

section

variable {decoder : TransactionCrates crates} {version : LedgerVersion}
  {getContractState : ByteVec → Except NodeError ByteVec}
  {made : List (ContractAction crates)}

theorem addressAndState_success {address : crates.ContractAddress version}
    {found : ByteVec × ByteVec}
    (success : addressAndState decoder getContractState address = .ok found) :
    decoder.serializeContractAddress address = some found.1 ∧
      getContractState found.1 = .ok found.2 := by
  obtain ⟨serialized, step, state, answer, success⟩ := bind₂_success success
  cases success
  exact ⟨okOr_success step, mapError_success answer⟩

/-- Whatever an action does, its address is its own and its state is the node's. -/
theorem makeContractAction_success {action : CrateAction (crates.ContractAddress version)}
    {made : ContractAction crates}
    (success : makeContractAction decoder getContractState action = .ok made) :
    decoder.serializeContractAddress action.address = some made.address ∧
      getContractState made.address = .ok made.state := by
  cases action with
  | deploy address | maintain address =>
    obtain ⟨found, step, success⟩ := bind_success success
    cases success
    exact addressAndState_success step
  | call address entryPoint =>
    obtain ⟨found, step, _, _, success⟩ := bind₂_success success
    cases success
    exact addressAndState_success step

theorem contractActions_success {transaction : crates.Transaction version}
    (success : contractActions decoder getContractState transaction = .ok made) :
    (decoder.variant transaction).actions.mapM (makeContractAction decoder getContractState) =
      .ok made := by
  unfold contractActions at success
  cases variant : decoder.variant transaction with
  | standard | claimRewards =>
    rw [variant] at success
    exact success

/-- The addresses that actions were made for are those read from the transaction. -/
theorem made_addresses {actions : List (CrateAction (crates.ContractAddress version))}
    (success : actions.mapM (makeContractAction decoder getContractState) = .ok made) :
    made.map ContractAction.address =
      actions.filterMap fun action => decoder.serializeContractAddress action.address := by
  have related := mapM_success success
  clear success
  induction related with
  | nil => rfl
  | @cons action made _ _ step _ ih =>
    obtain ⟨serialized, _⟩ := makeContractAction_success step
    simp only [List.map_cons, List.filterMap_cons, serialized, ih]

/-- A regular transaction that is made: it acts on its contracts, and the state of each
action is the node's answer. -/
theorem makeRegularTransaction_success
    {getContractState : NodeVersion → ByteVec → Except NodeError ByteVec}
    {protocolVersion : ProtocolVersion} {stateNodeVersion : NodeVersion} {raw : ByteVec}
    {made : NodeRegularTransaction crates}
    (success : makeRegularTransaction decoder getContractState protocolVersion stateNodeVersion
      raw = .ok made) : made.raw = raw ∧ made.contractActions.map ContractAction.address =
        contractsOf decoder protocolVersion.ledgerVersion raw ∧ ∀ action ∈ made.contractActions,
        getContractState stateNodeVersion action.address = .ok action.state := by
  obtain ⟨transaction, read, _, _, actions, acted, success⟩ := bind₃_success success
  cases success
  have each := contractActions_success acted
  refine ⟨rfl, ?_, ?_⟩
  · rw [made_addresses each, contractsOf, okOr_success read]
  · intro action member
    obtain ⟨_, _, step⟩ := mapM_mem each member
    exact (makeContractAction_success step).2

end

end MidnightIndexer.Source.ChainIndexer
