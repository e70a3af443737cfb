import MidnightIndexer.Source.NodeTransactions
import MidnightIndexer.Guarantees.RestartEquivalence

/-!
# The contract states stored with a block's actions

An action's zswap state is read from the ledger right after the action's own
transaction, while its contract state is the node's answer at the block. Both are
compared with the ledger right after the transaction at the action's position; the
node is taken to answer with the state after the whole block.

How a contract's state is read from a ledger state belongs to the ledger crates and
is a parameter.
-/

namespace MidnightIndexer.Guarantees.ContractStates

open Lib Source Source.ChainIndexer LedgerState

variable {crates : LedgerCrates}

def ledgerAfter (ledger : LedgerState crates) (transactions : List (NodeTransaction crates))
    (parentBlockHash : ByteVec) (blockTimestamp parentBlockTimestamp : UInt64) (bump : Bool)
    (position : Nat) : Except DomainError (LedgerState crates) :=
  (LedgerState.applyEach parentBlockHash blockTimestamp parentBlockTimestamp bump ledger true
    (transactions.take (position + 1))).map Prod.fst

/-- Every recorded action is in the given relation to the ledger right after its own
transaction. -/
def OwnAfter (after : Nat → Except DomainError (LedgerState crates))
    (recorded : List (Transaction crates))
    (holds : LedgerState crates → ContractAction crates → Prop) : Prop :=
  ∀ (position : Nat) t, recorded[position]? = some (.regular t) →
    ∃ ledger, after position = .ok ledger ∧ ∀ action ∈ t.contractActions, holds ledger action

/-- The contracts a transaction acts on are left at the end of the block as they are
right after it. -/
def LaterUnmoved (decoder : TransactionCrates crates) (version : LedgerVersion)
    (stateOf : LedgerState crates → ByteVec → ByteVec) (raws : List RuntimeTransaction)
    (after : Nat → Except DomainError (LedgerState crates)) (last : LedgerState crates) : Prop :=
  ∀ (position : Nat) raw, raws[position]? = some (.regular raw) →
    ∃ ledger, after position = .ok ledger ∧
      ∀ address ∈ contractsOf decoder version raw, stateOf ledger address = stateOf last address

variable {parentBlockHash : ByteVec} {blockTimestamp parentBlockTimestamp : UInt64} {bump : Bool}

/-- An action as it is stored: the address and the state it was made with, and the zswap
state of the given ledger. -/
theorem updateContractAction_success {after : LedgerState crates} {hash : ByteVec}
    {version : LedgerVersion} {given stored : ContractAction crates}
    (success : after.updateContractAction hash version given = .ok stored) :
    stored.address = given.address ∧ stored.state = given.state ∧
      after.extractContractZswapState stored.address = .ok stored.zswapState := by
  obtain ⟨zswapState, extracted, _, _, success⟩ := bind₂_success success
  cases success
  exact ⟨rfl, rfl, mapError_success extracted⟩

variable {ledger : LedgerState crates} {transaction : NodeRegularTransaction crates} {first : Bool}
  {transactions : List (NodeTransaction crates)}
  {applied : LedgerState crates × List (Transaction crates)} {position : Nat}
  {t : RegularTransaction crates} {decoder : TransactionCrates crates}
  {stateOf : LedgerState crates → ByteVec → ByteVec}

theorem applyRegular_actions {time : UInt64}
    {applied : LedgerState crates × RegularTransaction crates}
    (success : ledger.applyRegular transaction parentBlockHash blockTimestamp
      parentBlockTimestamp time = .ok applied) :
    applied.2.contractActions.map ContractAction.address =
        transaction.contractActions.map ContractAction.address ∧
      ∀ stored ∈ applied.2.contractActions, ∃ given ∈ transaction.contractActions,
        stored.address = given.address ∧ stored.state = given.state ∧
          applied.1.extractContractZswapState stored.address = .ok stored.zswapState := by
  obtain ⟨outcome, _, _, _, actions, each, success⟩ := bind₃_success success
  cases success
  constructor
  · exact mapM_map each fun given stored step => (updateContractAction_success step).1
  · intro stored member
    obtain ⟨given, given_member, step⟩ := mapM_mem each member
    exact ⟨given, given_member, updateContractAction_success step⟩

variable (success : LedgerState.applyEach parentBlockHash blockTimestamp parentBlockTimestamp bump
      ledger first transactions = .ok applied)

include success in
/-- A regular transaction of a block that is applied: its record stands at its position,
applying the block up to it leaves the ledger that it left, and the rest of the block
goes on from there. -/
theorem applyEach_at (here : transactions[position]? = some (.regular transaction)) :
    ∃ before time one earlier later, applyRegular before transaction parentBlockHash blockTimestamp
        parentBlockTimestamp time = .ok one ∧ applied.2[position]? = some (.regular one.2) ∧
      applyEach parentBlockHash blockTimestamp parentBlockTimestamp bump ledger first
        (transactions.take (position + 1)) = .ok (one.1, earlier) ∧
      applyEach parentBlockHash blockTimestamp parentBlockTimestamp bump one.1 false
        (transactions.drop (position + 1)) = .ok (applied.1, later) := by
  induction transactions generalizing ledger first applied position with
  | nil => cases here
  | cons head rest ih =>
    obtain ⟨one, later, step, tail, rfl⟩ := applyEach_cons_success success
    cases position with
    | zero =>
      cases here
      have alone : applyEach parentBlockHash blockTimestamp parentBlockTimestamp bump
          ledger first [.regular transaction] = .ok (one.1, [one.2]) := by
        rw [applyEach_cons, step]
        rfl
      obtain ⟨done, applies, rfl⟩ := map_success step
      exact ⟨ledger, _, done, _, later.2, applies, rfl, alone, tail⟩
    | succ position =>
      obtain ⟨before, time, own, earlier, behind, applies, recorded, upTo, onward⟩ := ih tail here
      refine ⟨before, time, own, one.2 :: earlier, behind, applies, recorded, ?_, onward⟩
      rw [List.take_succ_cons, applyEach_cons, step]
      change (applyEach _ _ _ _ _ _ _ >>= _) = _
      rw [upTo]
      rfl

include success in
theorem applyEach_source (recorded : applied.2[position]? = some (.regular t)) :
    ∃ transaction, transactions[position]? = some (.regular transaction) := by
  induction transactions generalizing ledger first applied position with
  | nil =>
    cases success
    cases recorded
  | cons head rest ih =>
    obtain ⟨one, later, step, tail, rfl⟩ := applyEach_cons_success success
    cases position with
    | zero =>
      cases head with
      | regular head => exact ⟨head, rfl⟩
      | system head =>
        obtain ⟨done, applies, rfl⟩ := map_success step
        cases recorded
    | succ position => exact ih tail recorded

/-! ## From the raw transactions to the records -/

section

variable {NodeError : Type} {decoder : TransactionCrates crates}
  {getContractState : NodeVersion → ByteVec → Except NodeError ByteVec}
  {protocolVersion : ProtocolVersion} {stateNodeVersion : NodeVersion}
  {raws : List RuntimeTransaction} {made : List (NodeTransaction crates)}
  {ledger : LedgerState crates}
  {applied : LedgerState crates × List (Transaction crates) × LedgerParameters crates}

/-- What a record tells of the actions of a raw transaction: one for each of its contracts,
with the node's state and the zswap state of the ledger right after the transaction. -/
structure ActionsOf (decoder : TransactionCrates crates) (version : LedgerVersion)
    (getContractState : ByteVec → Except NodeError ByteVec) (raw : ByteVec)
    (own : LedgerState crates) (t : RegularTransaction crates) : Prop where
  addresses : t.contractActions.map ContractAction.address = contractsOf decoder version raw
  states : ∀ action ∈ t.contractActions, getContractState action.address = .ok action.state
  zswapStates : ∀ action ∈ t.contractActions,
    own.extractContractZswapState action.address = .ok action.zswapState

variable (making : makeTransactions decoder getContractState protocolVersion stateNodeVersion raws =
      .ok made) (applying : ledger.applyTransactions made parentBlockHash blockTimestamp
      parentBlockTimestamp bump = .ok applied)

include making applying

theorem recorded_of_raw {raw : ByteVec} (here : raws[position]? = some (.regular raw)) :
    ∃ t own, applied.2.1[position]? = some (.regular t) ∧
      ledgerAfter ledger made parentBlockHash blockTimestamp parentBlockTimestamp bump position =
        .ok own ∧
      ActionsOf decoder protocolVersion.ledgerVersion (getContractState stateNodeVersion) raw
        own t := by
  obtain ⟨_, at_position, converted⟩ := mapM_at making here
  obtain ⟨transaction, step, converted⟩ := bind_success converted
  cases converted
  obtain ⟨_, addresses, answers⟩ := makeRegularTransaction_success step
  obtain ⟨each, loop, _, _, applying⟩ := bind₂_success applying
  cases applying
  obtain ⟨before, time, one, earlier, later, applies, recorded, upTo, _⟩ :=
    applyEach_at loop at_position
  obtain ⟨kept, actions⟩ := applyRegular_actions applies
  refine ⟨one.2, one.1, recorded, ?_, kept.trans addresses, ?_, ?_⟩
  · rw [ledgerAfter, upTo]
    rfl
  · intro action member
    obtain ⟨given, given_member, address, state, _⟩ := actions action member
    rw [address, state]
    exact answers given given_member
  · intro action member
    obtain ⟨_, _, _, _, zswap⟩ := actions action member
    exact zswap

/-- Conversely, a recorded regular transaction is that of the raw one at its position. -/
theorem raw_of_recorded (recorded : applied.2.1[position]? = some (.regular t)) :
    ∃ raw own, raws[position]? = some (.regular raw) ∧
      ledgerAfter ledger made parentBlockHash blockTimestamp parentBlockTimestamp bump position =
        .ok own ∧
      ActionsOf decoder protocolVersion.ledgerVersion (getContractState stateNodeVersion) raw
        own t := by
  have source : ∃ raw, raws[position]? = some (.regular raw) := by
    obtain ⟨each, loop, _, _, finished⟩ := bind₂_success applying
    cases finished
    obtain ⟨transaction, at_position⟩ := applyEach_source loop recorded
    obtain ⟨source, here, step⟩ := mapM_source making at_position
    cases source with
    | regular raw => exact ⟨raw, here⟩
    | system raw =>
      obtain ⟨_, _, step⟩ := bind_success step
      cases step
  obtain ⟨raw, here⟩ := source
  obtain ⟨t', own, recorded', upTo, actions⟩ := recorded_of_raw making applying here
  cases recorded.symm.trans recorded'
  exact ⟨raw, own, here, upTo, actions⟩

end

/-- A ledger with one contract, whose state counts the calls it has had. -/
def countingCrates : LedgerCrates :=
  { RestartEquivalence.sampleCrates with
    apply := fun (state : ByteVec) _ _ => (state ++ [1], .success [])
    postBlockUpdate := fun state _ _ _ => some state
    contractZswapState := fun state _ => some state }

def callDecoder : TransactionCrates countingCrates where
  Identifier _ := ByteVec
  hash := id
  systemHash := id
  identifiers transaction := [transaction]
  serializeIdentifier := some
  variant transaction := .standard [.call () transaction]
  serializeContractAddress _ := some [7]

def callCount (ledger : LedgerState countingCrates) (_ : ByteVec) : ByteVec := ledger.state

def nodeAfter (calls : Nat) (_ : NodeVersion) (_ : ByteVec) : Except Unit ByteVec :=
  .ok (List.replicate calls 1)

def calls (entryPoints : List ByteVec) : List RuntimeTransaction := entryPoints.map .regular

def storedStates (recorded : List (Transaction countingCrates)) : List (ByteVec × ByteVec) :=
  recorded.flatMap fun
    | .regular t => t.contractActions.map fun action => (action.state, action.zswapState)
    | .system _ => []

end MidnightIndexer.Guarantees.ContractStates
