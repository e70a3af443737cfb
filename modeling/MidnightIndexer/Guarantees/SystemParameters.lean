import MidnightIndexer.Guarantees.RestartEquivalence
import MidnightIndexer.Lib.ChangeLog
import MidnightIndexer.Source.SystemParameters

/-!
# The system parameters in force at a height

The node is asked for the parameters at every block and only changes are stored. Both logs
keep what it reported: the row in force at a height has the last value reported up to it.
-/

namespace MidnightIndexer.Guarantees.SystemParameters

open Lib List RestartEquivalence Source.ChainIndexer Source.IndexerApi.SystemParameters ChangeLog
open Sql

variable {crates : LedgerCrates} {tables : ChildTables crates}

/-- What the node reported at the height of a saved block. -/
abbrev Report := UInt64 × SystemParametersChange

def Report.height (report : Report) : Int := report.1.toNat

def reported (node : NodeApi) (block : NodeBlock crates) : List Report :=
  ((node.fetchSystemParameters block.hash block.height block.timestamp
    block.protocolVersion.nodeVersion).map (Prod.mk block.height)).toList

/-- The last value reported at a height up to `h`. -/
def lastReported {ν : Type} (select : SystemParametersChange → Option ν) (log : List Report)
    (h : UInt32) : Option ν :=
  ((log.filter fun report => report.height ≤ (h.toNat : Int)).filterMap
    fun report => select report.2).getLast?

/-! ## The logs -/

def dValue (row : DParameterRow) : Source.ChainIndexer.DParameter :=
  ⟨UInt16.ofInt row.numPermissionedCandidates, UInt16.ofInt row.numRegisteredCandidates⟩

def termsValue (row : TermsRow) : Source.ChainIndexer.TermsAndConditions := ⟨row.hash, row.url⟩

/-- One log of changes: its rows are readable and keep the reports of one parameter. -/
structure Kept {ρ ν α : Type} (height : ρ → Int) (stored : ρ → ν) (fromRow : ρ → Option α)
    (value : α → ν) (select : SystemParametersChange → Option ν) (rows : List ρ)
    (log : List Report) : Prop where
  keeps : ChangeLog.Keeps (rows.map fun row => (height row, stored row))
    (log.map fun report => (report.height, select report.2))
  readable : ∀ row ∈ rows, height row < 2 ^ 32 → (fromRow row).map value = some (stored row)

section

variable {ρ ν α : Type} {height : ρ → Int} {stored : ρ → ν} {fromRow : ρ → Option α}
  {value : α → ν} {select : SystemParametersChange → Option ν} {rows : List ρ} {log : List Report}
  (kept : Kept height stored fromRow value select rows log)

include kept in
theorem Kept.increasing : rows.Pairwise fun low high => height low < height high := by
  have entries := kept.keeps.increasing
  rw [pairwise_map] at entries
  exact entries

include kept in
theorem Kept.latest : (orderByDesc height rows).head?.map stored =
      (rows.map fun row => (height row, stored row)).getLast?.map Prod.snd := by
  rw [orderByDesc_head_of_increasing kept.increasing, getLast?_map, Option.map_map]
  rfl

include kept in
/-- The read at a height answers with the last value reported up to it. -/
theorem Kept.latestAt (h : UInt32) :
    (latestAt height fromRow rows h).map (Option.map value) = .ok (lastReported select log h) := by
  have small := h.toNat_lt
  rw [latestAt_of_increasing kept.increasing
    fun row member below => kept.readable row member (by omega)]
  have same := kept.keeps.value (h.toNat : Int)
  simp only [valueAt, reportedAt, filter_map, getLast?_map, Option.map_map, filterMap_map] at same
  exact congrArg Except.ok same

include kept in
theorem Kept.changes : ((orderBy height rows).map stored).IsChain (· ≠ ·) := by
  have entries := kept.keeps.changes
  rw [isChain_map] at entries
  rw [orderBy_of_increasing kept.increasing, isChain_map]
  exact entries

def toStore [DecidableEq ν] (current stored : Option ν) : Option ν :=
  if changed current stored then current else none

theorem observe_eq [DecidableEq ν] (entries : List (Int × ν)) (key : Int) (current : Option ν) :
    observe entries key current = entries ++
      (toStore current (entries.getLast?.map Prod.snd)).toList.map (Prod.mk key) := by
  cases current with
  | none => simp [observe, toStore, changed]
  | some c =>
    cases last : entries.getLast?.map Prod.snd with
    | none => simp [observe, toStore, changed, last]
    | some s =>
      by_cases same : c = s
      · simp [observe, toStore, changed, last, same]
      · have other : s ≠ c := fun equal => same equal.symm
        simp [observe, toStore, changed, last, same, other]

include kept in
/-- The row of a change that a block at a higher height reports keeps the log. -/
theorem Kept.append [DecidableEq ν] (report : Report) (row : ν → ρ) {latest : Option ν}
    (above : ∀ earlier ∈ log, earlier.1 < report.1)
    (read : latest = (orderByDesc height rows).head?.map stored)
    (written : ∀ v, height (row v) = report.height ∧ stored (row v) = v)
    (readable : ∀ v, select report.2 = some v → height (row v) < 2 ^ 32 →
      (fromRow (row v)).map value = some v) : Kept height stored fromRow value select
      (rows ++ (toStore (select report.2) latest).toList.map row) (log ++ [report]) := by
  have entries : ((rows ++ (toStore (select report.2) latest).toList.map row).map
      fun row => (height row, stored row)) =
        observe (rows.map fun row => (height row, stored row)) report.height (select report.2) := by
    rw [observe_eq, ← kept.latest, ← read, map_append, map_map]
    congr 1
    apply map_congr_left
    intro v _
    exact Prod.ext (written v).1 (written v).2
  refine ⟨?_, ?_⟩
  · rw [entries, map_append]
    apply kept.keeps.observe
    intro earlier member
    obtain ⟨old, listed, rfl⟩ := mem_map.mp member
    exact Int.ofNat_lt.mpr (UInt64.lt_iff_toNat_lt.mp (above old listed))
  · intro other member small
    rcases mem_append.mp member with old | new
    · exact kept.readable other old small
    · obtain ⟨v, isStored, rfl⟩ := mem_map.mp new
      rw [(written v).2]
      refine readable v ?_ small
      have chosen := Option.mem_toList.mp isStored
      unfold toStore at chosen
      split at chosen
      · exact chosen
      · cases chosen

end

/-! ## One block -/

structure Logs (storage : Storage tables) (log : List Report) : Prop where
  dParameters : Kept DParameterRow.blockHeight dValue DParameter.fromRow DParameter.value
    SystemParametersChange.dParameter storage.dParameters log
  terms : Kept TermsRow.blockHeight termsValue TermsAndConditions.fromRow TermsAndConditions.value
    SystemParametersChange.termsAndConditions storage.termsAndConditions log

theorem logs_empty : Logs (Storage.empty tables) [] := by
  refine ⟨⟨keeps_nil, ?_⟩, ⟨keeps_nil, ?_⟩⟩
  · exact fun row member => absurd member not_mem_nil
  · exact fun row member => absurd member not_mem_nil

/-- The next block of the chain: above those indexed before, with a hash of 32 bytes and
numbers that fit their columns. -/
def Extends (log : List Report) (block : NodeBlock crates) : Prop :=
  (∀ report ∈ log, report.1 < block.height) ∧ block.hash.length = 32 ∧
    block.height.toNat < 2 ^ 63 ∧ block.timestamp.toNat < 2 ^ 63

instance (log : List Report) (block : NodeBlock crates) : Decidable (Extends log block) :=
  inferInstanceAs (Decidable (_ ∧ _))

/-- The hashes of terms and conditions have 32 bytes, as their type says. -/
def TermsSized (node : NodeApi) : Prop :=
  ∀ blockHash height timestamp version current,
    node.fetchSystemParameters blockHash height timestamp version = some current →
      ∀ terms ∈ current.termsAndConditions, terms.hash.length = 32

theorem tryUnsigned_of_lt {bits n : Nat} (small : n < 2 ^ bits) :
    tryUnsigned bits (n : Int) = some n := by
  have bound : (n : Int) < 2 ^ bits := by exact_mod_cast small
  rw [tryUnsigned, if_pos ⟨Int.natCast_nonneg n, bound⟩, Int.toNat_natCast]

theorem tryHash_of_length {bytes : ByteVec} (sized : bytes.length = 32) :
    tryHash bytes = some bytes := if_pos sized

theorem ofInt_toNat (n : UInt16) : UInt16.ofInt n.toNat = n := by
  have small := n.toNat_lt
  apply UInt16.toNat_inj.mp
  change (UInt16.ofNat ((n.toNat : Int) % 2 ^ 16).toNat).toNat = n.toNat
  rw [UInt16.toNat_ofNat']
  omega

variable {node : NodeApi} {storage : Storage tables}

theorem determined_logs {block : Block} {change : Option SystemParametersChange}
    (determined : determineSystemParametersChange node block storage = .ok change) :
    ∃ current terms, node.fetchSystemParameters block.hash block.height block.timestamp
        block.protocolVersion.nodeVersion = some current ∧
      storage.getLatestTermsAndConditions = .ok terms ∧
      (change.elim storage storage.saveSystemParametersChange).parameterLogs =
        (storage.saveSystemParametersChange ⟨block.height, block.hash, block.timestamp,
          toStore current.dParameter storage.getLatestDParameter,
          toStore current.termsAndConditions terms⟩).parameterLogs := by
  unfold determineSystemParametersChange at determined
  obtain ⟨current, fetched, terms, latest, determined⟩ := bind₂_success determined
  refine ⟨current, terms, okOr_success fetched, mapError_success latest, ?_⟩
  dsimp only at determined
  split at determined
  · cases determined
    rfl
  next unchanged =>
    cases determined
    simp only [Bool.or_eq_true, not_or] at unchanged
    simp [Storage.parameterLogs, Storage.saveSystemParametersChange, toStore, unchanged]

theorem getLatestTerms_value {terms : Option Source.ChainIndexer.TermsAndConditions}
    (success : storage.getLatestTermsAndConditions = .ok terms) :
    terms = (orderByDesc TermsRow.blockHeight storage.termsAndConditions).head?.map
      termsValue := by
  unfold Storage.getLatestTermsAndConditions at success
  split at success
  next none_stored =>
    cases success
    rw [none_stored]
    rfl
  next row first =>
    split at success
    · cases success
      rw [first]
      rfl
    · cases success

theorem indexBlock_logs (sized : TermsSized node) {networkId : String} {process : Process crates}
    {log : List Report} {block : NodeBlock crates} {next : Process crates × Storage tables}
    (logs : Logs storage log) (extension : Extends log block)
    (success : indexBlock node networkId process storage block = .ok next) :
    Logs next.2 (log ++ reported node block) := by
  obtain ⟨computed, change, _, save, _, determined⟩ := indexBlock_success success
  obtain ⟨current, terms, fetched, latest, written⟩ := determined_logs determined
  obtain ⟨above, hashSized, heightSmall, timeSmall⟩ := extension
  have fetched : node.fetchSystemParameters block.hash block.height block.timestamp
      block.protocolVersion.nodeVersion = some current := fetched
  have report : reported node block = [(block.height, current)] := by
    rw [reported, fetched]
    rfl
  rw [← Storage.saveBlock_parameterLogs save] at written
  obtain ⟨dRows, termsRows⟩ := Prod.mk.inj written
  have height : asI64 block.height.toNat = (block.height.toNat : Int) :=
    asI64_of_lt heightSmall
  have time : asI64 block.timestamp.toNat = (block.timestamp.toNat : Int) :=
    asI64_of_lt timeSmall
  have timeWord := block.timestamp.toNat_lt
  rw [report]
  refine ⟨?_, ?_⟩
  · rw [dRows]
    refine logs.dParameters.append (block.height, current) (fun d => ⟨asI64 block.height.toNat,
      block.hash, asI64 block.timestamp.toNat, d.numPermissionedCandidates.toNat,
      d.numRegisteredCandidates.toNat⟩) above rfl (fun d => ⟨height, ?_⟩) ?_
    · exact congrArg₂ Source.ChainIndexer.DParameter.mk (ofInt_toNat _) (ofInt_toNat _)
    · intro d _ small
      dsimp only at small
      rw [height] at small
      rw [DParameter.fromRow, height, time, tryUnsigned_of_lt (by exact_mod_cast small),
        tryHash_of_length hashSized, tryUnsigned_of_lt timeWord,
        tryUnsigned_of_lt d.numPermissionedCandidates.toNat_lt,
        tryUnsigned_of_lt d.numRegisteredCandidates.toNat_lt]
      simp [DParameter.value]
  · rw [termsRows]
    refine logs.terms.append (block.height, current) (fun t => ⟨asI64 block.height.toNat,
      block.hash, asI64 block.timestamp.toNat, t.hash, t.url⟩) above
      (getLatestTerms_value latest) (fun t => ⟨height, rfl⟩) ?_
    intro t chosen small
    dsimp only at small
    rw [height] at small
    rw [TermsAndConditions.fromRow, height, time, tryUnsigned_of_lt (by exact_mod_cast small),
      tryHash_of_length hashSized, tryUnsigned_of_lt timeWord,
      tryHash_of_length (sized _ _ _ _ current fetched t chosen)]
    rfl

/-! ## Whole runs -/

/-- The chain indexer over any starts, blocks and stops, with the reports at the saved
blocks. -/
def step (tables : ChildTables crates) (node : NodeApi) (networkId : String) :
    Service.Logged (Storage tables) (Process crates) Report → Service.Move (NodeBlock crates) →
      Service.Logged (Storage tables) (Process crates) Report :=
  (chainIndexer tables node networkId).logStep fun _ => reported node

def initial (tables : ChildTables crates) :
    Service.Logged (Storage tables) (Process crates) Report := ⟨Storage.empty tables, none, []⟩

/-- Every block that is offered extends the chain. -/
def InOrder (s : Service.Logged (Storage tables) (Process crates) Report) :
    Service.Move (NodeBlock crates) → Prop
  | .input block => Extends s.log block
  | .start | .stop => True

instance (s : Service.Logged (Storage tables) (Process crates) Report)
    (move : Service.Move (NodeBlock crates)) : Decidable (InOrder s move) :=
  match move with
  | .input block => inferInstanceAs (Decidable (Extends s.log block))
  | .start | .stop => isTrue trivial

theorem run_logs (sized : TermsSized node) (networkId : String)
    (moves : List (Service.Move (NodeBlock crates)))
    (inOrder : Guarded (step tables node networkId) InOrder (initial tables) moves) :
    Logs (run (step tables node networkId) (initial tables) moves).store
      (run (step tables node networkId) (initial tables) moves).log :=
  Service.run_log_invariant
    (fun _ _ _ _ logs extension stepped => indexBlock_logs sized logs extension stepped)
    (initial tables) moves logs_empty inOrder

/-- Along every run, and for every height, the parameters the API reads are the last ones
the node reported up to the height, and neighbouring entries of either log differ. -/
theorem parameters_at_height (tables : ChildTables crates) (node : NodeApi)
    (sized : TermsSized node) (networkId : String) (moves : List (Service.Move (NodeBlock crates)))
    (inOrder : Guarded (step tables node networkId) InOrder (initial tables) moves) :
    let s := run (step tables node networkId) (initial tables) moves
    (∀ h : UInt32,
      (getDParameterAt s.store.dParameters h).map (Option.map DParameter.value) =
          .ok (lastReported SystemParametersChange.dParameter s.log h) ∧
        (getTermsAndConditionsAt s.store.termsAndConditions h).map
            (Option.map TermsAndConditions.value) =
          .ok (lastReported SystemParametersChange.termsAndConditions s.log h)) ∧
      ((Sql.orderBy DParameterRow.blockHeight s.store.dParameters).map dValue).IsChain (· ≠ ·) ∧
      ((Sql.orderBy TermsRow.blockHeight s.store.termsAndConditions).map termsValue).IsChain
        (· ≠ ·) := by
  have logs := run_logs sized networkId moves inOrder
  exact ⟨fun h => ⟨logs.dParameters.latestAt h, logs.terms.latestAt h⟩, logs.dParameters.changes,
    logs.terms.changes⟩

/-- The field of a block reports the same, with no candidates where there is no D-parameter. -/
theorem block_parameters_reported (tables : ChildTables crates) (node : NodeApi)
    (sized : TermsSized node) (networkId : String) (moves : List (Service.Move (NodeBlock crates)))
    (inOrder : Guarded (step tables node networkId) InOrder (initial tables) moves) (h : UInt32) :
    let s := run (step tables node networkId) (initial tables) moves
    systemParameters s.store.dParameters s.store.termsAndConditions h =
      .ok ((lastReported SystemParametersChange.dParameter s.log h).getD ⟨0, 0⟩,
        lastReported SystemParametersChange.termsAndConditions s.log h) := by
  intro s
  have logs := run_logs sized networkId moves inOrder
  obtain ⟨d, dRead, dSame⟩ := map_success (logs.dParameters.latestAt h)
  obtain ⟨terms, termsRead, termsSame⟩ := map_success (logs.terms.latestAt h)
  rw [Source.IndexerApi.SystemParameters.systemParameters, getDParameterAt,
    getTermsAndConditionsAt, dRead, termsRead, ← dSame, ← termsSame]
  rfl

/-- A node whose D-parameter changes at height 3 and that has terms from height 2 to 3. -/
def parameterApi : NodeApi where
  fetchGenesisLedgerState := some []
  fetchSystemParameters hash height timestamp _ := some
    { blockHeight := height
      blockHash := hash
      timestamp := timestamp
      dParameter := some (if height < 3 then ⟨1, 2⟩ else ⟨3, 4⟩)
      termsAndConditions := if height = 2 ∨ height = 3 then some ⟨List.replicate 32 7, "t"⟩
        else none }

def parameterBlock (height : Nat) : NodeBlock sampleCrates :=
  { sampleNodeBlock height .V8 0 [] with
    hash := List.replicate 32 (UInt8.ofNat height)
    ledgerStateRoot := none
    transactions := [] }

def parameterMoves : List (Service.Move (NodeBlock sampleCrates)) :=
  [.start, .input (parameterBlock 1), .input (parameterBlock 2), .stop, .start,
    .input (parameterBlock 3), .input (parameterBlock 4), .input (parameterBlock 5)]

theorem parameters_at_height_sample :
    let s := run (step sampleTables parameterApi "undeployed") (initial sampleTables)
      parameterMoves
    s.log.length = 5 ∧
      (getDParameterAt s.store.dParameters 2).map (Option.map DParameter.value) =
        .ok (some ⟨1, 2⟩) ∧
      (getTermsAndConditionsAt s.store.termsAndConditions 5).map
        (Option.map TermsAndConditions.value) = .ok (some ⟨List.replicate 32 7, "t"⟩) ∧
      (getTermsAndConditionsAt s.store.termsAndConditions 1).map
        (Option.map TermsAndConditions.value) = .ok none := by
  have sized : TermsSized parameterApi := by
    intro hash height timestamp version current fetched terms member
    cases fetched
    simp only [Option.mem_def] at member
    split at member <;> cases member
    rfl
  have holds := parameters_at_height sampleTables parameterApi sized "undeployed" parameterMoves
    (by decide +kernel)
  refine ⟨by decide +kernel, ?_, ?_, ?_⟩
  · rw [(holds.1 2).1]
    decide +kernel
  · rw [(holds.1 5).2]
    decide +kernel
  · rw [(holds.1 1).2]
    decide +kernel

/-- A node that reports neither. -/
theorem block_parameters_unreported :
    let node := { parameterApi with
      fetchSystemParameters := fun hash height time _ => some ⟨height, hash, time, none, none⟩ }
    let s := run (step sampleTables node "undeployed") (initial sampleTables) parameterMoves
    s.log.length = 5 ∧ systemParameters s.store.dParameters s.store.termsAndConditions 5 =
      .ok (⟨0, 0⟩, none) := by
  intro node s
  have sized : TermsSized node := by
    intro hash height timestamp version current fetched terms member
    cases fetched
    cases member
  refine ⟨by decide +kernel, ?_⟩
  rw [block_parameters_reported sampleTables node sized "undeployed" parameterMoves
    (by decide +kernel)]
  decide +kernel

end MidnightIndexer.Guarantees.SystemParameters
