import Mathlib.Data.List.TakeWhile
import MidnightIndexer.Guarantees.RestartEquivalence
import MidnightIndexer.Source.DustRegistrations

/-!
# cNIGHT registrations and their event history

The row of a pair is compared with the pair's own events. Its validity is that of the
last registration or deregistration, for every history. Its UTXO reference is the one of
the last mapping event since the row was inserted: a mapping that was added before, or
one that is still there when another one is removed, is lost.
-/

namespace MidnightIndexer.Guarantees.DustRegistrations

open Lib List Source.ChainIndexer RegistrationRow Table

/-! ## What a history says about a pair -/

namespace Event

/-- Whether an event registers its pair or deregisters it. -/
def registers : DustRegistrationEvent → Option Bool
  | .registration _ _ => some true
  | .deregistration _ _ => some false
  | _ => none

/-- The mapping an event adds (`true`) or removes. -/
def maps : DustRegistrationEvent → Option (MappingUtxo × Bool)
  | .mappingAdded _ _ utxo => some (utxo, true)
  | .mappingRemoved _ _ utxo => some (utxo, false)
  | _ => none

end Event

def eventsOf (pair : RegistrationKey) (events : List DustRegistrationEvent) :
    List DustRegistrationEvent :=
  events.filter fun event => event.key = pair

/-- The last registration or deregistration is a registration. -/
def Registered (events : List DustRegistrationEvent) : Prop :=
  (events.filterMap Event.registers).getLast? = some true

instance (events : List DustRegistrationEvent) : Decidable (Registered events) :=
  inferInstanceAs (Decidable (_ = _))

/-- The mapping was added and not removed since. -/
def Active (events : List DustRegistrationEvent) (utxo : MappingUtxo) : Prop :=
  ((events.filterMap Event.maps).filter fun mapping => mapping.1 = utxo).getLast? =
    some (utxo, true)

def sinceRegistration (events : List DustRegistrationEvent) : List DustRegistrationEvent :=
  events.dropWhile fun event => Event.registers event ≠ some true

def lastMapping (events : List DustRegistrationEvent) : Option (MappingUtxo × Bool) :=
  ((sinceRegistration events).filterMap Event.maps).getLast?

def lastAdded (events : List DustRegistrationEvent) : Option MappingUtxo :=
  (lastMapping events).bind fun mapping => if mapping.2 then some mapping.1 else none

variable {events : List DustRegistrationEvent} {pair : RegistrationKey}
  {f : RegistrationRow → RegistrationRow} {rows : List RegistrationRow}

theorem active_of_lastAdded {utxo : MappingUtxo} (added : lastAdded events = some utxo) :
    Active events utxo := by
  obtain ⟨⟨last, kind⟩, last_mapping, is_added⟩ := Option.bind_eq_some_iff.mp added
  obtain ⟨rfl, rfl⟩ : kind = true ∧ last = utxo := by
    cases kind <;> simp_all
  have whole : events.filterMap Event.maps =
      (events.takeWhile fun event => Event.registers event ≠ some true).filterMap Event.maps ++
        (sinceRegistration events).filterMap Event.maps := by
    rw [← filterMap_append, sinceRegistration, takeWhile_append_dropWhile]
  obtain ⟨earlier, ends⟩ := getLast?_eq_some_iff.mp last_mapping
  rw [Active, whole, ends, ← append_assoc, filter_append]
  simp

/-! ## The row of a pair -/

def columns (row : RegistrationRow) : Bool × Option ByteVec × Option Int :=
  (row.valid, row.utxoTxHash, row.utxoOutputIndex)

/-- The columns as the history has them; without a registration there is no row. -/
def expected (events : List DustRegistrationEvent) :
    Option (Bool × Option ByteVec × Option Int) :=
  if sinceRegistration events = [] then none
  else some (decide (Registered events), (lastAdded events).map MappingUtxo.utxoId,
    (lastAdded events).map fun utxo => utxo.utxoIndex.toNat)

/-- The table has what the history says about the pair. -/
def Agrees (pair : RegistrationKey) (rows : List RegistrationRow)
    (events : List DustRegistrationEvent) : Prop :=
  (Table.lookup RegistrationRow.key pair rows).map columns = expected (eventsOf pair events)

theorem sinceRegistration_concat (events : List DustRegistrationEvent)
    (event : DustRegistrationEvent) : sinceRegistration (events ++ [event]) =
      if sinceRegistration events = [] then
        (if Event.registers event = some true then [event] else [])
      else sinceRegistration events ++ [event] := by
  unfold sinceRegistration
  rw [dropWhile_append]
  simp only [List.isEmpty_iff]
  split
  · simp [dropWhile_cons]
  · rfl

theorem registered_concat (events : List DustRegistrationEvent) (event : DustRegistrationEvent) :
    Registered (events ++ [event]) ↔
      (Event.registers event).elim (Registered events) (· = true) := by
  unfold Registered
  rw [filterMap_append]
  cases kind : Event.registers event with
  | none | some => simp [kind]

theorem lastMapping_concat (events : List DustRegistrationEvent) (event : DustRegistrationEvent)
    (inserted : sinceRegistration events ≠ []) :
    lastMapping (events ++ [event]) = (Event.maps event).or (lastMapping events) := by
  unfold lastMapping
  rw [sinceRegistration_concat, if_neg inserted, filterMap_append]
  cases kind : Event.maps event with
  | none | some => simp [kind]

theorem expected_concat (events : List DustRegistrationEvent) (event : DustRegistrationEvent) :
    expected (events ++ [event]) =
      match event with
      | .registration _ _ => some (true, (expected events).elim (none, none) Prod.snd)
      | .deregistration _ _ => (expected events).map fun old => (false, old.2)
      | .mappingAdded _ _ utxo => (expected events).map fun old =>
        (old.1, some utxo.utxoId, some utxo.utxoIndex.toNat)
      | .mappingRemoved _ _ _ => (expected events).map fun old => (old.1, none, none) := by
  by_cases inserted : sinceRegistration events = []
  · have unmapped : lastMapping (events ++ [event]) = none := by
      rw [lastMapping, sinceRegistration_concat, if_pos inserted]
      cases event <;> simp [Event.registers, Event.maps]
    have later := sinceRegistration_concat events event
    rw [if_pos inserted] at later
    cases event <;>
      simp [expected, lastAdded, unmapped, later, inserted, registered_concat, Event.registers]
  · have later : sinceRegistration (events ++ [event]) ≠ [] := by
      rw [sinceRegistration_concat, if_neg inserted]
      simp
    have mapping := lastMapping_concat events event inserted
    cases event <;>
      simp [expected, lastAdded, mapping, later, inserted, registered_concat, Event.registers,
        Event.maps]

theorem eventsOf_concat (pair : RegistrationKey) (events : List DustRegistrationEvent)
    (event : DustRegistrationEvent) : eventsOf pair (events ++ [event]) =
      if event.key = pair then eventsOf pair events ++ [event] else eventsOf pair events := by
  unfold eventsOf
  rw [filter_append]
  by_cases own : event.key = pair <;> simp [own]

theorem lookup_update_other {other : RegistrationKey} (different : other ≠ pair)
    (same : ∀ row, (f row).key = row.key) (rows : List RegistrationRow) :
    lookup key pair (update key other f rows) =
      lookup key pair rows := by
  rw [lookup_update key same]
  cases found : lookup key pair rows with
  | none => rfl
  | some row =>
    have own := (lookup_some found).2
    rw [Option.map_some, if_neg (own ▸ different.symm)]

theorem lookup_update_own (same : ∀ row, (f row).key = row.key) (rows : List RegistrationRow) :
    lookup key pair (update key pair f rows) = (lookup key pair rows).map f := by
  rw [lookup_update key same]
  cases found : lookup key pair rows with
  | none => rfl
  | some row => rw [Option.map_some, if_pos (lookup_some found).2, Option.map_some]

theorem Agrees.save (agrees : Agrees pair rows events) (blockId : Nat) (blockTimestamp : Int)
    (event : DustRegistrationEvent) :
    Agrees pair (saveDustRegistrationEvent blockId blockTimestamp rows event)
      (events ++ [event]) := by
  unfold Agrees at agrees ⊢
  rw [eventsOf_concat]
  by_cases own : event.key = pair
  · rw [if_pos own, expected_concat, ← agrees]
    cases event with
    | registration stakeKey address =>
      rw [saveDustRegistrationEvent, lookup_upsert, if_pos]
      · cases lookup key pair rows <;> rfl
      · exact own.symm
      · exact fun _ => rfl
    | deregistration stakeKey address | mappingAdded stakeKey address utxo
    | mappingRemoved stakeKey address utxo =>
      subst own
      rw [saveDustRegistrationEvent, DustRegistrationEvent.key, lookup_update_own]
      · cases lookup key (stakeKey, address) rows <;> rfl
      · exact fun _ => rfl
  · rw [if_neg own, ← agrees]
    cases event with
    | registration stakeKey address =>
      rw [saveDustRegistrationEvent, lookup_upsert, if_neg]
      · exact Ne.symm own
      · exact fun _ => rfl
    | deregistration stakeKey address | mappingAdded stakeKey address utxo
    | mappingRemoved stakeKey address utxo =>
      rw [saveDustRegistrationEvent, lookup_update_other]
      · exact own
      · exact fun _ => rfl

/-! ## Whole histories -/

structure SavedEvents where
  events : List DustRegistrationEvent
  blockId : Nat
  blockTimestamp : Int

def saveAll (saves : List SavedEvents) : List RegistrationRow :=
  run (fun rows save => saveDustRegistrationEvents rows save.events save.blockId
    save.blockTimestamp) [] saves

theorem Agrees.saveEvents {earlier : List DustRegistrationEvent}
    (agrees : Agrees pair rows earlier) (events : List DustRegistrationEvent) (blockId : Nat)
    (blockTimestamp : Int) :
    Agrees pair (saveDustRegistrationEvents rows events blockId blockTimestamp)
      (earlier ++ events) := by
  refine run_history (fun rows taken => Agrees pair rows (earlier ++ taken)) ?_ ?_ events
  · intro rows taken event agrees
    rw [← append_assoc]
    exact agrees.save blockId blockTimestamp event
  · rw [append_nil]
    exact agrees

theorem agrees_saveAll (pair : RegistrationKey) (saves : List SavedEvents) :
    Agrees pair (saveAll saves) (saves.flatMap SavedEvents.events) := by
  have initially : Agrees pair [] [] := rfl
  refine run_history (fun rows taken => Agrees pair rows (taken.flatMap SavedEvents.events)) ?_
    initially saves
  intro rows taken save agrees
  rw [flatMap_append, flatMap_singleton]
  exact agrees.saveEvents save.events save.blockId save.blockTimestamp

def MarkedValid (pair : RegistrationKey) (rows : List RegistrationRow) : Prop :=
  ∃ row, Table.lookup RegistrationRow.key pair rows = some row ∧ row.valid = true

def storedReference (pair : RegistrationKey) (rows : List RegistrationRow) :
    Option ByteVec × Option Int :=
  (Table.lookup RegistrationRow.key pair rows).elim (none, none) fun row =>
    (row.utxoTxHash, row.utxoOutputIndex)

def referenceTo (utxo : MappingUtxo) : Option ByteVec × Option Int :=
  (some utxo.utxoId, some utxo.utxoIndex.toNat)

/-- The reference names an active mapping if there is one and is null otherwise. -/
def NamesActive (reference : Option ByteVec × Option Int)
    (events : List DustRegistrationEvent) : Prop :=
  ((∃ utxo, Active events utxo) → ∃ utxo, Active events utxo ∧ reference = referenceTo utxo) ∧
    ((∀ utxo, ¬Active events utxo) → reference = (none, none))

theorem sinceRegistration_of_registered (registered : Registered events) :
    sinceRegistration events ≠ [] := by
  intro never
  have none_registers : ∀ event ∈ events, Event.registers event ≠ some true := by
    simpa [sinceRegistration, dropWhile_eq_nil_iff] using never
  obtain ⟨event, member, registers⟩ := mem_filterMap.mp (mem_of_getLast? registered)
  exact none_registers event member registers

theorem markedValid_iff (agrees : Agrees pair rows events) :
    MarkedValid pair rows ↔ Registered (eventsOf pair events) := by
  have read : MarkedValid pair rows ↔ ((lookup key pair rows).map columns).any Prod.fst = true := by
    unfold MarkedValid
    cases lookup key pair rows <;> simp [columns]
  rw [read, agrees, expected]
  split
  next never =>
    simp only [Option.any_none, Bool.false_eq_true, false_iff]
    exact fun registered => sinceRegistration_of_registered registered never
  next => simp

theorem storedReference_eq (agrees : Agrees pair rows events) :
    storedReference pair rows = (lastAdded (eventsOf pair events)).elim (none, none) referenceTo := by
  have read : storedReference pair rows =
      ((lookup key pair rows).map columns).elim (none, none) Prod.snd := by
    unfold storedReference
    cases lookup key pair rows <;> rfl
  rw [read, agrees, expected]
  split
  next never =>
    have unmapped : lastAdded (eventsOf pair events) = none := by
      rw [lastAdded, lastMapping, never]
      rfl
    rw [unmapped]
    rfl
  next => cases lastAdded (eventsOf pair events) <;> rfl

/-- Along every run of the chain indexer, with starts, stops and failures anywhere, the
row of a pair says what the events of the saved blocks say about it. -/
theorem registrations_along_runs {crates : LedgerCrates} (decode : ByteVec → DustRegistrationEvent)
    (others : ChildTables crates) (node : NodeApi) (networkId : String)
    (moves : List (Service.Move (NodeBlock crates))) (pair : RegistrationKey) :
    let tables := withRegistrations decode others
    let s := run ((chainIndexer tables node networkId).logStep
      fun _ block => block.dustRegistrationEvents.map decode) ⟨Storage.empty tables, none, []⟩ moves
    (MarkedValid pair s.store.registrations ↔ Registered (eventsOf pair s.log)) ∧
      storedReference pair s.store.registrations =
        (lastAdded (eventsOf pair s.log)).elim (none, none) referenceTo := by
  intro tables s
  have keep : ∀ process (storage : Storage tables) block next log,
      Agrees pair storage.registrations log →
      (chainIndexer tables node networkId).step process storage block = .ok next →
      Agrees pair next.2.registrations (log ++ block.dustRegistrationEvents.map decode) := by
    intro process storage block next log agrees stepped
    obtain ⟨computed, change, _, save, _⟩ := RestartEquivalence.indexBlock_success stepped
    rw [Storage.saveBlock_registrations save]
    exact agrees.saveEvents _ _ _
  have agrees : Agrees pair s.store.registrations s.log := Service.run_log_keeps keep _ moves rfl
  exact ⟨markedValid_iff agrees, storedReference_eq agrees⟩

/-- The last mapping event since the first registration adds a mapping, or no mapping is
active. -/
def LastMappingCounts (events : List DustRegistrationEvent) : Prop :=
  (lastAdded events).isSome ∨ ∀ utxo, ¬Active events utxo

theorem registrations_exact_iff (saves : List SavedEvents) (pair : RegistrationKey) :
    let events := eventsOf pair (saves.flatMap SavedEvents.events)
    (MarkedValid pair (saveAll saves) ↔ Registered events) ∧
      (NamesActive (storedReference pair (saveAll saves)) events ↔ LastMappingCounts events) := by
  have agrees := agrees_saveAll pair saves
  refine ⟨markedValid_iff agrees, ?_⟩
  rw [storedReference_eq agrees, NamesActive, LastMappingCounts]
  cases added : lastAdded (eventsOf pair (saves.flatMap SavedEvents.events)) with
  | some utxo =>
    have active := active_of_lastAdded added
    exact iff_of_true ⟨fun _ => ⟨utxo, active, rfl⟩, fun none_active => absurd active (none_active _)⟩
      (Or.inl rfl)
  | none =>
    have unnamed : ∀ utxo, (none, none) ≠ referenceTo utxo := nofun
    constructor
    · intro ⟨names, _⟩
      refine Or.inr fun utxo active => ?_
      obtain ⟨other, _, same⟩ := names ⟨utxo, active⟩
      exact unnamed other same
    · rintro (impossible | none_active)
      · cases impossible
      · exact ⟨fun ⟨utxo, active⟩ => absurd active (none_active utxo), fun _ => rfl⟩

/-- A genesis with two mappings of one pair, as ledger 9's double map lists them, and a
block that removes the second. -/
def removedSecond : List SavedEvents :=
  [⟨[.registration [1] [2], .mappingAdded [1] [2] ⟨[3], 0⟩, .registration [1] [2],
      .mappingAdded [1] [2] ⟨[4], 1⟩], 1, 0⟩,
    ⟨[.mappingRemoved [1] [2] ⟨[4], 1⟩], 2, 6000⟩]

/-- A mapping whose event comes before the registration's. -/
def mappedFirst : List SavedEvents :=
  [⟨[.mappingAdded [1] [2] ⟨[3], 0⟩, .registration [1] [2]], 1, 6000⟩]

/-- In both the pair is valid and the mapping `[3]` active, and the reference is null. -/
theorem active_mapping_unnamed :
    (MarkedValid ([1], [2]) (saveAll removedSecond) ∧
      Active (eventsOf ([1], [2]) (removedSecond.flatMap SavedEvents.events)) ⟨[3], 0⟩ ∧
      storedReference ([1], [2]) (saveAll removedSecond) = (none, none)) ∧
    MarkedValid ([1], [2]) (saveAll mappedFirst) ∧
      Active (eventsOf ([1], [2]) (mappedFirst.flatMap SavedEvents.events)) ⟨[3], 0⟩ ∧
      storedReference ([1], [2]) (saveAll mappedFirst) = (none, none) :=
  ⟨⟨⟨_, rfl, rfl⟩, rfl, rfl⟩, ⟨_, rfl, rfl⟩, rfl, rfl⟩

end MidnightIndexer.Guarantees.DustRegistrations
