import MidnightIndexer.Lib.Table
import MidnightIndexer.Source.EventCorrelation

/-!
# Contract events name the only call that can have emitted them

The search stops at the second match, so an event is attributed exactly when one
call alone has its address and entry point. Which one that is does not depend on
the order in which the actions are listed.
-/

namespace MidnightIndexer.Guarantees.EventCorrelation

open Source Source.ChainIndexer Source.EventCorrelation

variable {crates : LedgerCrates}

def ContractEventOf (event : LedgerEvent) (address entryPoint : ByteVec) : Prop :=
  event.contractAddress = some address ∧
    event.attributes.contractEntryPoint = some entryPoint

/-- A call of the entry point at the address. -/
def CallOf (action : ContractAction crates) (address entryPoint : ByteVec) : Prop :=
  ∃ name, action.attributes = .call name ∧ name.toUTF8.toList = entryPoint ∧
    action.address = address

/-- The row with the id is a call with the event's address and entry point, and
no other row is. -/
def OnlyCall (rows : List (ContractAction crates × Int)) (event : LedgerEvent) (id : Int) : Prop :=
  ∃ address entryPoint, ContractEventOf event address entryPoint ∧
    ∃ before action after, rows = before ++ (action, id) :: after ∧
      CallOf action address entryPoint ∧
      ∀ row ∈ before ++ after, ¬ CallOf row.1 address entryPoint

theorem emits_iff {address entryPoint : ByteVec} {action : ContractAction crates} :
    emits address entryPoint action = true ↔ CallOf action address entryPoint := by
  unfold emits CallOf
  cases action.attributes with
  | deploy => simp
  | update => simp
  | call name => simp

theorem zip_rows (rows : List (ContractAction crates × Int)) :
    (rows.map (·.1)).zip (rows.map (·.2)) = rows := by
  rw [List.zip_map']
  simp

theorem first_of_found {found : List (ContractAction crates × Int)} {id : Int} :
    (found.head?.bind fun row => if found.tail.head?.isNone then some row.2 else none) = some id ↔
      ∃ action, found = [(action, id)] := by
  match found with
  | [] => simp
  | [(action, other)] => simp
  | _ :: _ :: _ => simp

theorem correlate_some_iff (rows : List (ContractAction crates × Int)) (event : LedgerEvent)
    (id : Int) : correlateContractActionId (rows.map (·.1)) (rows.map (·.2)) event = some id ↔
      OnlyCall rows event id := by
  have found (address entryPoint : ByteVec) :
      (∃ action, rows.filter (fun row => emits address entryPoint row.1) = [(action, id)]) ↔
        ∃ before action after, rows = before ++ (action, id) :: after ∧
          CallOf action address entryPoint ∧
          ∀ row ∈ before ++ after, ¬ CallOf row.1 address entryPoint := by
    simp only [Lib.Table.filter_only_iff, emits_iff]
    exact exists_comm
  unfold correlateContractActionId OnlyCall ContractEventOf
  rw [zip_rows]
  cases event.contractAddress with
  | none => simp
  | some address =>
    cases event.attributes.contractEntryPoint with
    | none => simp
    | some entryPoint =>
      have here := first_of_found.trans (found address entryPoint)
      constructor
      · intro attributed
        exact ⟨address, entryPoint, ⟨rfl, rfl⟩, here.mp attributed⟩
      · rintro ⟨_, _, ⟨same_address, same_entry⟩, only⟩
        cases same_address
        cases same_entry
        exact here.mpr only

/-- Reordering the rows keeps the rows that match, and so whether one is alone. -/
theorem OnlyCall.perm {rows others : List (ContractAction crates × Int)}
    (reordered : rows.Perm others) {event : LedgerEvent} {id : Int}
    (only : OnlyCall rows event id) : OnlyCall others event id := by
  obtain ⟨address, entryPoint, event_of, before, action, after, rfl, called, no_other⟩ := only
  have member : (action, id) ∈ others := reordered.subset (by simp)
  obtain ⟨front, rest, rfl⟩ := List.append_of_mem member
  have kept : (before ++ after).Perm (front ++ rest) :=
    List.Perm.cons_inv (List.perm_middle.symm.trans (reordered.trans List.perm_middle))
  exact ⟨address, entryPoint, event_of, front, action, rest, rfl, called,
    fun row there => no_other row (kept.mem_iff.mpr there)⟩

/-- **One entry per event, naming the only call that matches it**, whatever the
order of the actions. -/
theorem correlates_only_calls (ledgerEvents : List LedgerEvent)
    (rows : List (ContractAction crates × Int)) :
    (correlateContractActionIds ledgerEvents (rows.map (·.1)) (rows.map (·.2))).length =
        ledgerEvents.length ∧
      (∀ (position : Nat) event, ledgerEvents[position]? = some event →
        ∃ entry,
          (correlateContractActionIds ledgerEvents (rows.map (·.1)) (rows.map (·.2)))[position]? =
            some entry ∧
          ∀ id, entry = some id ↔ OnlyCall rows event id) ∧
      ∀ others, rows.Perm others →
        correlateContractActionIds ledgerEvents (others.map (·.1)) (others.map (·.2)) =
          correlateContractActionIds ledgerEvents (rows.map (·.1)) (rows.map (·.2)) := by
  unfold correlateContractActionIds
  refine ⟨List.length_map _, ?_, ?_⟩
  · intro position event at_position
    exact ⟨_, by rw [List.getElem?_map, at_position]; rfl, correlate_some_iff rows event⟩
  · intro others reordered
    apply List.map_congr_left
    intro event _
    apply Option.ext
    intro id
    rw [correlate_some_iff, correlate_some_iff]
    exact ⟨OnlyCall.perm reordered.symm, OnlyCall.perm reordered⟩

end MidnightIndexer.Guarantees.EventCorrelation
