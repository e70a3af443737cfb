import MidnightIndexer.Lib.Paging
import MidnightIndexer.Lib.PrefixRange
import MidnightIndexer.Lib.Sql

/-!
# The nullifier queries

indexer-api/src/infra/storage/shielded_nullifiers.rs:28-92 and
dust_generations.rs:348-413. The two functions differ in the table and in one
column that is passed on, so there is one definition over the columns the query
compares.

The joins go along foreign keys to primary keys. A row has exactly one
transaction and one block, whose columns are part of the row here.
-/

namespace MidnightIndexer.Source

open Lib List

/-- A joined row; `κ` is the type of the column `commitment`, which
`zswap_nullifiers` lacks. -/
structure NullifierRow (κ : Type) where
  id : Nat
  nullifier : List UInt8
  commitment : κ
  transactionId : Nat
  transactionHash : List UInt8
  blockHeight : Int
  blockHash : List UInt8
  deriving DecidableEq

/-- Serial ids, and heights that fit their column. -/
structure NullifierTable {κ : Type} (rows : List (NullifierRow κ)) : Prop where
  unique : (rows.map NullifierRow.id).Nodup
  positive : ∀ row ∈ rows, 0 < row.id
  column : ∀ row ∈ rows, 0 ≤ row.blockHeight ∧ row.blockHeight < 2 ^ 63

/-- The end of the range of a prefix. -/
def nextPrefix (bytes : List UInt8) : List UInt8 :=
  match bytes.getLast? with
  | some last => if last < 255 then bytes.dropLast ++ [last + 1] else bytes ++ [0]
  | none => bytes

/-- `nullifier >= $1 AND nullifier < $2`. -/
def inPrefixRange (bytes nullifier : List UInt8) : Bool :=
  PrefixRange.InRange bytes (nextPrefix bytes) nullifier

/-- The arguments of the queries. -/
structure NullifierRequest where
  prefixes : List (List UInt8)
  fromBlock : UInt64
  toBlock : UInt64
  batchSize : NonZeroU32

namespace NullifierRequest

variable {κ : Type} (request : NullifierRequest)

/-- `height >= $3 AND height <= $4`. -/
def inBlocks (height : Int) : Bool :=
  Sql.asI64 request.fromBlock.toNat ≤ height ∧
    height ≤ Sql.asI64 (min request.toBlock.toNat (2 ^ 63 - 1))

def selects (bytes : List UInt8) (row : NullifierRow κ) : Bool :=
  inPrefixRange bytes row.nullifier && request.inBlocks row.blockHeight

/-- The query: one page of a prefix, behind the cursor. -/
def page (bytes : List UInt8) (rows : List (NullifierRow κ)) (cursor : Nat) :
    List (NullifierRow κ) :=
  (Sql.orderBy NullifierRow.id
    (rows.filter fun row => request.selects bytes row && cursor < row.id)).take
      request.batchSize.val

/-- The rows read for a list of prefixes with at most the given number of queries
for each, and whether the stream has ended. -/
def rowsOf (rows : List (NullifierRow κ)) (queries : Nat) :
    List (List UInt8) → List (NullifierRow κ) × Bool
  | [] => ([], true)
  | bytes :: rest =>
    let first := Paging.pages (request.page bytes rows) NullifierRow.id queries 0
    if first.2 then
      let later := rowsOf rows queries rest
      (first.1 ++ later.1, later.2)
    else first

end NullifierRequest

structure ShieldedNullifierTransaction where
  transactionId : Nat
  transactionHash : List UInt8
  blockHash : List UInt8
  blockHeight : UInt32
  nullifier : List UInt8

structure DustNullifierTransaction where
  nullifierLeBytes : List UInt8
  commitmentLeBytes : List UInt8
  transactionId : Nat
  transactionHash : List UInt8
  blockHeight : UInt32
  blockHash : List UInt8

def NullifierRow.toShielded (row : NullifierRow Unit) : ShieldedNullifierTransaction where
  transactionId := row.transactionId
  transactionHash := row.transactionHash
  blockHash := row.blockHash
  blockHeight := UInt32.ofInt row.blockHeight
  nullifier := row.nullifier

def NullifierRow.toDust (row : NullifierRow (List UInt8)) : DustNullifierTransaction where
  nullifierLeBytes := row.nullifier
  commitmentLeBytes := row.commitment
  transactionId := row.transactionId
  transactionHash := row.transactionHash
  blockHeight := UInt32.ofInt row.blockHeight
  blockHash := row.blockHash

def getShieldedNullifierTransactions (rows : List (NullifierRow Unit)) (request : NullifierRequest)
    (queries : Nat) : List ShieldedNullifierTransaction × Bool :=
  ((request.rowsOf rows queries request.prefixes).1.map NullifierRow.toShielded,
    (request.rowsOf rows queries request.prefixes).2)

def getDustNullifierTransactions (rows : List (NullifierRow (List UInt8)))
    (request : NullifierRequest) (queries : Nat) : List DustNullifierTransaction × Bool :=
  ((request.rowsOf rows queries request.prefixes).1.map NullifierRow.toDust,
    (request.rowsOf rows queries request.prefixes).2)

/-! ## What a page selects -/

/-- The range of a prefix holds what starts with it, unless its last byte is 255:
then it holds the prefix itself only. -/
theorem inPrefixRange_iff {bytes nullifier : List UInt8} (nonempty : bytes ≠ []) :
    inPrefixRange bytes nullifier ↔
      bytes <+: nullifier ∧ (bytes.getLast? = some 255 → nullifier = bytes) := by
  obtain ⟨front, last, rfl⟩ := (eq_nil_or_concat' bytes).resolve_left nonempty
  have final : (front ++ [last]).getLast? = some last := by simp
  unfold inPrefixRange nextPrefix
  rw [final, decide_eq_true_eq]
  dsimp only
  by_cases room : last < 255
  · have small : last ≠ 255 := UInt8.ne_of_lt room
    rw [if_pos room, dropLast_concat, PrefixRange.inRange_succ_iff room]
    simp [small]
  · have full : last = 255 := by
      rw [UInt8.lt_iff_toNat_lt] at room
      have bound := last.toNat_lt
      apply UInt8.toNat_inj.mp
      simp only [UInt8.reduceToNat] at room ⊢
      omega
    rw [if_neg room, PrefixRange.inRange_zero_iff, full]
    constructor
    · intro same
      exact ⟨same ▸ prefix_rfl, fun _ => same⟩
    · intro starts
      exact starts.2 rfl

theorem inPrefixRange_self {bytes : List UInt8} (nonempty : bytes ≠ []) :
    inPrefixRange bytes bytes :=
  (inPrefixRange_iff nonempty).mpr ⟨prefix_rfl, fun _ => rfl⟩

namespace NullifierRequest

variable {κ : Type} {request : NullifierRequest} {rows : List (NullifierRow κ)}

/-- The bounds of the block range that fit the column are compared as they are. -/
theorem inBlocks_iff (fits : request.fromBlock.toNat < 2 ^ 63) {height : Int}
    (column : height < 2 ^ 63) : request.inBlocks height ↔
      (request.fromBlock.toNat : Int) ≤ height ∧ height ≤ (request.toBlock.toNat : Int) := by
  have bound : min request.toBlock.toNat (2 ^ 63 - 1) < 2 ^ 63 := by omega
  simp only [inBlocks, decide_eq_true_eq, Sql.asI64_of_lt fits, Sql.asI64_of_lt bound]
  omega

theorem page_eq (rows : List (NullifierRow κ)) (bytes : List UInt8) (cursor : Nat) :
    request.page bytes rows cursor = Paging.page NullifierRow.id request.batchSize.val
        (Sql.orderBy NullifierRow.id (rows.filter (request.selects bytes))) (cursor + 1) := by
  have selected : (rows.filter fun row => request.selects bytes row && cursor < row.id) =
      (rows.filter (request.selects bytes)).filter fun row => cursor + 1 ≤ row.id := by
    rw [filter_filter]
    apply filter_congr
    intro row _
    rw [Bool.and_comm]
    rfl
  rw [page, selected, Sql.orderBy_filter]
  rfl

/-- The stream of one prefix ends with all of its rows, in id order. -/
theorem pages_end (request : NullifierRequest) (table : NullifierTable rows) (bytes : List UInt8) :
    Paging.Delivers (request.page bytes rows) NullifierRow.id 0
      (Sql.orderBy NullifierRow.id (rows.filter (request.selects bytes))) := by
  let ordered := Sql.orderBy NullifierRow.id (rows.filter (request.selects bytes))
  have strict := Sql.orderBy_strict NullifierRow.id (rows.filter (request.selects bytes))
    (table.unique.sublist (filter_sublist.map _))
  obtain ⟨queries, ended⟩ := Paging.delivers_keys strict request.batchSize.pos 1
  have all : Paging.rowsFrom NullifierRow.id ordered 1 = ordered := by
    rw [Paging.rowsFrom, filter_eq_self]
    intro row member
    have inside := mem_of_mem_filter (Sql.mem_orderBy.mp member)
    exact decide_eq_true (table.positive row inside)
  refine ⟨queries, ?_⟩
  rw [Paging.pages_map (fun cursor => cursor + 1) (page_eq rows bytes) fun _ => rfl]
  exact ended.trans (congrArg (·, true) all)

/-- Every prefix's stream ends, and the rows are those of the prefixes, one prefix
after the other. -/
theorem rowsOf_ends (request : NullifierRequest) (table : NullifierTable rows)
    (prefixes : List (List UInt8)) :
    ∃ queries, ∀ more, queries ≤ more → request.rowsOf rows more prefixes =
      (prefixes.flatMap fun bytes =>
        Sql.orderBy NullifierRow.id (rows.filter (request.selects bytes)), true) := by
  induction prefixes with
  | nil => exact ⟨0, fun _ _ => rfl⟩
  | cons bytes rest ih =>
    obtain ⟨first, ended⟩ := pages_end request table bytes
    obtain ⟨later, rest_ended⟩ := ih
    refine ⟨max first later, fun more enough => ?_⟩
    have page := Paging.pages_of_le ended (le_trans (le_max_left _ _) enough)
    simp only [rowsOf, page, if_true, rest_ended more (le_trans (le_max_right _ _) enough),
      flatMap_cons]

/-- A stream that has ended is not changed by further queries. -/
theorem rowsOf_of_le {prefixes : List (List UInt8)} {queries more : Nat}
    (ended : (request.rowsOf rows queries prefixes).2 = true) (less : queries ≤ more) :
    request.rowsOf rows more prefixes = request.rowsOf rows queries prefixes := by
  induction prefixes with
  | nil => rfl
  | cons bytes rest ih =>
    simp only [rowsOf] at ended ⊢
    split at ended
    next first =>
      have same : Paging.pages (request.page bytes rows) NullifierRow.id more 0 =
          Paging.pages (request.page bytes rows) NullifierRow.id queries 0 := by
        rw [Paging.pages_of_le (Prod.ext rfl first) less, ← first]
      rw [same, ih ended]
    next unfinished => exact absurd ended unfinished

end NullifierRequest

end MidnightIndexer.Source
