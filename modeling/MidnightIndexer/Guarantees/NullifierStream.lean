import MidnightIndexer.Source.NullifierQueries

/-!
# What the nullifier streams return

A stream returns the rows of its prefixes one prefix after the other. That is
each matching row once, on every table, exactly for the requests whose first
block fits the cast, whose prefixes do not end in 255 and of whose prefixes none
begins with another one.
-/

namespace MidnightIndexer.Guarantees.NullifierStream

open Lib List Source NullifierRequest

variable {κ : Type}

/-- A row in the block range whose nullifier starts with one of the prefixes. -/
def matchesRequest (request : NullifierRequest) (row : NullifierRow κ) : Bool :=
  (request.fromBlock.toNat : Int) ≤ row.blockHeight ∧
    row.blockHeight ≤ (request.toBlock.toNat : Int) ∧
    request.prefixes.any fun bytes => bytes.isPrefixOf row.nullifier

/-- The stream ends and has returned every matching row once. -/
def Exact (request : NullifierRequest) (rows : List (NullifierRow κ)) : Prop :=
  ∃ queries, (request.rowsOf rows queries request.prefixes).2 = true ∧
    (request.rowsOf rows queries request.prefixes).1.Perm (rows.filter (matchesRequest request))

/-- The first block is not cast to a negative number, no prefix ends in 255 and
none begins with another. -/
structure PrefixesApart (request : NullifierRequest) : Prop where
  fits : request.fromBlock.toNat < 2 ^ 63
  room : ∀ bytes ∈ request.prefixes, bytes.getLast? ≠ some 255
  apart : request.prefixes.Pairwise fun a b => ¬ a <+: b ∧ ¬ b <+: a

def returned (request : NullifierRequest) (rows : List (NullifierRow κ)) : List (NullifierRow κ) :=
  request.prefixes.flatMap fun bytes =>
    Sql.orderBy NullifierRow.id (rows.filter (request.selects bytes))

variable {request : NullifierRequest} {rows : List (NullifierRow κ)}

/-- The stream always ends; what is left is which rows it returned. -/
theorem exact_iff (table : NullifierTable rows) :
    Exact request rows ↔ (returned request rows).Perm (rows.filter (matchesRequest request)) := by
  obtain ⟨enough, ends⟩ := rowsOf_ends request table request.prefixes
  constructor
  · intro exact_rows
    obtain ⟨queries, ended, all⟩ := exact_rows
    rw [← rowsOf_of_le ended (le_max_left queries enough),
      ends _ (le_max_right queries enough)] at all
    exact all
  · intro all
    refine ⟨enough, ?_⟩
    rw [ends enough (Nat.le_refl _)]
    exact ⟨rfl, all⟩

/-! ## Requests whose prefixes are apart -/

/-- Rows selected under conditions that exclude one another are selected once. -/
theorem flatMap_filter_perm {α ρ : Type*} {key : ρ → Nat} (p : α → ρ → Bool) {rows : List ρ}
    {conditions : List α} (apart : conditions.Pairwise fun a b => ∀ row, p a row → ¬ p b row) :
    (conditions.flatMap fun a => Sql.orderBy key (rows.filter (p a))).Perm
      (rows.filter fun row => conditions.any (p · row)) := by
  induction conditions with
  | nil => simp
  | cons a rest ih =>
    obtain ⟨first, apart⟩ := pairwise_cons.mp apart
    have split := (filter_append_perm (p a) (rows.filter fun row => (a :: rest).any (p · row))).symm
    have selected : (rows.filter fun row => (a :: rest).any (p · row)).filter (p a) =
        rows.filter (p a) := by
      rw [filter_filter]
      apply filter_congr
      intro row _
      cases hit : p a row <;> simp [hit]
    have others : (rows.filter fun row => (a :: rest).any (p · row)).filter (fun row => !p a row) =
        rows.filter fun row => rest.any (p · row) := by
      rw [filter_filter]
      apply filter_congr
      intro row _
      cases hit : p a row with
      | false => simp [hit]
      | true =>
        have none_else : ∀ b ∈ rest, p b row = false := fun b member =>
          Bool.eq_false_iff.mpr (first b member row hit)
        simpa using none_else
    rw [selected, others] at split
    rw [flatMap_cons]
    exact ((Sql.orderBy_perm _ _).append (ih apart)).trans split.symm

theorem returned_perm (nonempty : ∀ bytes ∈ request.prefixes, bytes ≠ [])
    (separate : PrefixesApart request) (table : NullifierTable rows) :
    (returned request rows).Perm (rows.filter (matchesRequest request)) := by
  have selects_iff : ∀ bytes ∈ request.prefixes, ∀ row ∈ rows, request.selects bytes row ↔
      bytes <+: row.nullifier ∧ (request.fromBlock.toNat : Int) ≤ row.blockHeight ∧
        row.blockHeight ≤ (request.toBlock.toNat : Int) := by
    intro bytes member row inside
    rw [selects, Bool.and_eq_true, inPrefixRange_iff (nonempty bytes member),
      inBlocks_iff separate.fits (table.column row inside).2]
    simp [separate.room bytes member]
  have same : rows.filter (matchesRequest request) =
      rows.filter fun row => request.prefixes.any (request.selects · row) := by
    apply filter_congr
    intro row inside
    rw [Bool.eq_iff_iff, any_eq_true, matchesRequest, decide_eq_true_eq, any_eq_true]
    constructor
    · intro hit
      obtain ⟨above, below, bytes, member, starts⟩ := hit
      exact ⟨bytes, member, (selects_iff bytes member row inside).mpr
        ⟨List.isPrefixOf_iff_prefix.mp starts, above, below⟩⟩
    · intro hit
      obtain ⟨bytes, member, selected⟩ := hit
      obtain ⟨starts, above, below⟩ := (selects_iff bytes member row inside).mp selected
      exact ⟨above, below, bytes, member, isPrefixOf_iff_prefix.mpr starts⟩
  rw [same]
  apply flatMap_filter_perm
  refine separate.apart.imp_of_mem ?_
  intro a b a_member b_member apart row a_selects b_selects
  have a_starts := ((inPrefixRange_iff (nonempty a a_member)).mp
    (Bool.and_eq_true_iff.mp a_selects).1).1
  have b_starts := ((inPrefixRange_iff (nonempty b b_member)).mp
    (Bool.and_eq_true_iff.mp b_selects).1).1
  rcases prefix_or_prefix_of_prefix a_starts b_starts with longer | longer
  · exact apart.1 longer
  · exact apart.2 longer

/-! ## Tables of one row -/

section

variable [Inhabited κ]

def sampleRow (nullifier : List UInt8) (height : Int) : NullifierRow κ :=
  ⟨1, nullifier, default, 1, [], height, []⟩

variable {height : Int}

theorem sampleRow_table (nullifier : List UInt8) (column : 0 ≤ height ∧ height < 2 ^ 63) :
    NullifierTable [(sampleRow nullifier height : NullifierRow κ)] := by
  constructor
  · simp
  · simp [sampleRow]
  · intro row member
    rw [mem_singleton.mp member]
    exact column

omit [Inhabited κ] in
theorem returned_length (row : NullifierRow κ) :
    (returned request [row]).length = request.prefixes.countP (request.selects · row) := by
  rw [returned]
  induction request.prefixes with
  | nil => rfl
  | cons bytes rest ih =>
    rw [flatMap_cons, length_append, ih, countP_cons, (Sql.orderBy_perm _ _).length_eq]
    cases hit : request.selects bytes row <;> simp [hit, Nat.add_comm]

variable (exact_rows : ∀ rows : List (NullifierRow κ), NullifierTable rows → Exact request rows)
  (nullifier : List UInt8) (column : 0 ≤ height ∧ height < 2 ^ 63)

include exact_rows nullifier column

/-- What exactness on every table says about a table of one row. -/
theorem selected_once :
    request.prefixes.countP (request.selects · (sampleRow nullifier height : NullifierRow κ)) =
      if matchesRequest request (sampleRow nullifier height : NullifierRow κ) then 1 else 0 := by
  have table := sampleRow_table (κ := κ) nullifier column
  have all := ((exact_iff table).mp (exact_rows _ table)).length_eq
  rw [returned_length] at all
  rw [all]
  split
  next hit => simp [hit]
  next missed => simp [missed]

/-- A nullifier in the range of one prefix and starting with it is selected by it
alone. -/
theorem only_selected {a b : List UInt8} (a_member : a ∈ request.prefixes)
    (b_member : b ∈ request.prefixes)
    (a_selects : request.selects a (sampleRow nullifier height : NullifierRow κ))
    (b_selects : request.selects b (sampleRow nullifier height : NullifierRow κ)) : a = b := by
  let selecting := request.prefixes.filter
    (request.selects · (sampleRow nullifier height : NullifierRow κ))
  have few : selecting.length ≤ 1 := by
    rw [← countP_eq_length_filter, selected_once exact_rows nullifier column]
    split <;> omega
  have a_inside : a ∈ selecting := mem_filter.mpr ⟨a_member, a_selects⟩
  have b_inside : b ∈ selecting := mem_filter.mpr ⟨b_member, b_selects⟩
  obtain ⟨only, all⟩ := length_eq_one_iff.mp (Nat.le_antisymm few (length_pos_of_mem a_inside))
  rw [all, mem_singleton] at a_inside b_inside
  rw [a_inside, b_inside]

end

/-! ## Requests that are exact on every table -/

section

variable [Inhabited κ]

theorem first_block_fits (prefixed : request.prefixes ≠ [])
    (nonempty : ∀ bytes ∈ request.prefixes, bytes ≠ []) (ordered : request.fromBlock ≤ request.toBlock)
    (exact_rows : ∀ rows : List (NullifierRow κ), NullifierTable rows → Exact request rows) :
    request.fromBlock.toNat < 2 ^ 63 := by
  by_contra large
  obtain ⟨bytes, member⟩ := exists_mem_of_ne_nil _ prefixed
  have column : 0 ≤ (0 : Int) ∧ (0 : Int) < 2 ^ 63 := by decide
  have once := selected_once exact_rows bytes column
  have negative := Sql.asI64_neg (Nat.le_of_not_lt large) request.fromBlock.toNat_lt
  have limit : Sql.asI64 (min request.toBlock.toNat (2 ^ 63 - 1)) = 2 ^ 63 - 1 := by
    have order := UInt64.le_iff_toNat_le.mp ordered
    rw [Nat.min_eq_right (by omega), Sql.asI64_of_lt (by omega)]
    rfl
  have selected : request.selects bytes (sampleRow bytes 0 : NullifierRow κ) := by
    rw [selects, Bool.and_eq_true, inBlocks, limit]
    refine ⟨inPrefixRange_self (nonempty bytes member), decide_eq_true ⟨negative.le, ?_⟩⟩
    simp [sampleRow]
  have missed : matchesRequest request (sampleRow bytes 0 : NullifierRow κ) = false := by
    rw [matchesRequest, decide_eq_false_iff_not]
    intro inside
    have above := inside.1
    simp only [sampleRow] at above
    omega
  rw [missed, if_neg (by simp), countP_eq_zero] at once
  exact once bytes member selected

theorem selects_first_block (fits : request.fromBlock.toNat < 2 ^ 63)
    (ordered : request.fromBlock ≤ request.toBlock) (bytes nullifier : List UInt8) :
    request.selects bytes (sampleRow nullifier request.fromBlock.toNat : NullifierRow κ) ↔
      inPrefixRange bytes nullifier := by
  have order := UInt64.le_iff_toNat_le.mp ordered
  rw [selects, Bool.and_eq_true, inBlocks_iff fits (by simp [sampleRow]; omega)]
  refine and_iff_left ⟨Int.le_refl _, ?_⟩
  simp only [sampleRow]
  omega

theorem last_bytes_have_room (nonempty : ∀ bytes ∈ request.prefixes, bytes ≠ [])
    (fits : request.fromBlock.toNat < 2 ^ 63) (ordered : request.fromBlock ≤ request.toBlock)
    (exact_rows : ∀ rows : List (NullifierRow κ), NullifierTable rows → Exact request rows)
    {bytes : List UInt8} (member : bytes ∈ request.prefixes) : bytes.getLast? ≠ some 255 := by
  intro full
  have order := UInt64.le_iff_toNat_le.mp ordered
  have column : 0 ≤ (request.fromBlock.toNat : Int) ∧ (request.fromBlock.toNat : Int) < 2 ^ 63 := by
    omega
  -- A nullifier longer than every prefix that goes on with 255 behind this one.
  let long := bytes ++ replicate (request.prefixes.flatten.length + 1) 255
  have hit : matchesRequest request
      (sampleRow long request.fromBlock.toNat : NullifierRow κ) = true := by
    rw [matchesRequest, decide_eq_true_eq]
    refine ⟨Int.le_refl _, ?_, any_eq_true.mpr ⟨bytes, member, ?_⟩⟩
    · simp only [sampleRow]
      omega
    · exact isPrefixOf_iff_prefix.mpr (prefix_append _ _)
  have once := selected_once exact_rows long column
  rw [hit, if_pos rfl] at once
  obtain ⟨other, other_member, selects⟩ := countP_pos_iff.mp (by omega : 0 <
    request.prefixes.countP (request.selects ·
      (sampleRow long request.fromBlock.toNat : NullifierRow κ)))
  rw [selects_first_block fits ordered, inPrefixRange_iff (nonempty other other_member)] at selects
  obtain ⟨starts, whole⟩ := selects
  have shorter : other.length < long.length := by
    have := (sublist_flatten_of_mem other_member).length_le
    simp only [long, length_append, length_replicate]
    omega
  have other_room : other.getLast? ≠ some 255 := fun ends =>
    absurd (congrArg length (whole ends)) (by omega)
  have below : other <+: bytes := by
    rcases prefix_or_prefix_of_prefix starts (prefix_append _ _) with below | above
    · exact below
    · obtain ⟨tail, rfl⟩ := above
      rw [prefix_append_right_inj] at starts
      rcases eq_nil_or_concat' tail with rfl | ⟨front, last, rfl⟩
      · simp
      · have same : last = 255 :=
          eq_of_mem_replicate (starts.subset (mem_append_right front (by simp)))
        exact absurd (by simp [same]) other_room
  have both := only_selected exact_rows bytes column other_member member
    ((selects_first_block fits ordered other bytes).mpr
      ((inPrefixRange_iff (nonempty other other_member)).mpr
        ⟨below, fun ends => absurd ends other_room⟩))
    ((selects_first_block fits ordered bytes bytes).mpr
      (inPrefixRange_self (nonempty bytes member)))
  exact other_room (both ▸ full)

theorem prefixes_apart (nonempty : ∀ bytes ∈ request.prefixes, bytes ≠ [])
    (fits : request.fromBlock.toNat < 2 ^ 63) (ordered : request.fromBlock ≤ request.toBlock)
    (room : ∀ bytes ∈ request.prefixes, bytes.getLast? ≠ some 255)
    (exact_rows : ∀ rows : List (NullifierRow κ), NullifierTable rows → Exact request rows) :
    request.prefixes.Pairwise fun a b => ¬ a <+: b ∧ ¬ b <+: a := by
  have column : 0 ≤ (request.fromBlock.toNat : Int) ∧ (request.fromBlock.toNat : Int) < 2 ^ 63 := by
    omega
  -- Two prefixes of which one begins with the other select the longer one twice.
  have twice : ∀ {a b long : List UInt8}, [a, b].Sublist request.prefixes → a <+: long →
      b <+: long → False := by
    intro a b long both a_starts b_starts
    have selects : ∀ bytes ∈ [a, b], request.selects bytes
        (sampleRow long request.fromBlock.toNat : NullifierRow κ) := by
      intro bytes member
      have inside := both.subset member
      rw [selects_first_block fits ordered, inPrefixRange_iff (nonempty bytes inside)]
      refine ⟨?_, fun full => absurd full (room bytes inside)⟩
      rcases mem_cons.mp member with rfl | second
      · exact a_starts
      · rw [mem_singleton.mp second]
        exact b_starts
    have two : 2 ≤ request.prefixes.countP (request.selects ·
        (sampleRow long request.fromBlock.toNat : NullifierRow κ)) :=
      (countP_eq_length.mpr selects).ge.trans both.countP_le
    rw [selected_once exact_rows long column] at two
    split at two <;> omega
  rw [pairwise_iff_forall_sublist]
  intro a b both
  exact ⟨fun longer => twice both longer prefix_rfl, fun longer => twice both prefix_rfl longer⟩

end

/-- For either table: a request returns each matching row once on every table if
and only if its first block fits the cast and its prefixes are apart. -/
theorem nullifier_stream_exact_iff (request : NullifierRequest)
    (prefixed : request.prefixes ≠ []) (nonempty : ∀ bytes ∈ request.prefixes, bytes ≠ [])
    (ordered : request.fromBlock ≤ request.toBlock) :
    ((∀ rows : List (NullifierRow Unit), NullifierTable rows → Exact request rows) ↔
      PrefixesApart request) ∧
    ((∀ rows : List (NullifierRow (List UInt8)), NullifierTable rows → Exact request rows) ↔
      PrefixesApart request) := by
  have sufficient : ∀ {κ : Type}, PrefixesApart request → ∀ rows : List (NullifierRow κ),
      NullifierTable rows → Exact request rows := fun separate rows table =>
    (exact_iff table).mpr (returned_perm nonempty separate table)
  have necessary : ∀ {κ : Type} [Inhabited κ], (∀ rows : List (NullifierRow κ),
      NullifierTable rows → Exact request rows) → PrefixesApart request := by
    intro κ _ exact_rows
    have fits := first_block_fits prefixed nonempty ordered exact_rows
    have room : ∀ bytes ∈ request.prefixes, bytes.getLast? ≠ some 255 := fun bytes member =>
      last_bytes_have_room nonempty fits ordered exact_rows member
    exact ⟨fits, room, prefixes_apart nonempty fits ordered room exact_rows⟩
  exact ⟨⟨necessary, sufficient⟩, ⟨necessary, sufficient⟩⟩

/-- Blocks 0 to 10 in pages of one row. -/
def sampleRequest (prefixes : List (List UInt8)) : NullifierRequest where
  prefixes := prefixes
  fromBlock := 0
  toBlock := 10
  batchSize := NonZeroU32.ofNat 1

/-- The range of the prefix `ff` ends at `ff00`, and a nullifier that goes on is
not returned. -/
theorem last_byte_full_lost :
    let row : NullifierRow Unit := sampleRow [255, 7] 0
    NullifierTable [row] ∧ matchesRequest (sampleRequest [[255]]) row = true ∧
      (sampleRequest [[255]]).rowsOf [row] 1 [[255]] = ([], true) ∧
      ¬ Exact (sampleRequest [[255]]) [row] := by
  intro row
  have table : NullifierTable [row] := sampleRow_table [255, 7] (by decide)
  refine ⟨table, by decide, by decide, fun exact_rows => ?_⟩
  have all := ((exact_iff table).mp exact_rows).length_eq
  exact absurd all (by decide)

/-- Two prefixes that are apart. -/
theorem nullifier_stream_exact_iff_sample :
    PrefixesApart (sampleRequest [[1], [2, 3]]) ∧
      Exact (sampleRequest [[1], [2, 3]]) [(sampleRow [2, 3, 255] 4 : NullifierRow Unit)] := by
  have separate : PrefixesApart (sampleRequest [[1], [2, 3]]) :=
    ⟨by decide, by decide, by decide⟩
  have iff := nullifier_stream_exact_iff (sampleRequest [[1], [2, 3]]) (by decide) (by decide)
    (by decide)
  exact ⟨separate, iff.1.mpr separate _ (sampleRow_table [2, 3, 255] (by decide))⟩

/-- Also before the end, what was read is stored and in the range of a prefix. -/
theorem mem_rowsOf {row : NullifierRow κ} {queries : Nat} {prefixes : List (List UInt8)}
    (read : row ∈ (request.rowsOf rows queries prefixes).1) :
    row ∈ rows ∧ ∃ bytes ∈ prefixes, request.selects bytes row := by
  induction prefixes with
  | nil => cases read
  | cons bytes rest ih =>
    have first : row ∈ (Paging.pages (request.page bytes rows) NullifierRow.id queries 0).1 →
        row ∈ rows ∧ ∃ other ∈ bytes :: rest, request.selects other row := by
      intro paged
      obtain ⟨_, fetched⟩ := Paging.mem_pages paged
      have kept := mem_filter.mp (Sql.mem_orderBy.mp (mem_of_mem_take fetched))
      exact ⟨kept.1, bytes, mem_cons_self, (Bool.and_eq_true_iff.mp kept.2).1⟩
    simp only [rowsOf] at read
    split at read
    · rcases mem_append.mp read with paged | later
      · exact first paged
      · obtain ⟨stored, other, member, selected⟩ := ih later
        exact ⟨stored, other, mem_cons_of_mem _ member, selected⟩
    · exact first read

/-- The nullifier starts with a prefix of the request that is not empty. -/
def Requested (request : NullifierRequest) (row : NullifierRow κ) : Prop :=
  request.inBlocks row.blockHeight ∧
    ∃ bytes ∈ request.prefixes, bytes ≠ [] ∧ bytes <+: row.nullifier

theorem requested_of_selects {row : NullifierRow κ} {bytes : List UInt8}
    (member : bytes ∈ request.prefixes) (selected : request.selects bytes row) :
    Requested request row := by
  obtain ⟨ranged, inside⟩ := Bool.and_eq_true_iff.mp selected
  -- The range of the empty prefix ends where it starts.
  have nonempty : bytes ≠ [] := by
    rintro rfl
    cases nullifier : row.nullifier <;>
      simp [inPrefixRange, nextPrefix, PrefixRange.InRange, nullifier] at ranged
  exact ⟨inside, bytes, member, nonempty, ((inPrefixRange_iff nonempty).mp ranged).1⟩

/-- However far they are read, both streams carry requested rows only. -/
theorem nullifier_transactions_requested (request : NullifierRequest) (queries : Nat)
    (zswap : List (NullifierRow Unit)) (dust : List (NullifierRow (List UInt8))) :
    (∀ t ∈ (getShieldedNullifierTransactions zswap request queries).1,
      ∃ row ∈ zswap, row.toShielded = t ∧ Requested request row) ∧
    ∀ t ∈ (getDustNullifierTransactions dust request queries).1,
      ∃ row ∈ dust, row.toDust = t ∧ Requested request row := by
  constructor
  all_goals
    intro t returned
    obtain ⟨row, read, rfl⟩ := mem_map.mp returned
    obtain ⟨stored, bytes, member, selected⟩ := mem_rowsOf read
    exact ⟨row, stored, rfl, requested_of_selects member selected⟩

end MidnightIndexer.Guarantees.NullifierStream
