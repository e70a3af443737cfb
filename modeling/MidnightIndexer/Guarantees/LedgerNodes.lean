import MidnightIndexer.Lib.Rotation
import MidnightIndexer.Lib.Run
import MidnightIndexer.Source.LedgerNodes

/-!
# Batches and scans of the ledger DB against single reads and updates

A batch of keys is answered from a map that each answer empties of its key, so a
stored key that is listed twice is found once. A batch of updates buffers its
inserts, but flushes them before any other update, so no reordering is visible. A
scan resumes by key and not by position, so what happens at or below the handle
does not matter to it.
-/

namespace MidnightIndexer.Guarantees.LedgerNodes

open Lib List Source Source.LedgerNodes Sql
open Table hiding update

variable {Key Raw Object : Type}

/-! ## Batched reads -/

section

variable [DecidableEq Key] {nodes : List (Key × Object)} {key : Key} {keys : List Key}

def nodeOf (nodes : List (Key × Object)) (key : Key) : Option Object :=
  (Table.lookup Prod.fst key nodes).map Prod.snd

theorem nodeOf_isSome : (nodeOf nodes key).isSome ↔ key ∈ nodes.map Prod.fst := by
  simp [nodeOf, Table.lookup]

theorem nodeOf_delete (other : Key) : nodeOf (delete Prod.fst key nodes) other =
      if other = key then none else nodeOf nodes other := by
  rw [nodeOf, lookup_delete]
  split <;> rfl

theorem getNode_stored (codec : Codec Raw Object) (nodes : List (Key × Object)) (key : Key) :
    getNode codec (stored codec nodes) key = .ok (nodeOf nodes key) := by
  have found : lookup NodeRow.key key (stored codec nodes) =
      (lookup Prod.fst key nodes).map fun node => ⟨node.1, codec.serialize node.2⟩ := by
    rw [Table.lookup, stored, find?_map]
    rfl
  rw [getNode, found, nodeOf]
  cases lookup Prod.fst key nodes with
  | none => rfl
  | some node =>
    simp only [Option.map_some, codec.reads_back]
    rfl

theorem batchGetNodes_stored (codec : Codec Raw Object) (nodes : List (Key × Object))
    (keys : List Key) : batchGetNodes codec (stored codec nodes) keys =
      .ok (removeNodes (nodes.filter fun node => node.1 ∈ keys) keys) := by
  unfold batchGetNodes
  split
  next none_asked =>
    rw [isEmpty_iff.mp none_asked]
    rfl
  next =>
    rw [stored, filter_map]
    change ((stored codec (nodes.filter fun node => node.1 ∈ keys)).mapM _ >>= _) = _
    rw [mapM_readRow]
    rfl

theorem nodeOf_of_removed {object : Object}
    (answered : (key, some object) ∈ removeNodes nodes keys) : nodeOf nodes key = some object := by
  induction keys generalizing nodes with
  | nil => cases answered
  | cons head rest ih =>
    rcases mem_cons.mp answered with here | later
    · obtain ⟨rfl, same⟩ := Prod.mk.injEq _ _ _ _ ▸ here
      exact same.symm
    · have found := ih later
      rw [nodeOf_delete] at found
      split at found
      · cases found
      · exact found

theorem answers_congr {others : List (Key × Object)}
    (agree : ∀ key ∈ keys, nodeOf others key = nodeOf nodes key) :
    keys.map (fun key => (key, nodeOf others key)) = keys.map (fun key => (key, nodeOf nodes key)) ∧
      keys.filter (fun key => (nodeOf others key).isSome) =
        keys.filter (fun key => (nodeOf nodes key).isSome) :=
  ⟨map_congr_left fun key member => by rw [agree key member],
    filter_congr fun key member => by rw [agree key member]⟩

theorem removeNodes_eq_iff (nodes : List (Key × Object)) (keys : List Key) :
    removeNodes nodes keys = keys.map (fun key => (key, nodeOf nodes key)) ↔
      (keys.filter fun key => (nodeOf nodes key).isSome).Nodup := by
  induction keys generalizing nodes with
  | nil => simp [removeNodes]
  | cons head rest ih =>
    rw [removeNodes, map_cons, cons_eq_cons, nodeOf, eq_self, true_and]
    -- the map loses nothing that is asked for, unless the head comes again
    have agree (once : head ∈ rest → nodeOf nodes head = none) : ∀ key ∈ rest,
        nodeOf (delete Prod.fst head nodes) key = nodeOf nodes key := by
      intro key member
      rw [nodeOf_delete]
      split
      next same => rw [same, once (same ▸ member)]
      next => rfl
    cases held : nodeOf nodes head with
    | none =>
      obtain ⟨answers, asked⟩ := answers_congr (agree fun _ => held)
      rw [← answers, ih, asked, filter_cons_of_neg (by simp [held])]
    | some object =>
      rw [filter_cons_of_pos (by simp [held]), nodup_cons, mem_filter]
      simp only [held, Option.isSome_some, and_true]
      by_cases again : head ∈ rest
      · refine iff_of_false (fun same => ?_) fun distinct => distinct.1 again
        have gone := nodeOf_of_removed (same ▸ held ▸ mem_map_of_mem again :
          (head, some object) ∈ removeNodes (delete Prod.fst head nodes) rest)
        simp [nodeOf_delete] at gone
      · obtain ⟨answers, asked⟩ := answers_congr (agree fun later => absurd later again)
        rw [← answers, ih, asked, and_iff_right again]

/-- A batch answers as the single reads do if and only if no stored key is listed twice. -/
theorem batch_get_nodes_iff (codec : Codec Raw Object) (nodes : List (Key × Object))
    (keys : List Key) :
    batchGetNodes codec (stored codec nodes) keys =
        keys.mapM (fun key => (getNode codec (stored codec nodes) key).map (key, ·)) ↔
      (keys.filter fun key => key ∈ nodes.map Prod.fst).Nodup := by
  have single : keys.mapM (fun key => (getNode codec (stored codec nodes) key).map (key, ·)) =
      .ok (keys.map fun key => (key, nodeOf nodes key)) := by
    simp only [getNode_stored]
    exact List.mapM_pure
  have agree : ∀ key ∈ keys,
      nodeOf (nodes.filter fun node => node.1 ∈ keys) key = nodeOf nodes key := by
    intro key member
    have hit : ∀ node : Key × Object, node.1 ∈ keys ∧ node.1 = key ↔ node.1 = key :=
      fun node => and_iff_right_of_imp fun same => same ▸ member
    simp only [nodeOf, Table.lookup, List.find?_filter, decide_eq_true_eq, hit]
  obtain ⟨answers, asked⟩ := answers_congr agree
  rw [single, batchGetNodes_stored, Except.ok.injEq, ← answers, removeNodes_eq_iff, asked]
  simp only [← nodeOf_isSome, Bool.decide_eq_true]

/-- A stored key listed twice is answered with its node once, a single read finds it each time. -/
theorem batch_get_nodes_repeated :
    let codec : Codec Nat Nat := ⟨id, some, fun _ => rfl⟩
    let rows := stored codec [(1, 10)]
    batchGetNodes codec rows [1, 1] = .ok [(1, some 10), (1, none)] ∧
      [1, 1].mapM (fun key => (getNode codec rows key).map (key, ·)) =
        .ok [(1, some 10), (1, some 10)] := by
  exact ⟨rfl, rfl⟩

end

/-! ## Batched updates -/

section

variable [DecidableEq Key] {codec : Codec Raw Object} {rejects : List Key → Bool}

/-- The chunks in which the inserts of a batch reach the database, behind those that are
buffered already. -/
def bufferedChunks (inserts : List (Key × Object)) :
    List (Key × Update Object) → List (List (Key × Object))
  | [] => inserts.toChunks batchInsertSize
  | (key, .insertNode object) :: rest => bufferedChunks (inserts ++ [(key, object)]) rest
  | (_, _) :: rest => inserts.toChunks batchInsertSize ++ bufferedChunks [] rest

theorem toChunks_go_flatten {α : Type} (n : Nat) (xs : List α) (chunk : Array α)
    (chunks : Array (List α)) : (toChunks.go n xs chunk chunks).flatten =
      chunks.toList.flatten ++ chunk.toList ++ xs := by
  induction xs generalizing chunk chunks with
  | nil => simp [toChunks.go]
  | cons x rest ih =>
    rw [toChunks.go]
    split
    · simp [ih]
    · simp [ih]

omit [DecidableEq Key] in
theorem toChunks_flatten (inserts : List (Key × Object)) :
    (inserts.toChunks batchInsertSize).flatten = inserts := by
  cases inserts with
  | nil => rfl
  | cons node rest => simp [toChunks, batchInsertSize, toChunks_go_flatten]

/-- The tables are the expected ones, or there is a panic, which a chunk explains. -/
def Exact (result : Except String (Tables Key Raw)) (expected : Tables Key Raw)
    (chunks : List (List (Key × Object))) : Prop :=
  result = .ok expected ∨
    (∃ panic, result = .error panic) ∧ ∃ chunk ∈ chunks, ¬ (chunk.map Prod.fst).Nodup

variable (sound : ∀ keys, rejects keys → ¬ keys.Nodup)

include sound in
theorem flushInserts_exact (tables : Tables Key Raw) (inserts : List (Key × Object)) :
    Exact (flushInserts codec rejects tables inserts) (inserts.foldl (insertNode codec) tables)
      (inserts.toChunks batchInsertSize) := by
  have whole := toChunks_flatten inserts
  unfold flushInserts
  generalize inserts.toChunks batchInsertSize = chunks at whole
  subst whole
  induction chunks generalizing tables with
  | nil => exact .inl rfl
  | cons chunk rest ih =>
    rw [foldlM_cons, flatten_cons, foldl_append]
    split
    next refused =>
      exact .inr ⟨⟨_, rfl⟩, chunk, mem_cons_self, sound _ refused⟩
    next =>
      rcases ih (chunk.foldl (insertNode codec) tables) with done | ⟨panics, other, member, twice⟩
      · exact .inl done
      · exact .inr ⟨panics, other, mem_cons_of_mem _ member, twice⟩

include sound in
theorem Exact.bind {tables expected : Tables Key Raw} {inserts : List (Key × Object)}
    {next : Tables Key Raw → Except String (Tables Key Raw)} {chunks : List (List (Key × Object))}
    (later : Exact (next (inserts.foldl (insertNode codec) tables)) expected chunks) :
    Exact (flushInserts codec rejects tables inserts >>= next) expected
      (inserts.toChunks batchInsertSize ++ chunks) := by
  rcases flushInserts_exact sound tables inserts with flushed | ⟨⟨panic, failed⟩, chunk, member, twice⟩
  · rw [flushed]
    rcases later with done | ⟨panics, chunk, member, twice⟩
    · exact .inl done
    · exact .inr ⟨panics, chunk, mem_append_right _ member, twice⟩
  · rw [failed]
    exact .inr ⟨⟨panic, rfl⟩, chunk, mem_append_left _ member, twice⟩

include sound in
theorem updateLoop_exact (updates : List (Key × Update Object)) (tables : Tables Key Raw)
    (inserts : List (Key × Object)) : Exact (updateLoop codec rejects tables inserts updates)
      (updates.foldl (update codec) (inserts.foldl (insertNode codec) tables))
      (bufferedChunks inserts updates) := by
  induction updates generalizing tables inserts with
  | nil => exact flushInserts_exact sound tables inserts
  | cons first rest ih =>
    obtain ⟨key, change⟩ := first
    cases change with
    | insertNode object =>
      -- the insert stays in the buffer, behind the earlier ones
      have buffered := ih tables (inserts ++ [(key, object)])
      rw [foldl_append] at buffered
      exact buffered
    | deleteNode => exact .bind sound (ih _ [])
    | setRootCount count => exact .bind sound (ih _ [])

include sound in
/-- A batch leaves the tables as its updates one by one would, or panics and changes nothing;
it panics only if a chunk of buffered inserts repeats a key. -/
theorem batch_update_exact (tables : Tables Key Raw) (updates : List (Key × Update Object)) :
    batchUpdate codec rejects tables updates = (updates.foldl (update codec) tables, none) ∨
      (∃ panic, batchUpdate codec rejects tables updates = (tables, some panic)) ∧
        ∃ chunk ∈ bufferedChunks [] updates, ¬ (chunk.map Prod.fst).Nodup := by
  unfold batchUpdate
  rcases updateLoop_exact sound updates tables [] with done | ⟨⟨panic, failed⟩, repeated⟩
  · rw [done]
    exact Or.inl rfl
  · rw [failed]
    exact Or.inr ⟨⟨panic, rfl⟩, repeated⟩

/-- A key that is inserted, deleted and inserted again, with an engine that refuses every
upsert of a repeated key. -/
theorem batch_update_exact_reinserted :
    let codec : Codec Nat Nat := ⟨id, some, fun _ => rfl⟩
    let rejects : List Nat → Bool := fun keys => ¬ keys.Nodup
    let updates : List (Nat × Update Nat) :=
      [(1, .insertNode 10), (1, .deleteNode), (2, .setRootCount 3), (1, .insertNode 11)]
    batchUpdate codec rejects ⟨[⟨1, 9⟩], .empty⟩ updates =
      (updates.foldl (update codec) ⟨[⟨1, 9⟩], .empty⟩, none) := by
  intro codec rejects updates
  exact (batch_update_exact (fun keys refused => of_decide_eq_true refused) _ updates).resolve_right
    fun panics => absurd panics.2 (by decide)

end

/-! ## Scans over a table that changes -/

section

variable [LinearOrder Key] {backend : Sql.Backend} {codec : Codec Raw Object}
  {initial nodes : List (Key × Object)} {handle : Option Key}

/-- What the scans have returned, the handle to resume from, and whether none was returned. -/
structure Sweep (Key Object : Type) where
  visited : List (Key × Object)
  handle : Option Key
  ended : Bool
  deriving DecidableEq

def Sweep.start : Sweep Key Object := ⟨[], none, false⟩

/-- Scan the present table from the last handle on. -/
def sweepStep (backend : Sql.Backend) (codec : Codec Raw Object) (size : Nat)
    (s : Sweep Key Object) (nodes : List (Key × Object)) : Sweep Key Object :=
  if s.ended then s
  else match scan backend codec (stored codec nodes) s.handle size with
    | .error _ => s
    | .ok (batch, next) => ⟨s.visited ++ batch, next, next.isNone⟩

def Sweep.returned (s : Sweep Key Object) (batch : List (Key × Object)) : Sweep Key Object :=
  ⟨s.visited ++ batch, batch.getLast?.map Prod.fst, (batch.getLast?.map Prod.fst).isNone⟩

def behind (handle : Option Key) (nodes : List (Key × Object)) : List (Key × Object) :=
  Sql.orderBy Prod.fst (nodes.filter fun node => ∀ key ∈ handle, key < node.1)

/-- A scan finds the first table, changed at most up to the handle: returned nodes may be
gone, and others with smaller keys may have come. -/
def Unmoved (initial : List (Key × Object)) (s : Sweep Key Object) (nodes : List (Key × Object)) :
    Prop :=
  (nodes.map Prod.fst).Nodup ∧ (s.ended = false →
    (∀ node ∈ nodes, (∀ key ∈ s.handle, key < node.1) → node ∈ initial) ∧
      ∀ node ∈ initial, (∀ key ∈ s.handle, key < node.1) → node ∈ nodes)

instance [DecidableEq Object] (initial nodes : List (Key × Object)) (s : Sweep Key Object) :
    Decidable (Unmoved initial s nodes) := by
  unfold Unmoved
  infer_instance

theorem limit_map {α β : Type} (f : α → β) (bound : Int) (rows : List α) :
    limit backend bound (rows.map f) = (limit backend bound rows).map (map f) := by
  unfold limit
  split
  · rw [← map_take]
    rfl
  · cases backend <;> rfl

theorem scan_stored (size : Nat) : scan backend codec (stored codec nodes) handle size =
    ((limit backend (asI64 size) (behind handle nodes)).mapError
      fun _ => "cannot scan ledger_db_nodes").map fun batch =>
        (batch, batch.getLast?.map Prod.fst) := by
  have ordered : orderBy NodeRow.key ((stored codec nodes).filter
      fun row => ∀ key ∈ handle, key < row.key) = stored codec (behind handle nodes) := by
    rw [stored, filter_map]
    exact (map_insertionSort (fun a b : Key × Object => a.1 ≤ b.1)
      (fun a b : NodeRow Key Raw => a.key ≤ b.key) _ _ fun _ _ _ _ => Iff.rfl).symm
  unfold scan
  rw [ordered, stored, limit_map]
  cases limit backend (asI64 size) (behind handle nodes) with
  | error _ => rfl
  | ok batch =>
    change ((stored codec batch).mapM (readRow codec "cannot deserialize node as OnDiskObject") >>=
      fun batch => .ok (batch, batch.getLast?.map Prod.fst)) = _
    rw [mapM_readRow]
    rfl

/-- Behind the last key of a page is the rest of the table. -/
theorem behind_last (unique : (nodes.map Prod.fst).Nodup) {n : Nat} {last : Key × Object}
    (final : ((behind handle nodes).take n).getLast? = some last) :
    behind (some last.1) nodes = (behind handle nodes).drop n := by
  rw [behind, orderBy_filter] at final ⊢
  rw [behind, orderBy_filter, ← Rotation.filter_behind_last
    (orderBy_strict Prod.fst nodes unique) (fun x y above less => ?_) final]
  · simp
  · simp only [decide_eq_true_eq] at above ⊢
    exact fun key held => (above key held).trans less

/-- The present table is the first one behind the handle. -/
theorem Unmoved.behind_eq (unique : (initial.map Prod.fst).Nodup) {s : Sweep Key Object}
    (unmoved : Unmoved initial s nodes) (going : s.ended = false) :
    behind s.handle nodes = behind s.handle initial := by
  obtain ⟨kept, found⟩ := unmoved.2 going
  refine orderBy_perm_eq ?_ (unmoved.1.sublist (filter_sublist.map _))
  refine (perm_ext_iff_of_nodup (unmoved.1.of_map.filter _) (unique.of_map.filter _)).mpr ?_
  intro node
  simp only [mem_filter, decide_eq_true_eq]
  exact ⟨fun ⟨member, above⟩ => ⟨kept node member above, above⟩,
    fun ⟨member, above⟩ => ⟨found node member above, above⟩⟩

theorem sweepStep_accepted {size : NonZeroUsize} (accepts : Sql.Accepts backend size)
    {s : Sweep Key Object} (going : s.ended = false) (nodes : List (Key × Object)) :
    ∃ n, 0 < n ∧ sweepStep backend codec size.val s nodes =
      s.returned ((behind s.handle nodes).take n) := by
  have answered : ∃ batch, limit backend (asI64 size.val) (behind s.handle nodes) = .ok batch := by
    rcases accepts with rfl | small
    · unfold limit
      split <;> exact ⟨_, rfl⟩
    · rw [asI64_of_lt small, limit_take]
      exact ⟨_, rfl⟩
  obtain ⟨batch, success⟩ := answered
  obtain ⟨n, rfl, positive⟩ := limit_success success
  have step : sweepStep backend codec size.val s nodes =
      s.returned ((behind s.handle nodes).take n) := by
    rw [sweepStep, going, scan_stored, success]
    rfl
  rcases positive (asI64_ne_zero size) with positive | nothing
  · exact ⟨n, positive, step⟩
  · rw [step, nothing]
    exact ⟨1, Nat.one_pos, by simp⟩

theorem run_ended (size : Nat) {s : Sweep Key Object} (ended : s.ended = true)
    (tables : List (List (Key × Object))) : run (sweepStep backend codec size) s tables = s := by
  induction tables with
  | nil => rfl
  | cons nodes rest ih => rw [run_cons, sweepStep, if_pos ended, ih]

theorem sweep_ends {size : NonZeroUsize} (accepts : Sql.Accepts backend size)
    (unique : (initial.map Prod.fst).Nodup) {s : Sweep Key Object} (going : s.ended = false)
    {tables : List (List (Key × Object))}
    (guarded : Guarded (sweepStep backend codec size.val) (Unmoved initial) s tables)
    (enough : (behind s.handle initial).length < tables.length) :
    (run (sweepStep backend codec size.val) s tables).ended = true ∧
      (run (sweepStep backend codec size.val) s tables).visited =
        s.visited ++ behind s.handle initial := by
  induction tables generalizing s with
  | nil => exact absurd enough (Nat.not_lt_zero _)
  | cons nodes rest ih =>
    obtain ⟨here, later⟩ := guarded
    obtain ⟨n, positive, step⟩ : ∃ n, 0 < n ∧ sweepStep backend codec size.val s nodes = _ :=
      sweepStep_accepted accepts going nodes
    rw [here.behind_eq unique going] at step
    rw [step] at later
    rw [run_cons, step]
    cases final : ((behind s.handle initial).take n).getLast? with
    | none =>
      have empty : behind s.handle initial = [] := by
        have none_left := getLast?_eq_none_iff.mp final
        exact (take_eq_nil_iff.mp none_left).resolve_left (by omega)
      have ended : (s.returned ((behind s.handle initial).take n)).ended = true := by
        rw [Sweep.returned, final]
        rfl
      rw [run_ended size.val ended, empty]
      exact ⟨by rw [← empty, ended], by simp [Sweep.returned]⟩
    | some last =>
      have resumed : s.returned ((behind s.handle initial).take n) =
          ⟨s.visited ++ (behind s.handle initial).take n, some last.1, false⟩ := by
        rw [Sweep.returned, final]
        rfl
      rw [resumed] at later ⊢
      have rest_behind := behind_last unique final
      have fewer : (behind (some last.1) initial).length < rest.length := by
        have some_left := length_pos_of_mem (mem_of_mem_take (mem_of_getLast? final))
        rw [rest_behind, length_drop]
        rw [length_cons] at enough
        omega
      obtain ⟨ended, visited⟩ := ih rfl later fewer
      refine ⟨ended, visited.trans ?_⟩
      change (s.visited ++ _) ++ behind (some last.1) initial = _
      rw [rest_behind, append_assoc, take_append_drop]

/-- Following the handles over a table that changes up to the handle at most ends, and has
visited every node of the first table once, in key order, if and only if the engine accepts
the batch size. -/
theorem scan_sweep_iff (backend : Sql.Backend) (codec : Codec Raw Object) (size : NonZeroUsize)
    (unique : (initial.map Prod.fst).Nodup) (tables : List (List (Key × Object)))
    (guarded : Guarded (sweepStep backend codec size.val) (Unmoved initial) .start tables)
    (enough : initial.length < tables.length) :
    let swept := run (sweepStep backend codec size.val) .start tables
    (swept.ended = true ∧ swept.visited.Perm initial ∧
      swept.visited.Pairwise (fun a b => a.1 < b.1)) ↔ Sql.Accepts backend size := by
  intro swept
  have whole : behind none initial = Sql.orderBy Prod.fst initial := by simp [behind]
  constructor
  · rintro ⟨ended, -, -⟩
    by_contra refused
    have panics : swept.ended = false := by
      refine @run_keeps _ _ _ (Sweep.ended · = false) (fun s nodes going => ?_) _ tables rfl
      rw [sweepStep, going, scan_stored]
      cases answer : Sql.limit backend (Sql.asI64 size.val) (behind s.handle nodes) with
      | ok batch => exact absurd (Sql.limit_accepts answer) refused
      | error _ => exact going
    rw [panics] at ended
    cases ended
  · intro accepts
    have few : (behind none initial).length < tables.length := by
      rwa [whole, (Sql.orderBy_perm Prod.fst initial).length_eq]
    obtain ⟨ended, visited⟩ := sweep_ends accepts unique rfl guarded few
    have all : swept.visited = Sql.orderBy Prod.fst initial := visited.trans whole
    rw [all]
    exact ⟨ended, Sql.orderBy_perm Prod.fst initial, Sql.orderBy_strict Prod.fst initial unique⟩

/-- One node a batch; the first is deleted once it is returned, and a smaller one inserted. -/
theorem scan_sweep_moving :
    let codec : Codec Nat Nat := ⟨id, some, fun _ => rfl⟩
    let tables := [[(2, 20), (1, 10)], [(0, 5), (2, 20)], [(0, 5), (2, 20)]]
    let swept := run (sweepStep .postgres codec (NonZeroUsize.ofNat 1).val) .start tables
    swept.ended = true ∧ swept.visited.Perm [(2, 20), (1, 10)] ∧
      swept.visited.Pairwise (fun a b => a.1 < b.1) := by
  intro codec tables
  exact (scan_sweep_iff .postgres codec (NonZeroUsize.ofNat 1) (by decide) tables (by decide +kernel)
    (by decide)).mpr (Or.inr (by decide +kernel))

/-- Postgres refuses a batch size that is negative as an `i64`, so every scan panics. -/
theorem scan_sweep_refused :
    let codec : Codec Nat Nat := ⟨id, some, fun _ => rfl⟩
    let swept := run (sweepStep .postgres codec (NonZeroUsize.ofNat (2 ^ 63)).val) .start
      [[(1, 10)], [(1, 10)]]
    swept.ended = false ∧ swept.visited = [] := by
  decide +kernel

end

end MidnightIndexer.Guarantees.LedgerNodes
