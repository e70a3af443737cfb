import Mathlib.Data.List.Induction
import Mathlib.Data.List.Nodup
import Mathlib.Data.List.Perm.Subperm

/-!
# Keyed tables

A table is the list of its rows and a key is a projection of a row. `lookup`
is the query by a unique key and `update` the statement
`UPDATE .. SET .. WHERE key = ..`. `insertIgnore` inserts a row whose key is not there
yet, `insertAll` is an `INSERT` of several rows into
a table whose key is `UNIQUE`, and `updateWhere` an `UPDATE` with the number of
rows it affected. Any column the assignment leaves alone is
read back unchanged, which is how uniqueness of one key survives updates made
through another.
-/

namespace MidnightIndexer.Lib.Table

open List

universe u v w

variable {ρ : Type u} {κ : Type v} {γ : Type w} [DecidableEq κ]

def lookup (key : ρ → κ) (k : κ) (rows : List ρ) : Option ρ :=
  rows.find? (fun row => key row = k)

def update (key : ρ → κ) (k : κ) (f : ρ → ρ) (rows : List ρ) : List ρ :=
  rows.map (fun row => if key row = k then f row else row)

/-- `INSERT .. ON CONFLICT (key) DO UPDATE SET ..`. -/
def upsert (key : ρ → κ) (new : ρ) (f : ρ → ρ) (rows : List ρ) : List ρ :=
  if rows.any (fun row => key row = key new) then update key (key new) f rows else rows ++ [new]

/-- `DELETE FROM .. WHERE key = ..`. -/
def delete (key : ρ → κ) (k : κ) (rows : List ρ) : List ρ :=
  rows.filter (fun row => key row ≠ k)

variable {key : ρ → κ} {k : κ} {rows : List ρ} {row x new : ρ} {f : ρ → ρ} {p : ρ → Bool}

theorem lookup_some (found : lookup key k rows = some row) : row ∈ rows ∧ key row = k :=
  ⟨mem_of_find?_eq_some found, by simpa using find?_some found⟩

theorem lookup_eq_none : lookup key k rows = none ↔ ∀ row ∈ rows, key row ≠ k := by
  simp [lookup]

variable (unique : (rows.map key).Nodup)

include unique in
theorem lookup_of_mem (member : row ∈ rows) : lookup key (key row) rows = some row := by
  induction rows with
  | nil => cases member
  | cons head tail ih =>
    rw [map_cons, nodup_cons] at unique
    rcases mem_cons.mp member with rfl | later
    · simp [lookup]
    · have different : key head ≠ key row := fun equal =>
        unique.1 (equal ▸ mem_map_of_mem later)
      rw [lookup, find?_cons_of_neg (by simpa using different)]
      exact ih unique.2 later

include unique in
theorem filter_key_length_le (k : κ) : (rows.filter fun row => key row = k).length ≤ 1 := by
  have once := nodup_iff_count_le_one.mp unique k
  rw [count_eq_countP, countP_map, countP_eq_length_filter] at once
  exact once

theorem lookup_append_singleton (key : ρ → κ) (k : κ) (rows : List ρ) (row : ρ) :
    lookup key k (rows ++ [row]) =
      (lookup key k rows).or (if key row = k then some row else none) := by
  simp only [lookup, find?_append, find?_singleton, decide_eq_true_eq]

theorem lookup_delete (key : ρ → κ) (k other : κ) (rows : List ρ) :
    lookup key other (delete key k rows) = if other = k then none else lookup key other rows := by
  rw [lookup, delete, find?_filter]
  split
  next same =>
    rw [find?_eq_none]
    intro row _
    simp [same]
  next different =>
    congr 1
    funext row
    by_cases hit : key row = other
    · simp [hit, different]
    · simp [hit]

theorem update_map_eq (column : ρ → γ) (same : ∀ row, column (f row) = column row) (rows : List ρ) :
    (update key k f rows).map column = rows.map column := by
  simp only [update, map_map]
  apply map_congr_left
  intro row _
  by_cases hit : key row = k <;> simp [hit, same]

theorem mem_update : x ∈ update key k f rows ↔
      ∃ row ∈ rows, x = if key row = k then f row else row := by
  simp only [update, mem_map, eq_comm]

/-- Reading by a column the assignment leaves alone sees the assigned row. -/
theorem lookup_update {μ : Type*} [DecidableEq μ] (column : ρ → μ)
    (same : ∀ row, column (f row) = column row) (m : μ) (rows : List ρ) :
    lookup column m (update key k f rows) =
      (lookup column m rows).map (fun row => if key row = k then f row else row) := by
  have read : ((fun row => decide (column row = m)) ∘ fun row =>
      if key row = k then f row else row) = fun row => decide (column row = m) := by
    funext row
    by_cases hit : key row = k <;> simp [hit, same]
  rw [lookup, update, find?_map, read, lookup]

variable (same : ∀ row, key (f row) = key row)

include same in
/-- Reading by the key of an upsert: its own row is assigned or new, every other one is
as before. -/
theorem lookup_upsert (k : κ) (rows : List ρ) : lookup key k (upsert key new f rows) =
      if k = key new then some ((lookup key k rows).elim new f) else lookup key k rows := by
  unfold upsert
  split
  next present =>
    obtain ⟨old, member, conflict⟩ : ∃ row ∈ rows, key row = key new := by simpa using present
    rw [lookup_update key same]
    cases found : lookup key k rows with
    | none =>
      have other : k ≠ key new := fun equal =>
        lookup_eq_none.mp found old member (conflict.trans equal.symm)
      rw [if_neg other, Option.map_none]
    | some row =>
      have own := (lookup_some found).2
      by_cases hit : k = key new
      · simp [own, hit]
      · simp [own, hit]
  next absent =>
    have free : ∀ row ∈ rows, key row ≠ key new := by simpa using absent
    rw [lookup_append_singleton]
    by_cases hit : k = key new
    · have missing : lookup key k rows = none :=
        lookup_eq_none.mpr fun row member => hit ▸ free row member
      rw [missing, if_pos hit, if_pos hit.symm]
      rfl
    · simp [hit, Ne.symm hit]

include unique in
theorem append_nodup (absent : ¬ rows.any (fun row => key row = key new) = true) :
    ((rows ++ [new]).map key).Nodup := by
  rw [map_append, map_singleton]
  refine nodup_append.mpr ⟨unique, pairwise_singleton _ _, ?_⟩
  intro k old other fresh same
  obtain ⟨taken, member, rfl⟩ := mem_map.mp old
  rw [mem_singleton.mp fresh] at same
  exact absent (any_eq_true.mpr ⟨taken, member, decide_eq_true same⟩)

include same in
theorem upsert_nodup (unique : (rows.map key).Nodup) : ((upsert key new f rows).map key).Nodup := by
  unfold upsert
  split
  next => rwa [update_map_eq key same]
  next absent => exact append_nodup unique absent

/-! ## Upserts in any order -/

include same in
theorem any_update (k other : κ) (rows : List ρ) :
    (update key k f rows).any (fun row => key row = other) = rows.any fun row => key row = other := by
  rw [update, any_map]
  congr 1
  funext row
  by_cases hit : key row = k <;> simp [hit, same]

include same in
theorem any_upsert {other : κ} (different : key new ≠ other) (rows : List ρ) :
    (upsert key new f rows).any (fun row => key row = other) =
      rows.any fun row => key row = other := by
  unfold upsert
  split
  · exact any_update same _ other rows
  · rw [any_append, any_cons, any_nil, decide_eq_false different, Bool.or_false, Bool.or_false]

theorem update_append (key : ρ → κ) (k : κ) (f : ρ → ρ) (rows : List ρ) (different : key row ≠ k) :
    update key k f (rows ++ [row]) = update key k f rows ++ [row] := by
  rw [update, map_append, map_singleton, if_neg different, update]

theorem update_comm {g : ρ → ρ} (keepF : ∀ row, key (f row) = key row)
    (keepG : ∀ row, key (g row) = key row) {other : κ} (different : k ≠ other) (rows : List ρ) :
    update key other g (update key k f rows) = update key k f (update key other g rows) := by
  unfold update
  rw [map_map, map_map]
  refine map_congr_left fun row _ => ?_
  by_cases first : key row = k
  · simp [first, keepF, different]
  · by_cases second : key row = other
    · simp [second, keepG, Ne.symm different]
    · simp [first, second]

/-- The order of the rows does not matter. -/
theorem upsert_perm {rows' : List ρ} (same : rows.Perm rows') :
    (upsert key new f rows).Perm (upsert key new f rows') := by
  unfold upsert
  rw [same.any_eq]
  split
  · exact same.map _
  · exact same.append_right _

/-- Nor does that of two upserts with different keys. -/
theorem upsert_comm {a b : ρ} {g : ρ → ρ} (keepF : ∀ row, key (f row) = key row)
    (keepG : ∀ row, key (g row) = key row) (different : key a ≠ key b) (rows : List ρ) :
    (upsert key b g (upsert key a f rows)).Perm (upsert key a f (upsert key b g rows)) := by
  have second := any_upsert keepF different rows
  have first := any_upsert keepG different.symm rows
  rw [upsert, second, upsert, upsert, first, upsert]
  split <;> split
  · rw [update_comm keepF keepG different]
  · rw [update_append _ _ _ _ different]
  · rw [update_append _ _ _ _ different.symm]
  · rw [append_assoc, append_assoc]
    exact (Perm.swap b a []).append_left rows

/-- Nor does a repetition. -/
theorem upsert_idem (keep : ∀ row, key (f row) = key row) (again : ∀ row, f (f row) = f row)
    (fixed : f new = new) (rows : List ρ) :
    upsert key new f (upsert key new f rows) = upsert key new f rows := by
  by_cases present : rows.any (fun row => key row = key new) = true
  · have updated : upsert key new f rows = update key (key new) f rows := if_pos present
    rw [updated, upsert, if_pos ((any_update keep _ _ rows).trans present)]
    unfold update
    rw [map_map]
    refine map_congr_left fun row _ => ?_
    by_cases own : key row = key new <;> simp [own, keep, again]
  · have inserted : upsert key new f rows = rows ++ [new] := if_neg present
    rw [inserted, upsert, if_pos (by simp), update, map_append, map_singleton, if_pos rfl, fixed]
    have untouched : ∀ row ∈ rows, (if key row = key new then f row else row) = row :=
      fun row member => if_neg fun own =>
        present (any_eq_true.mpr ⟨row, member, decide_eq_true own⟩)
    rw [map_congr_left untouched, map_id']

include unique in
theorem perm_of_lookup_eq {rows' : List ρ} (unique' : (rows'.map key).Nodup)
    (same : ∀ k, lookup key k rows = lookup key k rows') : rows.Perm rows' := by
  refine (perm_ext_iff_of_nodup (Nodup.of_map key unique)
    (Nodup.of_map key unique')).mpr fun row => ?_
  constructor
  · intro member
    exact (lookup_some ((same (key row)).symm.trans (lookup_of_mem unique member))).1
  · intro member
    exact (lookup_some ((same (key row)).trans (lookup_of_mem unique' member))).1

theorem lookup_update_some {μ : Type*} [DecidableEq μ] {column : ρ → μ} {m : μ}
    (found : lookup column m (update key k f rows) = some x)
    (same : ∀ row, column (f row) = column row) :
    ∃ row, lookup column m rows = some row ∧ x = if key row = k then f row else row := by
  rw [lookup_update column same] at found
  obtain ⟨row, row_found, rfl⟩ := Option.map_eq_some_iff.mp found
  exact ⟨row, row_found, rfl⟩

include unique in
/-- Looking up a list of keys that holds every row's key once visits every row
once. -/
theorem flatMap_lookup_perm {β : Type*} {keys : List κ} (distinct : keys.Nodup)
    (covers : ∀ row ∈ rows, key row ∈ keys) (f : ρ → List β) :
    (keys.flatMap fun k => (lookup key k rows).elim [] f).Perm (rows.flatMap f) := by
  induction rows generalizing keys with
  | nil => simp [lookup]
  | cons row rest ih =>
    rw [map_cons, nodup_cons] at unique
    have first : (keys.flatMap fun k => (lookup key k (row :: rest)).elim [] f).Perm
        (f row ++ (keys.erase (key row)).flatMap fun k => (lookup key k rest).elim [] f) := by
      refine ((perm_cons_erase (covers row (by simp))).flatMap_right _).trans ?_
      have later : ∀ k ∈ keys.erase (key row),
          (lookup key k (row :: rest)).elim [] f = (lookup key k rest).elim [] f := by
        intro k member
        have other : key row ≠ k := fun same => (distinct.mem_erase_iff.mp member).1 same.symm
        rw [lookup, find?_cons_of_neg (by simpa using other), lookup]
      rw [flatMap_cons, flatMap_congr later]
      simp [lookup]
    rw [flatMap_cons]
    refine first.trans ((ih unique.2 (distinct.erase _) fun other member => ?_).append_left _)
    have different : key other ≠ key row := fun same =>
      unique.1 (same ▸ mem_map_of_mem member)
    exact (mem_erase_of_ne different).mpr (covers other (by simp [member]))

/-! ## Inserting what is not there -/

/-- `INSERT .. ON CONFLICT (key) DO NOTHING`. -/
def insertIgnore (key : ρ → κ) (rows : List ρ) (row : ρ) : List ρ :=
  if rows.any (fun old => key old = key row) then rows else rows ++ [row]

theorem lookup_insertIgnore (key : ρ → κ) (k : κ) (rows : List ρ) (row : ρ) :
    lookup key k (insertIgnore key rows row) =
      (lookup key k rows).or (if key row = k then some row else none) := by
  unfold insertIgnore
  split
  next present =>
    obtain ⟨old, member, conflict⟩ : ∃ old ∈ rows, key old = key row := by simpa using present
    cases found : lookup key k rows with
    | some first => rfl
    | none =>
      have other : key row ≠ k := fun same =>
        lookup_eq_none.mp found old member (conflict.trans same)
      rw [if_neg other]
      rfl
  next absent => exact lookup_append_singleton key k rows row

/-- After several such inserts a key has the row it had, or the first new one. -/
theorem lookup_foldl_insertIgnore (key : ρ → κ) (k : κ) (rows new : List ρ) :
    lookup key k (new.foldl (insertIgnore key) rows) =
      (lookup key k rows).or (lookup key k new) := by
  induction new generalizing rows with
  | nil => simp [lookup]
  | cons row rest ih =>
    rw [foldl_cons, ih, lookup_insertIgnore, Option.or_assoc]
    congr 1
    by_cases own : key row = k <;> simp [lookup, own]

theorem mem_insertIgnore (member : x ∈ insertIgnore key rows row) :
    x ∈ rows ∨ x = row ∧ lookup key (key row) rows = none := by
  unfold insertIgnore at member
  split at member
  next => exact .inl member
  next absent =>
    rcases mem_append.mp member with old | added
    · exact .inl old
    · refine .inr ⟨mem_singleton.mp added, lookup_eq_none.mpr ?_⟩
      simpa using absent

/-- A row that came with the inserts is the first new one of its key. -/
theorem mem_foldl_insertIgnore {new : List ρ} (member : x ∈ new.foldl (insertIgnore key) rows) :
    x ∈ rows ∨ lookup key (key x) new = some x := by
  induction new using reverseRecOn with
  | nil => exact .inl member
  | append_singleton earlier row ih =>
    rw [foldl_append] at member
    rw [lookup_append_singleton]
    rcases mem_insertIgnore member with before | ⟨rfl, free⟩
    · rcases ih before with old | first
      · exact .inl old
      · exact .inr (by rw [first]; rfl)
    · rw [lookup_foldl_insertIgnore, Option.or_eq_none_iff] at free
      exact .inr (by rw [free.2, if_pos rfl]; rfl)

include unique in
theorem insertIgnore_nodup (row : ρ) : ((insertIgnore key rows row).map key).Nodup := by
  unfold insertIgnore
  split
  next => exact unique
  next absent => exact append_nodup unique absent

include unique in
theorem foldl_insertIgnore_nodup (new : List ρ) :
    ((new.foldl (insertIgnore key) rows).map key).Nodup := by
  induction new generalizing rows with
  | nil => exact unique
  | cons row rest ih => exact ih (insertIgnore_nodup unique row)

theorem foldl_insertIgnore_fresh {new : List ρ} (distinct : (new.map key).Nodup)
    (free : ∀ x ∈ new, ∀ old ∈ rows, key old ≠ key x) :
    new.foldl (insertIgnore key) rows = rows ++ new := by
  induction new generalizing rows with
  | nil => simp
  | cons row rest ih =>
    rw [map_cons, nodup_cons] at distinct
    have inserted : insertIgnore key rows row = rows ++ [row] := by
      refine if_neg ?_
      simpa using free row mem_cons_self
    rw [foldl_cons, inserted, ih distinct.2, append_assoc, singleton_append]
    intro x later old member same
    rcases mem_append.mp member with before | added
    · exact free x (mem_cons_of_mem row later) old before same
    · rw [mem_singleton.mp added] at same
      exact distinct.1 (same ▸ mem_map_of_mem later)

/-! ## Inserting under a unique key -/

/-- `INSERT` of one row; a key that is there already is refused. -/
def insertUnique (key : ρ → κ) (rows : List ρ) (row : ρ) : Option (List ρ) :=
  if rows.any (fun old => key old = key row) then none else some (rows ++ [row])

/-- `INSERT` of several rows, all or none. -/
def insertAll (key : ρ → κ) (rows new : List ρ) : Option (List ρ) :=
  new.foldlM (insertUnique key) rows

theorem insertUnique_eq_some {after : List ρ} :
    insertUnique key rows row = some after ↔ key row ∉ rows.map key ∧ after = rows ++ [row] := by
  have taken : rows.any (fun old => key old = key row) = true ↔ key row ∈ rows.map key := by
    simp
  unfold insertUnique
  split
  next present => simp [taken.mp present]
  next absent => simp [mt taken.mpr absent, eq_comm]

include unique in
theorem insertAll_eq_some {new after : List ρ} : insertAll key rows new = some after ↔
      ((rows ++ new).map key).Nodup ∧ after = rows ++ new := by
  unfold insertAll
  induction new generalizing rows with
  | nil => simp [unique, eq_comm]
  | cons row rest ih =>
    rw [foldlM_cons, Option.bind_eq_bind, Option.bind_eq_some_iff, append_cons]
    constructor
    · rintro ⟨next, inserted, success⟩
      obtain ⟨fresh, rfl⟩ := insertUnique_eq_some.mp inserted
      exact (ih (append_nodup unique (by simpa using fresh))).mp success
    · rintro ⟨distinct, whole⟩
      have extended : ((rows ++ [row]).map key).Nodup := by
        rw [map_append] at distinct
        exact (nodup_append.mp distinct).1
      refine ⟨rows ++ [row], insertUnique_eq_some.mpr ⟨fun old => ?_, rfl⟩,
        (ih extended).mpr ⟨distinct, whole⟩⟩
      rw [map_append, nodup_append] at extended
      exact extended.2.2 _ old _ (by simp) rfl

/-! ## Updating with a row count -/

/-- `UPDATE .. SET .. WHERE p`: the table, and the number of rows affected. -/
def updateWhere (p : ρ → Bool) (f : ρ → ρ) (rows : List ρ) : List ρ × Nat :=
  (rows.map (fun row => if p row then f row else row), rows.countP p)

include unique in
omit [DecidableEq κ] in
/-- As many rows are hit as keys are given exactly if the keys are distinct and
each names a row that is to be hit. -/
theorem countP_eq_length_iff {keys : List κ} {live : ρ → Prop}
    (hits : ∀ row, p row = true ↔ key row ∈ keys ∧ live row) : rows.countP p = keys.length ↔
      keys.Nodup ∧ ∀ k ∈ keys, ∃ row ∈ rows, key row = k ∧ live row := by
  have hit_unique : ((rows.filter p).map key).Nodup :=
    unique.sublist (filter_sublist.map key)
  have hit_keys : (rows.filter p).map key ⊆ keys := by
    intro k member
    obtain ⟨row, hit, rfl⟩ := mem_map.mp member
    exact ((hits row).mp (mem_filter.mp hit).2).1
  rw [countP_eq_length_filter, ← length_map key]
  constructor
  · intro all
    have perm := (subperm_of_subset hit_unique hit_keys).perm_of_length_le (Nat.le_of_eq all.symm)
    refine ⟨perm.nodup_iff.mp hit_unique, fun k member => ?_⟩
    obtain ⟨row, hit, same⟩ := mem_map.mp (perm.mem_iff.mpr member)
    obtain ⟨row_member, selected⟩ := mem_filter.mp hit
    exact ⟨row, row_member, same, ((hits row).mp selected).2⟩
  · rintro ⟨distinct, known⟩
    apply Nat.le_antisymm (subperm_of_subset hit_unique hit_keys).length_le
    apply (subperm_of_subset distinct _).length_le
    intro k member
    obtain ⟨row, row_member, rfl, alive⟩ := known k member
    exact mem_map_of_mem (mem_filter.mpr ⟨row_member, (hits row).mpr ⟨member, alive⟩⟩)

theorem filter_only_iff : rows.filter p = [row] ↔
      ∃ before after, rows = before ++ row :: after ∧ p row = true ∧
        ∀ other ∈ before ++ after, ¬ p other = true := by
  simp only [filter_eq_cons_iff, filter_eq_nil_iff, mem_append, or_imp, forall_and]
  constructor
  · rintro ⟨before, after, split, none_before, here, none_after⟩
    exact ⟨before, after, split, here, none_before, none_after⟩
  · rintro ⟨before, after, split, here, none_before, none_after⟩
    exact ⟨before, after, split, none_before, here, none_after⟩

theorem countP_modify {position : Nat} (there : rows[position]? = some row) (f : ρ → ρ) :
    (rows.modify position f).countP p + (if p row then 1 else 0) =
      rows.countP p + (if p (f row) then 1 else 0) := by
  induction rows generalizing position with
  | nil => cases there
  | cons first rest ih =>
    cases position with
    | zero =>
      cases there
      rw [modify_zero_cons, countP_cons, countP_cons]
      omega
    | succ position =>
      have later := ih there
      rw [modify_succ_cons, countP_cons, countP_cons]
      omega

theorem modify_last (rows : List ρ) (row : ρ) (f : ρ → ρ) :
    (rows ++ [row]).modify rows.length f = rows ++ [f row] := by
  induction rows with
  | nil => rfl
  | cons first rest ih =>
    rw [cons_append, length_cons, modify_succ_cons, ih, cons_append]

end MidnightIndexer.Lib.Table
