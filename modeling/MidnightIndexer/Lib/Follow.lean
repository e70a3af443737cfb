import MidnightIndexer.Lib.Paging

/-!
# Following a result that grows

A reader takes the rows of an ordered result from a start key on and keeps the
key behind the last row it has taken. Rows are only ever added, under higher keys.
As long as every page is fetched at the kept key, the rows taken are the first
ones of the result (`<+:`), whatever is added in between; and a page that comes
back empty means that nothing is left.
-/

namespace MidnightIndexer.Lib.Follow

open List

open Paging (rowsFrom page)

universe u

variable {ρ : Type u}

/-- Rows under increasing keys, each with a successor below the bound. -/
structure Serial (key : ρ → Nat) (bound : Nat) (rows : List ρ) : Prop where
  increasing : rows.Pairwise fun a b => key a < key b
  successor : ∀ row ∈ rows, key row + 1 < bound

instance Serial.decidable (key : ρ → Nat) (bound : Nat) (rows : List ρ) :
    Decidable (Serial key bound rows) :=
  decidable_of_iff ((rows.Pairwise fun a b => key a < key b) ∧ ∀ row ∈ rows, key row + 1 < bound)
    ⟨fun h => ⟨h.1, h.2⟩, fun h => ⟨h.increasing, h.successor⟩⟩

theorem Serial.nil (key : ρ → Nat) (bound : Nat) : Serial key bound [] :=
  ⟨.nil, fun _ member => (not_mem_nil member).elim⟩

variable {key : ρ → Nat} {bound : Nat} {rows : List ρ}

theorem Serial.sublist {some : List ρ} (serial : Serial key bound rows) (part : some.Sublist rows) :
    Serial key bound some :=
  ⟨serial.increasing.sublist part, fun row member => serial.successor row (part.subset member)⟩

theorem Serial.unique (serial : Serial key bound rows) : (rows.map key).Nodup :=
  pairwise_map.mpr (serial.increasing.imp fun less => Nat.ne_of_lt less)

/-- What holds along the rows holds from lower to higher keys. -/
theorem Serial.related {r : ρ → ρ → Prop} (serial : Serial key bound rows)
    (along : rows.Pairwise r) (refl : ∀ row, r row row) {a b : ρ} (a_row : a ∈ rows)
    (b_row : b ∈ rows) (less : key a ≤ key b) : r a b := by
  obtain ⟨i, i_inside, rfl⟩ := getElem_of_mem a_row
  obtain ⟨j, j_inside, rfl⟩ := getElem_of_mem b_row
  rcases Nat.lt_trichotomy i j with before | rfl | after
  · exact pairwise_iff_getElem.mp along i j i_inside j_inside before
  · exact refl _
  · have greater := pairwise_iff_getElem.mp serial.increasing j i j_inside i_inside after
    omega

/-- The key behind the rows taken, `start` as long as there is none. -/
def behind (key : ρ → Nat) (start : Nat) (taken : List ρ) : Nat :=
  match taken.getLast? with
  | some last => key last + 1
  | none => start

section

variable {key : ρ → Nat} {start : Nat} {taken : List ρ}

@[simp] theorem behind_nil : behind key start [] = start := rfl

@[simp] theorem behind_concat (row : ρ) : behind key start (taken ++ [row]) = key row + 1 := by
  simp [behind]

theorem behind_cons (row : ρ) : behind key start (row :: taken) = behind key (key row + 1) taken := by
  simp only [behind, getLast?_cons]
  cases taken.getLast? <;> rfl

theorem behind_append_of_getLast {page : List ρ} {last : ρ} (final : page.getLast? = some last) :
    behind key start (taken ++ page) = key last + 1 := by
  simp [behind, getLast?_append, final]

theorem behind_lt (serial : Serial key bound rows) (small : start < bound)
    (inside : ∀ row ∈ taken, row ∈ rows) : behind key start taken < bound := by
  unfold behind
  split
  next last final => exact serial.successor last (inside last (mem_of_getLast? final))
  next => exact small

theorem behind_cases (key : ρ → Nat) (start : Nat) (taken : List ρ) :
    (taken = [] ∧ behind key start taken = start) ∨
      ∃ last ∈ taken, taken.getLast? = some last ∧ behind key start taken = key last + 1 := by
  cases final : taken.getLast? with
  | none => exact .inl ⟨getLast?_eq_none_iff.mp final, by simp [behind, final]⟩
  | some last => exact .inr ⟨last, mem_of_getLast? final, rfl, by simp [behind, final]⟩

end

section

variable {key : ρ → Nat} {rows taken : List ρ} {start size : Nat}
  (strict : rows.Pairwise fun a b => key a < key b)

include strict in
theorem rowsFrom_strict (start : Nat) :
    (rowsFrom key rows start).Pairwise fun a b => key a < key b :=
  strict.sublist filter_sublist

variable {row : ρ}

theorem mem_rowsFrom : row ∈ rowsFrom key rows start ↔ row ∈ rows ∧ start ≤ key row := by
  simp [rowsFrom]

theorem rowsFrom_grows (key : ρ → Nat) {more : List ρ} (grown : rows <+: more) (start : Nat) :
    rowsFrom key rows start <+: rowsFrom key more start :=
  grown.filter _

theorem key_le_last (strict : taken.Pairwise fun a b => key a < key b) {last : ρ}
    (final : taken.getLast? = some last) (member : row ∈ taken) : key row ≤ key last :=
  Paging.start_le_last (strict.imp Nat.le_of_lt) final member

include strict in
/-- The rows taken come before the key behind them, the others do not. -/
theorem rowsFrom_behind {rest : List ρ} (whole : rowsFrom key rows start = taken ++ rest) :
    rowsFrom key rows (behind key start taken) = rest := by
  rcases behind_cases key start taken with ⟨rfl, nothing⟩ | ⟨last, member, final, position⟩
  · rw [nothing, whole, nil_append]
  · have ordered := rowsFrom_strict strict start
    rw [whole, pairwise_append] at ordered
    have reached : start ≤ key last :=
      (mem_rowsFrom.mp (whole ▸ mem_append_left rest member)).2
    rw [position]
    apply Paging.rowsFrom_split whole (by omega)
    · intro row present
      have less := key_le_last ordered.1 final present
      omega
    · intro row present
      exact ordered.2.2 last member row present

include strict in
theorem reads_page (reads : taken <+: rowsFrom key rows start) :
    taken ++ page key size rows (behind key start taken) <+: rowsFrom key rows start := by
  obtain ⟨rest, whole⟩ := reads
  rw [page, rowsFrom_behind strict whole.symm, ← whole]
  exact (prefix_append_right_inj taken).mpr (List.take_prefix size rest)

include strict in
theorem reads_all (positive : 0 < size) (reads : taken <+: rowsFrom key rows start)
    (empty : page key size rows (behind key start taken) = []) :
    taken = rowsFrom key rows start := by
  obtain ⟨rest, whole⟩ := reads
  rw [page, rowsFrom_behind strict whole.symm, take_eq_nil_iff] at empty
  rw [← whole, empty.resolve_left (by omega), append_nil]

/-- A page takes the first of the rows of an earlier part that are left, if there is
one. -/
theorem page_shrinks (start : Nat) (taken : List ρ) {front back : List ρ}
    (strict : (front ++ back).Pairwise fun a b => key a < key b) (positive : 0 < size) :
    (rowsFrom key front (behind key start
      (taken ++ page key size (front ++ back) (behind key start taken)))).length ≤
      (rowsFrom key front (behind key start taken)).length - 1 := by
  cases left : rowsFrom key front (behind key start taken) with
  | nil =>
    cases final : (page key size (front ++ back) (behind key start taken)).getLast? with
    | none => simp [getLast?_eq_none_iff.mp final, left]
    | some last =>
      have selected := mem_rowsFrom.mp (mem_of_mem_take (mem_of_getLast? final))
      rw [behind_append_of_getLast final,
        ← Paging.rowsFrom_rowsFrom (show behind key start taken ≤ key last + 1 by omega), left]
      simp [rowsFrom]
  | cons first rest =>
    have listed : first ∈ page key size (front ++ back) (behind key start taken) := by
      rw [page, Paging.rowsFrom_append, left, cons_append, take_cons positive]
      exact mem_cons_self
    obtain ⟨last, final⟩ := Option.isSome_iff_exists.mp (getLast?_isSome.mpr (ne_nil_of_mem listed))
    have ordered := (rowsFrom_strict strict (behind key start taken)).sublist (take_sublist size _)
    have less := key_le_last ordered final listed
    have selected := mem_rowsFrom.mp (mem_of_mem_take (mem_of_getLast? final))
    rw [behind_append_of_getLast final,
      ← Paging.rowsFrom_rowsFrom (show behind key start taken ≤ key last + 1 by omega), left,
      rowsFrom, filter_cons_of_neg (by simp only [decide_eq_true_eq]; omega)]
    exact length_filter_le _ _

/-- The rows taken have increasing keys and are all rows from the start key up to
the last one taken. -/
def TakenExactly (key : ρ → Nat) (rows : List ρ) (start : Nat) (taken : List ρ) : Prop :=
  (taken.Pairwise fun a b => key a < key b) ∧
    taken = rows.filter fun row =>
      start ≤ key row && taken.getLast?.any fun last => key row ≤ key last

include strict in
theorem reads_exact (reads : taken <+: rowsFrom key rows start) :
    TakenExactly key rows start taken := by
  obtain ⟨rest, whole⟩ := reads
  have ordered := rowsFrom_strict strict start
  rw [← whole, pairwise_append] at ordered
  refine ⟨ordered.1, ?_⟩
  have narrowed : (rows.filter fun row =>
      start ≤ key row && taken.getLast?.any fun last => key row ≤ key last) =
      (taken ++ rest).filter fun row => taken.getLast?.any fun last => key row ≤ key last := by
    rw [whole, rowsFrom, filter_filter]
    exact filter_congr fun row _ => Bool.and_comm _ _
  rw [narrowed, filter_append]
  cases final : taken.getLast? with
  | none =>
    rw [getLast?_eq_none_iff.mp final]
    simp
  | some last =>
    have member := mem_of_getLast? final
    have kept : taken.filter (fun row => (some last).any fun last => key row ≤ key last) = taken := by
      rw [filter_eq_self]
      intro row present
      have less := key_le_last ordered.1 final present
      simpa using less
    have dropped : rest.filter (fun row => (some last).any fun last => key row ≤ key last) = [] := by
      rw [filter_eq_nil_iff]
      intro row present
      have less := ordered.2.2 last member row present
      simpa using less
    rw [kept, dropped, append_nil]

theorem TakenExactly.mem_iff (exact : TakenExactly key rows start taken) :
    row ∈ taken ↔ row ∈ rows ∧ start ≤ key row ∧ ∃ last ∈ taken.getLast?, key row ≤ key last := by
  conv_lhs => rw [exact.2]
  simp [Option.any_eq_true]

end

end MidnightIndexer.Lib.Follow
