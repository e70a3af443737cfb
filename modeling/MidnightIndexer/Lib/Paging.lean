import Mathlib.Algebra.Order.Ring.Int
import Mathlib.Data.List.Basic

/-!
# Reading a result page by page

A stream that reads a table in pages keeps a cursor: it fetches the page at the
cursor, hands it on, moves the cursor behind the page's last row and stops at
the first empty page. The loop has no bound of its own, so `pages` runs it for a
number of queries and says whether it has ended, and `Delivers` says that it
ends with the given rows.

The second part is about rows that carry an interval `[start, stop)` of the
cursor's order. The page at a cursor holds the first rows that start at or after
it, and the cursor moves to the `stop` of the last one. Such a stream reads
everything exactly once if and only if the rows meet at the page borders.
-/

namespace MidnightIndexer.Lib.Paging

open List

universe u v

variable {κ : Type u} {ρ : Type v}

/-- At most the given number of queries: the rows read, and whether the stream
has ended. -/
def pages (fetch : κ → List ρ) (advance : ρ → κ) : Nat → κ → List ρ × Bool
  | 0, _ => ([], false)
  | queries + 1, cursor =>
    match (fetch cursor).getLast? with
    | none => ([], true)
    | some last =>
      let later := pages fetch advance queries (advance last)
      (fetch cursor ++ later.1, later.2)

/-- The stream ends, and has read these rows. -/
def Delivers (fetch : κ → List ρ) (advance : ρ → κ) (cursor : κ) (rows : List ρ) : Prop :=
  ∃ queries, pages fetch advance queries cursor = (rows, true)

variable {queries : Nat} {last : ρ}

section

variable {fetch : κ → List ρ} {advance : ρ → κ} {cursor : κ} {rows : List ρ}

theorem delivers_of_empty (empty : fetch cursor = []) :
    Delivers fetch advance cursor rows ↔ rows = [] := by
  constructor
  · rintro ⟨queries, ended⟩
    cases queries with
    | zero => simp [pages] at ended
    | succ queries => simpa [pages, empty, eq_comm] using ended
  · rintro rfl
    exact ⟨1, by simp [pages, empty]⟩

theorem delivers_of_page (final : (fetch cursor).getLast? = some last) :
    Delivers fetch advance cursor rows ↔
      ∃ rest, rows = fetch cursor ++ rest ∧ Delivers fetch advance (advance last) rest := by
  constructor
  · rintro ⟨queries, ended⟩
    cases queries with
    | zero => simp [pages] at ended
    | succ queries =>
      simp only [pages, final, Prod.mk.injEq] at ended
      exact ⟨_, ended.1.symm, queries, Prod.ext rfl ended.2⟩
  · rintro ⟨rest, rfl, queries, ended⟩
    exact ⟨queries + 1, by simp [pages, final, ended]⟩

/-- A page whose last row leads back to the same cursor is read for ever. -/
theorem not_delivers_of_stuck (final : (fetch cursor).getLast? = some last)
    (stuck : advance last = cursor) : ¬ Delivers fetch advance cursor rows := by
  rintro ⟨queries, ended⟩
  induction queries generalizing rows with
  | zero => simp [pages] at ended
  | succ queries ih =>
    simp only [pages, final, stuck, Prod.mk.injEq] at ended
    exact ih (Prod.ext rfl ended.2)

theorem pages_of_le {more : Nat} (ended : pages fetch advance queries cursor = (rows, true))
    (less : queries ≤ more) : pages fetch advance more cursor = (rows, true) := by
  induction queries generalizing more cursor rows with
  | zero => simp [pages] at ended
  | succ queries ih =>
    obtain ⟨more, rfl⟩ := Nat.exists_eq_add_of_le' (Nat.lt_of_lt_of_le (Nat.succ_pos _) less)
    cases final : (fetch cursor).getLast? with
    | none =>
      simp only [pages, final] at ended ⊢
      exact ended
    | some last =>
      simp only [pages, final, Prod.mk.injEq] at ended ⊢
      have later := ih (Prod.ext rfl ended.2) (Nat.le_of_succ_le_succ less)
      rw [later]
      exact ⟨ended.1, rfl⟩

theorem Delivers.unique {others : List ρ} (first : Delivers fetch advance cursor rows)
    (second : Delivers fetch advance cursor others) : rows = others := by
  obtain ⟨queries, ended⟩ := first
  obtain ⟨more, again⟩ := second
  have one := pages_of_le ended (Nat.le_max_left queries more)
  have other := pages_of_le again (Nat.le_max_right queries more)
  rw [one] at other
  exact congrArg Prod.fst other

/-- Two queries that agree on the cursors that are reached read the same. -/
theorem pages_congr (reached : κ → Prop) {fetch' : κ → List ρ}
    (same : ∀ c, reached c → fetch c = fetch' c)
    (moves : ∀ c, reached c → ∀ row ∈ fetch c, reached (advance row)) (queries : Nat)
    (initially : reached cursor) :
    pages fetch advance queries cursor = pages fetch' advance queries cursor := by
  induction queries generalizing cursor with
  | zero => rfl
  | succ queries ih =>
    simp only [pages, ← same cursor initially]
    cases final : (fetch cursor).getLast? with
    | none => rfl
    | some last => simp only [ih (moves cursor initially last (mem_of_getLast? final))]

/-- The loop only sees a cursor through the pages fetched at it. -/
theorem pages_map {κ' : Type*} (read : κ → κ') {fetch' : κ' → List ρ} {advance' : ρ → κ'}
    (same : ∀ c, fetch c = fetch' (read c)) (moved : ∀ row, read (advance row) = advance' row)
    (queries : Nat) (cursor : κ) :
    pages fetch advance queries cursor = pages fetch' advance' queries (read cursor) := by
  induction queries generalizing cursor with
  | zero => rfl
  | succ queries ih =>
    simp only [pages, same cursor]
    cases (fetch' (read cursor)).getLast? with
    | none => rfl
    | some last => simp only [ih, moved]

end

variable {row : ρ}

section

variable [LinearOrder κ] (start stop : ρ → κ) (size : Nat)

def rowsFrom (rows : List ρ) (cursor : κ) : List ρ :=
  rows.filter (fun row => cursor ≤ start row)

def page (rows : List ρ) (cursor : κ) : List ρ := (rowsFrom start rows cursor).take size

theorem rowsFrom_of_page_nil {start : ρ → κ} {size : Nat} {rows : List ρ} {cursor : κ}
    (positive : 0 < size) (empty : page start size rows cursor = []) :
    rowsFrom start rows cursor = [] :=
  (take_eq_nil_iff.mp empty).resolve_left (Nat.ne_of_gt positive)

/-- At the end of every page the last row takes up some space, and the next row
starts at or behind its end. -/
def BordersMeet (rows : List ρ) : Prop :=
  ∀ k < rows.length, size ∣ k + 1 ∨ k + 1 = rows.length →
    ∀ last ∈ rows[k]?, start last < stop last ∧ ∀ next ∈ rows[k + 1]?, stop last ≤ start next

instance BordersMeet.decidable (rows : List ρ) : Decidable (BordersMeet start stop size rows) :=
  inferInstanceAs (Decidable (∀ k < rows.length, size ∣ k + 1 ∨ k + 1 = rows.length →
    ∀ last ∈ rows[k]?, start last < stop last ∧ ∀ next ∈ rows[k + 1]?, stop last ≤ start next))

variable {start stop : ρ → κ} {size : Nat} {rows : List ρ}

theorem bordersMeet_nil : BordersMeet start stop size ([] : List ρ) :=
  fun _ inside => absurd inside (Nat.not_lt_zero _)

/-- The borders of a result are the one behind its first page and those of the
remaining pages. -/
theorem bordersMeet_split (positive : 0 < size) (final : (rows.take size).getLast? = some last) :
    BordersMeet start stop size rows ↔
      (start last < stop last ∧ ∀ next ∈ (rows.drop size).head?, stop last ≤ start next) ∧
      BordersMeet start stop size (rows.drop size) := by
  have nonempty : 0 < rows.length := by
    rcases rows with _ | ⟨row, rest⟩
    · simp at final
    · simp
  rw [getLast?_eq_getElem?, length_take, getElem?_take_of_lt (by omega)] at final
  have behind : ∀ next ∈ (rows.drop size).head?, rows[min size rows.length - 1 + 1]? = some next := by
    intro next found
    rw [head?_drop, Option.mem_def] at found
    have inside := (List.getElem?_eq_some_iff.mp found).1
    rw [← found]
    congr 1
    omega
  constructor
  · intro meet
    refine ⟨?_, ?_⟩
    · obtain ⟨space, clear⟩ := meet (min size rows.length - 1) (by omega) (by
        rcases Nat.le_total size rows.length with less | more
        · exact .inl ⟨1, by omega⟩
        · exact .inr (by omega)) last final
      exact ⟨space, fun next found => clear next (behind next found)⟩
    · intro k inside border row found
      rw [length_drop] at inside border
      rw [getElem?_drop] at found
      obtain ⟨space, clear⟩ := meet (size + k) (by omega) (by
        rcases border with divides | ends
        · exact .inl ((Nat.dvd_add_right (Nat.dvd_refl size)).mpr divides)
        · exact .inr (by omega)) row found
      refine ⟨space, fun next after => clear next ?_⟩
      rwa [getElem?_drop] at after
  · rintro ⟨⟨space, clear⟩, meet⟩ k inside border row found
    rcases Nat.lt_or_ge k size with first | later
    · have position : k + 1 = size ∨ k + 1 = rows.length :=
        border.imp_left fun divides => Nat.le_antisymm first (Nat.le_of_dvd (by omega) divides)
      rw [show min size rows.length - 1 = k by omega] at final
      cases found.symm.trans final
      refine ⟨space, fun next after => clear next ?_⟩
      have more := (List.getElem?_eq_some_iff.mp after).1
      rw [head?_drop, show size = k + 1 by omega]
      exact after
    · obtain ⟨k, rfl⟩ := Nat.exists_eq_add_of_le later
      have rest := meet k (by rw [length_drop]; omega) (by
        rw [length_drop]
        rcases border with divides | ends
        · exact .inl ((Nat.dvd_add_right (Nat.dvd_refl size)).mp divides)
        · exact .inr (by omega)) row
      simp only [getElem?_drop] at rest
      exact rest found

theorem rowsFrom_append (front rest : List ρ) (cursor : κ) : rowsFrom start (front ++ rest) cursor =
      rowsFrom start front cursor ++ rowsFrom start rest cursor :=
  filter_append ..

variable {cursor : κ}

theorem rowsFrom_rowsFrom {later : κ} (order : cursor ≤ later) :
    rowsFrom start (rowsFrom start rows cursor) later = rowsFrom start rows later := by
  simp only [rowsFrom, filter_filter]
  apply filter_congr
  intro row _
  by_cases reached : later ≤ start row
  · simp [reached, order.trans reached]
  · simp [reached]

/-- A cursor between two parts of what was selected selects the second one. -/
theorem rowsFrom_split {later : κ} {front rest : List ρ}
    (whole : rowsFrom start rows cursor = front ++ rest) (order : cursor ≤ later)
    (before : ∀ row ∈ front, start row < later) (behind : ∀ row ∈ rest, later ≤ start row) :
    rowsFrom start rows later = rest := by
  have none_before : rowsFrom start front later = [] :=
    filter_eq_nil_iff.mpr fun row member => by simpa using before row member
  have all_behind : rowsFrom start rest later = rest :=
    filter_eq_self.mpr fun row member => by simpa using behind row member
  rw [← rowsFrom_rowsFrom order, whole, rowsFrom_append, none_before, all_behind, nil_append]

variable (ordered : rows.Pairwise (fun a b => start a ≤ start b))

include ordered in
theorem start_le_last (final : rows.getLast? = some last) (member : row ∈ rows) :
    start row ≤ start last := by
  obtain ⟨front, shape⟩ := getLast?_eq_some_iff.mp final
  rw [shape, pairwise_append] at ordered
  rw [shape, mem_append, mem_singleton] at member
  rcases member with early | rfl
  · exact ordered.2.2 row early last (mem_singleton_self last)
  · exact le_refl _

include ordered in
/-- Rows in the order of their starts: those at or behind a cursor are the end
of the list. -/
theorem rowsFrom_suffix (cursor : κ) : rowsFrom start rows cursor <:+ rows := by
  induction rows with
  | nil => exact suffix_refl _
  | cons row rest ih =>
    obtain ⟨above, ordered⟩ := pairwise_cons.mp ordered
    by_cases reached : cursor ≤ start row
    · have all : rowsFrom start (row :: rest) cursor = row :: rest := by
        rw [rowsFrom, filter_eq_self]
        intro other member
        rcases mem_cons.mp member with rfl | later
        · simpa using reached
        · simpa using reached.trans (above other later)
      exact all.symm ▸ suffix_refl (row :: rest)
    · rw [rowsFrom, filter_cons_of_neg (by simpa using reached)]
      exact (ih ordered).trans (suffix_cons row rest)

/-- An end of a list without duplicates that begins like the list is the list. -/
theorem suffix_eq_of_head {short long : List ρ} (unique : long.Nodup) (suffix : short <:+ long)
    {x : ρ} (head_short : short.head? = some x) (head_long : long.head? = some x) :
    short = long := by
  obtain ⟨front, rfl⟩ := suffix
  cases front with
  | nil => rfl
  | cons y front =>
    cases head_long
    have again : x ∈ front ++ short := mem_append_right _ (mem_of_head? head_short)
    exact absurd again (nodup_cons.mp unique).1

include ordered in
/-- The rows behind the first page are those the moved cursor selects exactly if
the border is met. -/
theorem rowsFrom_stop_iff (unique : rows.Nodup)
    (final : (page start size rows cursor).getLast? = some last) :
    rowsFrom start rows (stop last) = (rowsFrom start rows cursor).drop size ↔
      start last < stop last ∧
        ∀ next ∈ ((rowsFrom start rows cursor).drop size).head?, stop last ≤ start next := by
  have last_in := mem_of_getLast? final
  have reached : cursor ≤ start last := by
    simpa using (mem_filter.mp (mem_of_mem_take last_in)).2
  have parts := take_append_drop size (rowsFrom start rows cursor)
  have parts_ordered := ordered.sublist (filter_sublist (p := fun row => cursor ≤ start row))
  have parts_unique := unique.sublist (filter_sublist (p := fun row => cursor ≤ start row))
  change (rowsFrom start rows cursor).Pairwise _ at parts_ordered
  change (rowsFrom start rows cursor).Nodup at parts_unique
  rw [← parts, pairwise_append] at parts_ordered
  rw [← parts, nodup_append] at parts_unique
  constructor
  · intro same
    refine ⟨lt_of_not_ge fun empty => ?_, fun next found => ?_⟩
    · have selected : last ∈ rowsFrom start rows (stop last) :=
        mem_filter.mpr ⟨(mem_filter.mp (mem_of_mem_take last_in)).1, by simpa using empty⟩
      rw [same] at selected
      exact parts_unique.2.2 last last_in last selected rfl
    · have selected := mem_of_head? found
      rw [← same] at selected
      simpa using (mem_filter.mp selected).2
  · rintro ⟨space, clear⟩
    apply rowsFrom_split parts.symm (reached.trans space.le)
    · intro row member
      exact (start_le_last parts_ordered.1 final member).trans_lt space
    · have rest_ordered := parts_ordered.2.1
      cases rest : (rowsFrom start rows cursor).drop size with
      | nil => simp
      | cons next later =>
        rw [rest] at clear rest_ordered
        have reached_next := clear next rfl
        intro row member
        rcases mem_cons.mp member with rfl | further
        · exact reached_next
        · exact reached_next.trans ((pairwise_cons.mp rest_ordered).1 row further)

include ordered in
/-- What the stream delivers behind the first page can only be the rows that the
moved cursor selects. -/
theorem delivers_suffix (unique : rows.Nodup) (positive : 0 < size) {rest : List ρ}
    (suffix : rest <:+ rows) (delivers : Delivers (page start size rows) stop cursor rest) :
    rest = rowsFrom start rows cursor := by
  cases final : (page start size rows cursor).getLast? with
  | none =>
    have empty := getLast?_eq_none_iff.mp final
    rw [(delivers_of_empty empty).mp delivers, rowsFrom_of_page_nil positive empty]
  | some last =>
    obtain ⟨later, rfl, _⟩ := (delivers_of_page final).mp delivers
    have nonempty : (page start size rows cursor).head? ≠ none := by
      intro empty
      simp [head?_eq_none_iff.mp empty] at final
    obtain ⟨x, head⟩ := Option.ne_none_iff_exists'.mp nonempty
    have head_rest : (page start size rows cursor ++ later).head? = some x := by
      rw [head?_append, head]
      rfl
    have head_selected : (rowsFrom start rows cursor).head? = some x := by
      rwa [page, head?_take, if_neg (by omega)] at head
    rcases suffix_or_suffix_of_suffix suffix (rowsFrom_suffix ordered cursor) with
      short | long
    · exact suffix_eq_of_head (unique.sublist filter_sublist) short head_rest head_selected
    · exact (suffix_eq_of_head (unique.sublist suffix.sublist) long head_selected head_rest).symm

include ordered in
/-- Paging by intervals reads every row behind the cursor exactly once and ends
if and only if the rows meet at the page borders. -/
theorem delivers_rowsFrom_iff (unique : rows.Nodup) (positive : 0 < size) (cursor : κ) :
    Delivers (page start size rows) stop cursor (rowsFrom start rows cursor) ↔
      BordersMeet start stop size (rowsFrom start rows cursor) := by
  -- Induction on the number of rows behind the cursor, which every page reduces.
  induction length : (rowsFrom start rows cursor).length using Nat.strongRecOn
    generalizing cursor with
  | _ count ih =>
    cases final : (page start size rows cursor).getLast? with
    | none =>
      have empty := getLast?_eq_none_iff.mp final
      rw [delivers_of_empty empty, rowsFrom_of_page_nil positive empty]
      exact iff_of_true rfl bordersMeet_nil
    | some last =>
      have nonempty : 0 < count := by
        rw [← length, length_pos_iff]
        exact ne_nil_of_mem (mem_of_mem_take (mem_of_getLast? final))
      have fewer : ((rowsFrom start rows cursor).drop size).length < count := by
        rw [length_drop]
        omega
      rw [delivers_of_page final, bordersMeet_split positive final,
        ← rowsFrom_stop_iff ordered unique final]
      constructor
      · rintro ⟨rest, whole, delivers⟩
        have rest_eq : rest = (rowsFrom start rows cursor).drop size := by
          conv at whole => lhs; rw [← take_append_drop size (rowsFrom start rows cursor)]
          exact (append_cancel_left whole).symm
        subst rest_eq
        have same := delivers_suffix ordered unique positive
          ((drop_suffix _ _).trans (rowsFrom_suffix ordered cursor)) delivers
        rw [same] at delivers fewer ⊢
        exact ⟨rfl, (ih _ fewer _ rfl).mp delivers⟩
      · rintro ⟨same, meet⟩
        refine ⟨(rowsFrom start rows cursor).drop size, (take_append_drop _ _).symm, ?_⟩
        rw [← same] at meet fewer ⊢
        exact (ih _ fewer _ rfl).mpr meet

end

section

variable {key : ρ → Nat} {size : Nat} {rows : List ρ}

/-- Rows under equal keys may be lost, but the stream ends, and has read each key. -/
theorem delivers_exists (ordered : rows.Pairwise (fun a b => key a ≤ key b)) (positive : 0 < size)
    (cursor : Nat) : ∃ taken, Delivers (page key size rows) (fun row => key row + 1) cursor taken ∧
      taken.Sublist (rowsFrom key rows cursor) ∧
      ∀ row ∈ rowsFrom key rows cursor, ∃ x ∈ taken, key x = key row := by
  induction length : (rowsFrom key rows cursor).length using Nat.strongRecOn generalizing cursor with
  | _ count ih =>
    cases final : (page key size rows cursor).getLast? with
    | none =>
      have empty := getLast?_eq_none_iff.mp final
      refine ⟨[], (delivers_of_empty empty).mpr rfl, nil_sublist _, ?_⟩
      rw [rowsFrom_of_page_nil positive empty]
      simp
    | some last =>
      have last_in := mem_of_getLast? final
      have selected := mem_of_mem_take last_in
      have reached : cursor ≤ key last := by simpa using (mem_filter.mp selected).2
      have narrowed : rowsFrom key (rowsFrom key rows cursor) (key last + 1) =
          rowsFrom key rows (key last + 1) := rowsFrom_rowsFrom (Nat.le_succ_of_le reached)
      have fewer : (rowsFrom key rows (key last + 1)).length < count := by
        rw [← narrowed, ← length]
        exact length_filter_lt_length_iff_exists.mpr ⟨last, selected, by simp⟩
      have parts := ordered.sublist (filter_sublist (p := fun row => cursor ≤ key row))
      change (rowsFrom key rows cursor).Pairwise _ at parts
      have split := take_append_drop size (rowsFrom key rows cursor)
      rw [← split, pairwise_append] at parts
      have behind_page : (rowsFrom key rows (key last + 1)).Sublist
          ((rowsFrom key rows cursor).drop size) := by
        have nothing : rowsFrom key ((rowsFrom key rows cursor).take size) (key last + 1) = [] := by
          refine filter_eq_nil_iff.mpr fun row member => ?_
          have before := start_le_last parts.1 final member
          simpa using Nat.lt_succ_of_le before
        rw [← narrowed, ← split, rowsFrom_append, nothing, split]
        exact filter_sublist
      obtain ⟨rest, delivers, part, covers⟩ := ih _ fewer (key last + 1) rfl
      refine ⟨_, (delivers_of_page final).mpr ⟨rest, rfl, delivers⟩, ?_, fun row member => ?_⟩
      · have whole := (Sublist.refl ((rowsFrom key rows cursor).take size)).append
          (part.trans behind_page)
        rwa [split] at whole
      rcases Nat.lt_or_ge (key last) (key row) with behind | before
      · have later : row ∈ rowsFrom key rows (key last + 1) := by
          rw [← narrowed]
          exact mem_filter.mpr ⟨member, decide_eq_true (Nat.succ_le_of_lt behind)⟩
        obtain ⟨x, found, same⟩ := covers row later
        exact ⟨x, mem_append_right _ found, same⟩
      · rw [← split] at member
        rcases mem_append.mp member with first | second
        · exact ⟨row, mem_append_left _ first, rfl⟩
        · have after := parts.2.2 last last_in row second
          exact ⟨last, mem_append_left _ last_in, Nat.le_antisymm after before⟩

theorem bordersMeet_of_strict (strict : rows.Pairwise (fun a b => key a < key b)) :
    BordersMeet key (fun row => key row + 1) size rows := by
  intro k _ _ last found
  refine ⟨Nat.lt_succ_self _, fun next after => ?_⟩
  obtain ⟨inside, rfl⟩ := List.getElem?_eq_some_iff.mp found
  obtain ⟨next_inside, rfl⟩ := List.getElem?_eq_some_iff.mp after
  exact pairwise_iff_getElem.mp strict k (k + 1) inside next_inside (Nat.lt_succ_self k)

/-- Paging by increasing keys, each page starting behind the last key of the one
before, reads every row from the cursor on. -/
theorem delivers_keys (strict : rows.Pairwise (fun a b => key a < key b)) (positive : 0 < size)
    (cursor : Nat) :
    Delivers (page key size rows) (fun row => key row + 1) cursor (rowsFrom key rows cursor) := by
  refine (delivers_rowsFrom_iff (strict.imp fun less => le_of_lt less) ?_ positive cursor).mpr
    (bordersMeet_of_strict (strict.sublist filter_sublist))
  exact strict.imp fun less same => absurd (same ▸ less) (Nat.lt_irrefl _)

end

section

variable {key : ρ → Nat} {rows : List ρ} {stream : Nat → List ρ} {cursor bound : Nat}

/-- A stream, after each number of queries, has returned no row below the cursor,
and none at all if the cursor is beyond every row. -/
def RespectsCursor (key : ρ → Nat) (rows : List ρ) (stream : Nat → List ρ) (cursor : Nat) : Prop :=
  (∀ queries, ∀ row ∈ stream queries, cursor ≤ key row) ∧
    ((∀ row ∈ rows, key row < cursor) → ∀ queries, stream queries = [])

/-- Let a stream be right about the cursors below a bound that no key reaches, and
let every other cursor select something if there is anything. Then it respects
exactly the cursors below the bound, unless there is nothing to select. -/
theorem respectsCursor_iff (fits : ∀ row ∈ rows, key row < bound)
    (inside : ∀ queries, ∀ row ∈ stream queries, row ∈ rows)
    (above : cursor < bound → ∀ queries, ∀ row ∈ stream queries, cursor ≤ key row)
    (wrapped : bound ≤ cursor → rows ≠ [] → ∃ queries, stream queries ≠ []) :
    RespectsCursor key rows stream cursor ↔ cursor < bound ∨ rows = [] := by
  constructor
  · intro respects
    by_contra neither
    obtain ⟨large, nonempty⟩ := not_or.mp neither
    obtain ⟨queries, returned⟩ := wrapped (Nat.not_lt.mp large) nonempty
    obtain ⟨row, member⟩ := exists_mem_of_ne_nil _ returned
    have low := fits row (inside queries row member)
    have high := respects.1 queries row member
    omega
  · intro either
    rcases either with small | nothing
    · refine ⟨above small, fun beyond queries => ?_⟩
      refine eq_nil_iff_forall_not_mem.mpr fun row member => ?_
      have low := beyond row (inside queries row member)
      have high := above small queries row member
      omega
    · subst nothing
      have empty : ∀ queries, stream queries = [] := fun queries =>
        eq_nil_iff_forall_not_mem.mpr fun row member => not_mem_nil (inside queries row member)
      exact ⟨fun queries row member => by simp [empty queries] at member, fun _ => empty⟩

variable {fetch : Nat → List ρ} {advance : ρ → Nat}

theorem mem_pages_succ (member : row ∈ (pages fetch advance (queries + 1) cursor).1) :
    row ∈ fetch cursor ∨
      ∃ last ∈ fetch cursor, row ∈ (pages fetch advance queries (advance last)).1 := by
  cases final : (fetch cursor).getLast? with
  | none => simp [pages, final] at member
  | some last =>
    simp only [pages, final, mem_append] at member
    exact member.imp_right fun later => ⟨last, mem_of_getLast? final, later⟩

theorem mem_pages (member : row ∈ (pages fetch advance queries cursor).1) : ∃ c, row ∈ fetch c := by
  induction queries generalizing cursor with
  | zero => simp [pages] at member
  | succ queries ih =>
    rcases mem_pages_succ member with first | ⟨_, _, later⟩
    · exact ⟨cursor, first⟩
    · exact ih later

theorem pages_one : (pages fetch advance 1 cursor).1 = fetch cursor := by
  cases final : (fetch cursor).getLast? with
  | none => simp [pages, getLast?_eq_none_iff.mp final]
  | some last => simp [pages, final]

/-- A cursor that only moves forward never leads to a row below the first one. -/
theorem pages_above (bound : Nat) (selects : ∀ c < bound, ∀ row ∈ fetch c, c ≤ key row)
    (forward : ∀ c, ∀ row ∈ fetch c, key row ≤ advance row ∧ advance row < bound)
    (small : cursor < bound) (member : row ∈ (pages fetch advance queries cursor).1) :
    cursor ≤ key row := by
  induction queries generalizing cursor with
  | zero => simp [pages] at member
  | succ queries ih =>
    rcases mem_pages_succ member with first | ⟨last, listed, later⟩
    · exact selects cursor small row first
    · obtain ⟨further, fits⟩ := forward cursor last listed
      have reached := selects cursor small last listed
      have behind := ih fits later
      omega

theorem pages_respects_iff (bound : Nat)
    (selects : ∀ c, ∀ row ∈ fetch c, row ∈ rows ∧ (c < bound → c ≤ key row))
    (forward : ∀ row ∈ rows, key row ≤ advance row ∧ advance row < bound)
    (wrapped : bound ≤ cursor → fetch cursor = [] → rows = []) :
    RespectsCursor key rows (fun queries => (pages fetch advance queries cursor).1) cursor ↔
      cursor < bound ∨ rows = [] := by
  apply respectsCursor_iff
  · intro row member
    have further := forward row member
    omega
  · intro queries row member
    obtain ⟨c, listed⟩ := mem_pages member
    exact (selects c row listed).1
  · intro small queries row member
    exact pages_above bound (fun c fits row listed => (selects c row listed).2 fits)
      (fun c row listed => forward row (selects c row listed).1) small member
  · intro large nonempty
    refine ⟨1, fun empty => nonempty (wrapped large ?_)⟩
    rw [← empty, pages_one]

end

end MidnightIndexer.Lib.Paging
