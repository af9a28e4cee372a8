/-
  Foundation/Table.lean --- rows of a table, selected and updated by a key.

  A table is the list of its rows in insertion order.  `select` is a query on a
  unique key, `update` rewrites the rows with that key in place, and `insert`
  adds a row at the end.  Uniqueness of a key is the proposition `Unique`; the
  laws that need it take it as a hypothesis, so that a table that violates its
  own constraint still has a meaning.
-/
import Mathlib.Algebra.BigOperators.Group.List.Basic
import Mathlib.Algebra.Ring.Int.Defs
import Mathlib.Data.List.Nodup
import Mathlib.Tactic.Ring

set_option autoImplicit false

namespace Nuvonode.Foundation.Table

variable {ρ κ κ' : Type} [DecidableEq κ]

/-- The first row with the given key. -/
def select (key : ρ → κ) (rows : List ρ) (k : κ) : Option ρ :=
  rows.find? fun row => decide (key row = k)

/-- Rewrite every row with the given key. -/
def update (key : ρ → κ) (rows : List ρ) (k : κ) (change : ρ → ρ) : List ρ :=
  rows.map fun row => if key row = k then change row else row

/-- Add a row at the end. -/
def insert (rows : List ρ) (row : ρ) : List ρ := rows ++ [row]

/-- Replace the row with the same key, or add the row when there is none. -/
def upsert (key : ρ → κ) (rows : List ρ) (row : ρ) : List ρ :=
  match select key rows (key row) with
  | none => insert rows row
  | some _ => update key rows (key row) fun _ => row

/-- No two rows share the key. -/
def Unique (key : ρ → κ) (rows : List ρ) : Prop := (rows.map key).Nodup

instance (key : ρ → κ) (rows : List ρ) : Decidable (Unique key rows) :=
  inferInstanceAs (Decidable (rows.map key).Nodup)

/-! ## Selection -/

section Select

variable [DecidableEq κ'] {key : ρ → κ} {key' : ρ → κ'} {rows : List ρ} {k k' : κ} {row : ρ}

@[simp] theorem select_nil : select key [] k = none := rfl

/-- A selected row is in the table and has the key asked for. -/
theorem mem_of_select (h : select key rows k = some row) : row ∈ rows ∧ key row = k :=
  ⟨List.mem_of_find?_eq_some h, of_decide_eq_true (by simpa using List.find?_some h)⟩

theorem select_eq_none_iff : select key rows k = none ↔ ∀ row ∈ rows, key row ≠ k := by
  simp [select, List.find?_eq_none]

theorem select_isSome_iff : (select key rows k).isSome ↔ ∃ row ∈ rows, key row = k := by
  simp [select]

/-- Under a unique key, every row is the one selected by its key. -/
theorem select_of_mem (hunique : Unique key rows) (hmem : row ∈ rows) :
    select key rows (key row) = some row := by
  induction rows with
  | nil => simp at hmem
  | cons head rest ih =>
      simp only [Unique, List.map_cons, List.nodup_cons] at hunique
      by_cases hkey : key head = key row
      · rcases List.mem_cons.mp hmem with heq | hrest
        · simp [select, heq]
        · exact absurd (hkey ▸ List.mem_map_of_mem hrest) hunique.1
      · have hrest : row ∈ rest := by
          rcases List.mem_cons.mp hmem with heq | hrest
          · exact absurd (by rw [heq]) hkey
          · exact hrest
        simpa [select, hkey] using ih hunique.2 hrest

/-- Inserting a row only matters to its own key, and only when the key was free. -/
theorem select_insert : select key (insert rows row) k =
    (select key rows k).or (if key row = k then some row else none) := by
  by_cases hkey : key row = k <;> simp [select, insert, List.find?_append, hkey]

theorem select_insert_of_ne (h : key row ≠ k) :
    select key (insert rows row) k = select key rows k := by
  simp [select_insert, h]

theorem select_insert_of_some {old : ρ} (h : select key rows k = some old) :
    select key (insert rows row) k = some old := by
  simp [select_insert, h]

theorem select_insert_self (h : select key rows (key row) = none) :
    select key (insert rows row) (key row) = some row := by
  simp [select_insert, h]

/-- An update that keeps a column keeps every selection by that column, up to
the rewrite of the selected row. -/
theorem select_update {change : ρ → ρ} (hkeeps : ∀ row, key' (change row) = key' row)
    (c : κ') : select key' (update key rows k change) c =
      (select key' rows c).map fun row => if key row = k then change row else row := by
  have hcol : ((fun row => decide (key' row = c)) ∘ fun row =>
      if key row = k then change row else row) = fun row => decide (key' row = c) := by
    funext row
    by_cases hkey : key row = k <;> simp [hkey, hkeeps]
  rw [select, update, List.find?_map, hcol, select]

theorem select_update_self {change : ρ → ρ} (hkeeps : ∀ row, key (change row) = key row) :
    select key (update key rows k change) k = (select key rows k).map change := by
  rw [select_update hkeeps]
  cases hsel : select key rows k with
  | none => rfl
  | some row => simp [(mem_of_select hsel).2]

theorem select_update_of_ne {change : ρ → ρ} (hkeeps : ∀ row, key (change row) = key row)
    (h : k' ≠ k) : select key (update key rows k change) k' = select key rows k' := by
  rw [select_update hkeeps]
  cases hsel : select key rows k' with
  | none => rfl
  | some row => simp [(mem_of_select hsel).2, h]

/-- Putting one row in the place of all rows with its key. -/
theorem select_replace : select key (update key rows (key row) fun _ => row) k =
    if key row = k then (select key rows k).map (fun _ => row) else select key rows k := by
  induction rows with
  | nil => simp [update]
  | cons head rest ih =>
      simp only [select, update, List.map_cons, List.find?_cons] at ih ⊢
      by_cases hhead : key head = key row <;> by_cases hkey : key row = k <;> simp_all

theorem select_upsert : select key (upsert key rows row) k =
    if key row = k then some row else select key rows k := by
  unfold upsert
  split
  · rename_i hnone
    by_cases hkey : key row = k
    · subst hkey
      simp [select_insert_self hnone]
    · simp [select_insert_of_ne hkey, hkey]
  · rename_i old hold
    rw [select_replace]
    by_cases hkey : key row = k
    · subst hkey
      simp [hold]
    · simp [hkey]

end Select

/-! ## Columns -/

section Columns

variable {key : ρ → κ} {rows : List ρ} {k : κ} {row : ρ}

@[simp] theorem update_nil {change : ρ → ρ} : update key [] k change = [] := rfl

@[simp] theorem update_cons {change : ρ → ρ} : update key (row :: rows) k change =
    (if key row = k then change row else row) :: update key rows k change := rfl

/-- An update that keeps a column leaves the whole column as it was. -/
theorem map_update {α : Type} {column : ρ → α} {change : ρ → ρ}
    (hkeeps : ∀ row, column (change row) = column row) :
    (update key rows k change).map column = rows.map column := by
  simp only [update, List.map_map]
  congr 1
  funext row
  by_cases hkey : key row = k <;> simp [hkey, hkeeps]

theorem mem_update {change : ρ → ρ} {new : ρ} :
    new ∈ update key rows k change ↔
      ∃ old ∈ rows, (if key old = k then change old else old) = new := by
  simp [update]

theorem unique_update {key' : ρ → κ'} {change : ρ → ρ}
    (hkeeps : ∀ row, key' (change row) = key' row) (h : Unique key' rows) :
    Unique key' (update key rows k change) := by
  unfold Unique
  rwa [map_update hkeeps]

/-- A selected row that is replaced by one with the same column is still selected by it. -/
theorem select_replaced {key' : ρ → κ'} [DecidableEq κ'] {old : ρ} {c : κ'}
    (h : select key' rows c = some old) (hkeeps : key' row = c) :
    select key' (update key rows (key old) fun _ => row) c = some row := by
  induction rows with
  | nil => cases h
  | cons head rest ih =>
      simp only [select, update, List.map_cons, List.find?_cons] at h ih ⊢
      by_cases hhead : key head = key old
      · simp [hhead, hkeeps]
      · by_cases hcolumn : key' head = c
        · simp only [hcolumn, decide_true, Option.some.injEq] at h
          exact absurd (by rw [h]) hhead
        · simp only [hcolumn, decide_false] at h
          simpa [hhead, hcolumn] using ih h

/-- Of two replacements of a row the second one stays. -/
theorem update_replaced {mid : ρ} (h : key mid = k) :
    update key (update key rows k fun _ => mid) k (fun _ => row) =
      update key rows k fun _ => row := by
  rw [update, update, List.map_map]
  refine List.map_congr_left fun old _ => ?_
  by_cases hkey : key old = k <;> simp [hkey, h]

/-- A row with another key is in the table after an update exactly if it was before. -/
theorem mem_update_of_ne {other : ρ} (h : key row = k) (hne : key other ≠ k) :
    other ∈ update key rows k (fun _ => row) ↔ other ∈ rows := by
  rw [mem_update]
  constructor
  · rintro ⟨old, hold, heq⟩
    split at heq
    · subst heq
      exact absurd h hne
    · exact heq ▸ hold
  · intro hother
    exact ⟨other, hother, if_neg hne⟩

/-- Rows that are kept apart from those that change are the same afterwards. -/
theorem filter_map_of_apart {keep : ρ → Bool} {change : ρ → ρ}
    (h : ∀ row ∈ rows, change row = row ∨ keep row = false ∧ keep (change row) = false) :
    (rows.map change).filter keep = rows.filter keep := by
  induction rows with
  | nil => rfl
  | cons row rows ih =>
      have hrest := ih fun other hother => h other (List.mem_cons_of_mem _ hother)
      rw [List.map_cons, List.filter_cons, List.filter_cons, hrest]
      rcases h row List.mem_cons_self with hsame | ⟨hold, hnew⟩
      · rw [hsame]
      · simp [hold, hnew]

theorem filter_update_of_apart {keep : ρ → Bool} {change : ρ → ρ}
    (h : ∀ row, key row = k → keep row = false ∧ keep (change row) = false) :
    (update key rows k change).filter keep = rows.filter keep := by
  refine filter_map_of_apart fun row _ => ?_
  split
  · exact .inr (h row ‹_›)
  · exact .inl rfl

theorem filter_insert_of_apart {keep : ρ → Bool} (h : keep row = false) :
    (insert rows row).filter keep = rows.filter keep := by
  rw [insert, List.filter_append, List.filter_cons, h]
  simp

/-- An update of a row that was just inserted under a free key. -/
theorem update_insert_self {change : ρ → ρ} (hfree : select key rows (key row) = none) :
    update key (insert rows row) (key row) change = insert rows (change row) := by
  have hrows : update key rows (key row) change = rows := by
    refine (List.map_congr_left fun old hold => ?_).trans (List.map_id rows)
    exact if_neg (select_eq_none_iff.mp hfree old hold)
  unfold update insert at *
  rw [List.map_append, hrows, List.map_cons, List.map_nil, if_pos rfl]

theorem unique_insert (h : Unique key rows) (hfree : select key rows (key row) = none) :
    Unique key (insert rows row) := by
  have hnot : ∀ old ∈ rows, key old ≠ key row := select_eq_none_iff.mp hfree
  simp only [Unique, insert, List.map_append, List.map_cons, List.map_nil]
  refine List.Nodup.append h (List.nodup_singleton _) ?_
  intro c hc hc'
  obtain ⟨old, hold, rfl⟩ := List.mem_map.mp hc
  exact hnot old hold (by simpa using hc')

end Columns

/-! ## Sums of a column -/

section Sums

variable {key : ρ → κ} {rows : List ρ} {k : κ} {row : ρ}

/-- The sum of an integer column. -/
def total (column : ρ → Int) (rows : List ρ) : Int := (rows.map column).sum

@[simp] theorem total_nil (column : ρ → Int) : total column [] = 0 := rfl

@[simp] theorem total_cons (column : ρ → Int) (row : ρ) (rows : List ρ) :
    total column (row :: rows) = column row + total column rows := by
  simp [total]

@[simp] theorem total_append (column : ρ → Int) (rows rows' : List ρ) :
    total column (rows ++ rows') = total column rows + total column rows' := by
  simp [total]

@[simp] theorem total_insert (column : ρ → Int) (rows : List ρ) (row : ρ) :
    total column (insert rows row) = total column rows + column row := by
  simp [insert]

theorem total_congr {column column' : ρ → Int}
    (h : ∀ row ∈ rows, column row = column' row) : total column rows = total column' rows := by
  unfold total
  rw [List.map_congr_left h]

/-- The rows with a property, counted. -/
theorem total_indicator (p : ρ → Prop) [DecidablePred p] :
    total (fun row => if p row then 1 else 0) rows = rows.countP (fun row => decide (p row)) := by
  induction rows with
  | nil => rfl
  | cons head rest ih =>
      rw [total_cons, ih, List.countP_cons]
      by_cases hhead : p head
      · simp only [hhead, if_true, decide_true]
        push_cast
        ring
      · simp [hhead]

/-- Rewriting the row under a unique key moves the sum by that row's difference. -/
theorem total_update (column : ρ → Int) {change : ρ → ρ} (hunique : Unique key rows)
    (hsel : select key rows k = some row) :
    total column (update key rows k change) =
      total column rows - column row + column (change row) := by
  induction rows with
  | nil => simp at hsel
  | cons head rest ih =>
      simp only [Unique, List.map_cons, List.nodup_cons] at hunique
      by_cases hkey : key head = k
      · have hhead : head = row := by simpa [select, hkey] using hsel
        have hrest : update key rest k change = rest := by
          unfold update
          refine (List.map_congr_left fun other hother => ?_).trans (List.map_id rest)
          have hne : key other ≠ k := by
            rintro rfl
            exact hunique.1 (hkey ▸ List.mem_map_of_mem hother)
          simp [hne]
        rw [update_cons, if_pos hkey, hrest, hhead, total_cons, total_cons]
        ring
      · have hsel' : select key rest k = some row := by
          simpa [select, hkey] using hsel
        rw [update_cons, if_neg hkey, total_cons, total_cons, ih hunique.2 hsel']
        ring

/-- A sum of non-negative entries is non-negative. -/
theorem total_nonneg {column : ρ → Int} (h : ∀ row ∈ rows, 0 ≤ column row) :
    0 ≤ total column rows := by
  induction rows with
  | nil => simp
  | cons head rest ih =>
      rw [total_cons]
      have hhead := h head List.mem_cons_self
      have hrest := ih fun row hrow => h row (List.mem_cons_of_mem head hrow)
      omega

/-- One entry of a non-negative column is at most the sum. -/
theorem le_total {column : ρ → Int} (h : ∀ row ∈ rows, 0 ≤ column row) (hmem : row ∈ rows) :
    column row ≤ total column rows := by
  induction rows with
  | nil => simp at hmem
  | cons head rest ih =>
      rw [total_cons]
      have hrest : 0 ≤ total column rest :=
        total_nonneg fun row hrow => h row (List.mem_cons_of_mem head hrow)
      rcases List.mem_cons.mp hmem with heq | htail
      · subst heq
        omega
      · have hhead := h head List.mem_cons_self
        have := ih (fun row hrow => h row (List.mem_cons_of_mem head hrow)) htail
        omega

end Sums

end Nuvonode.Foundation.Table
