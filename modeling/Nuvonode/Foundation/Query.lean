/-
  Foundation/Query.lean --- the answers of a query that orders its rows.

  `ORDER BY key DESC LIMIT n` fixes the order of two rows with different keys only:
  rows with one key come as the scan of the table happens to meet them, and the
  limit may fall between two of them.  So a query has a set of answers, one for
  each order of the scan, and it depends on which rows there are and not on where
  the table holds them.  The newest rows are answered in the order in which they were
  added exactly where their keys have risen (`answers_eq_iff`).
-/
import Nuvonode.Foundation.Table
import Mathlib.Data.List.Sort
import Mathlib.Data.Set.Operations

set_option autoImplicit false

namespace Nuvonode.Foundation.Query

variable {ρ κ : Type}

section Answers

variable [LinearOrder κ]

/-- The scanned rows under `ORDER BY key DESC LIMIT limit`. -/
def newestFirst (key : ρ → κ) (limit : Option Nat) (scan : List ρ) : List ρ :=
  let sorted := scan.insertionSort fun a b => key b ≤ key a
  limit.elim sorted fun n => sorted.take n

/-- What `ORDER BY key DESC LIMIT limit` may answer on the given rows. -/
def answers (key : ρ → κ) (limit : Option Nat) (rows : List ρ) : Set (List ρ) :=
  {answer | ∃ scan, scan.Perm rows ∧ newestFirst key limit scan = answer}

variable {key : ρ → κ} {limit : Option Nat} {rows rows' answer : List ρ} {row : ρ}

theorem newestFirst_mem_answers : newestFirst key limit rows ∈ answers key limit rows :=
  ⟨rows, .refl _, rfl⟩

theorem mem_of_mem_newestFirst (h : row ∈ newestFirst key limit rows) : row ∈ rows := by
  cases limit with
  | none => exact (List.mem_insertionSort _).mp h
  | some n => exact (List.mem_insertionSort _).mp (List.mem_of_mem_take h)

/-- An answer holds rows of the table only. -/
theorem mem_of_mem_answers (hanswer : answer ∈ answers key limit rows) (h : row ∈ answer) :
    row ∈ rows := by
  obtain ⟨scan, hscan, rfl⟩ := hanswer
  exact hscan.mem_iff.mp (mem_of_mem_newestFirst h)

/-- Where the table holds its rows does not matter. -/
theorem answers_congr (h : rows.Perm rows') : answers key limit rows = answers key limit rows' := by
  ext answer
  constructor
  · rintro ⟨scan, hscan, hanswer⟩
    exact ⟨scan, hscan.trans h, hanswer⟩
  · rintro ⟨scan, hscan, hanswer⟩
    exact ⟨scan, hscan.trans h.symm, hanswer⟩

/-- Sorting by a linear order forgets where its input was. -/
theorem insertionSort_congr {names names' : List κ} (h : names.Perm names') :
    names.insertionSort (· ≤ ·) = names'.insertionSort (· ≤ ·) :=
  List.Perm.eq_of_pairwise' (List.pairwise_insertionSort _ _) (List.pairwise_insertionSort _ _)
    ((List.perm_insertionSort _ _).trans (h.trans (List.perm_insertionSort _ _).symm))

end Answers

/-! ## Rows that are added in the order of their keys -/

section Newest

variable [LinearOrder κ] {key : ρ → κ} {n : Nat} {rows : List ρ}

/-- Each of the last `n` rows has a larger key than every row before it. -/
def NewestLast (key : ρ → κ) (n : Nat) (rows : List ρ) : Prop :=
  ∀ before row after, rows = before ++ row :: after → after.length < n →
    ∀ older ∈ before, key older < key row

/-- Rows in descending order begin with the last rows of the table, the last one first. -/
theorem take_of_newestLast {sorted : List ρ} (hsorted : sorted.Pairwise fun a b => key b ≤ key a)
    (hperm : sorted.Perm rows) (h : NewestLast key n rows) :
    sorted.take n = rows.reverse.take n := by
  induction n generalizing rows sorted with
  | zero => rw [List.take_zero, List.take_zero]
  | succ n ih =>
      rcases List.eq_nil_or_concat rows with rfl | ⟨before, row, rfl⟩
      · rw [hperm.eq_nil]
        rfl
      · cases sorted with
        | nil => exact absurd hperm.symm.eq_nil (by simp)
        | cons head rest =>
            rw [List.concat_eq_append] at hperm h ⊢
            have hnewest := h before row [] rfl (Nat.zero_lt_succ n)
            have hhead : head = row := by
              rcases List.mem_append.mp (hperm.mem_iff.mp List.mem_cons_self) with hold | hlast
              · -- The last row is in the table, and no key is above that of the head.
                have hrow : row ∈ head :: rest := hperm.mem_iff.mpr (by simp)
                rcases List.mem_cons.mp hrow with heq | hrest
                · exact heq.symm
                · exact absurd (hnewest head hold)
                    (not_lt.mpr ((List.pairwise_cons.mp hsorted).1 row hrest))
              · exact List.mem_singleton.mp hlast
            subst hhead
            have hrest : rest.Perm before :=
              (hperm.trans List.perm_append_comm).cons_inv
            have hbefore : NewestLast key n before := by
              intro before' row' after' hsplit hlength older holder
              refine h before' row' (after' ++ [head]) ?_ ?_ older holder
              · rw [hsplit, List.append_assoc, List.cons_append]
              · rw [List.length_append, List.length_singleton]
                exact Nat.succ_lt_succ hlength
            rw [List.reverse_append, List.reverse_singleton, List.singleton_append,
              List.take_succ_cons, List.take_succ_cons,
              ih (List.pairwise_cons.mp hsorted).2 hrest hbefore]

/-- The order of the keys is total and transitive on the rows. -/
theorem pairwise_newestFirst (key : ρ → κ) (scan : List ρ) :
    (scan.insertionSort fun a b => key b ≤ key a).Pairwise fun a b => key b ≤ key a := by
  have : Std.Total fun a b : ρ => key b ≤ key a := ⟨fun a b => le_total (key b) (key a)⟩
  have : IsTrans ρ fun a b => key b ≤ key a := ⟨fun a b c hab hbc => hbc.trans hab⟩
  exact List.pairwise_insertionSort _ scan

/-- A scan that meets `older` first puts it before every row whose key is not larger. -/
theorem exists_older_first (key : ρ → κ) {older : ρ} (hmem : older ∈ rows) :
    ∃ pre post, pre ++ older :: post ∈ answers key none rows ∧
      ∀ row ∈ pre, key older < key row := by
  obtain ⟨before, after, rfl⟩ := List.append_of_mem hmem
  let sorted := (before ++ after).insertionSort fun a b => key b ≤ key a
  refine ⟨sorted.takeWhile fun row => ¬ key row ≤ key older,
    sorted.dropWhile fun row => ¬ key row ≤ key older,
    ⟨older :: (before ++ after), List.perm_middle.symm, ?_⟩, fun row hrow => ?_⟩
  · exact List.insertionSort_cons_eq_take_drop _ older (before ++ after)
  · have hnot := List.all_eq_true.mp List.all_takeWhile row hrow
    simpa using hnot

/-- **When a query lists the last rows, the last one first.**  Every answer does exactly if each
of these rows has a larger key than all rows before it. -/
theorem answers_eq_iff (hnodup : rows.Nodup) :
    (∀ answer ∈ answers key (some n) rows, answer = rows.reverse.take n) ↔
      NewestLast key n rows := by
  constructor
  · intro hall before row after hsplit hlength older holder
    by_contra hnot
    have hrows : older ∈ rows := by
      rw [hsplit]
      exact List.mem_append_left _ holder
    obtain ⟨pre, post, ⟨scan, hscan, hsorted⟩, hpre⟩ := exists_older_first key hrows
    have hlisted : (pre ++ older :: post).take n = rows.reverse.take n :=
      hall _ ⟨scan, hscan, by rw [← hsorted]; rfl⟩
    have hat : ∀ i < n, (pre ++ older :: post)[i]? = rows.reverse[i]? := by
      intro i hi
      rw [← List.getElem?_take_of_lt hi, hlisted, List.getElem?_take_of_lt hi]
    have hreverse : rows.reverse = after.reverse ++ row :: before.reverse := by
      rw [hsplit]
      simp
    have hrow : (pre ++ older :: post)[after.length]? = some row := by
      rw [hat _ hlength, hreverse, List.getElem?_append_right (by simp)]
      simp
    have hapart : older ∉ row :: after := by
      intro hlater
      rw [hsplit] at hnodup
      exact (List.nodup_append.mp hnodup).2.2 older holder older hlater rfl
    -- The row is answered where it stands in the table; `older` would be before it.
    rcases Nat.lt_trichotomy after.length pre.length with hlt | heq | hgt
    · rw [List.getElem?_append_left hlt] at hrow
      exact hnot (hpre row (List.mem_of_getElem? hrow))
    · rw [heq, List.getElem?_append_right le_rfl] at hrow
      simp only [Nat.sub_self, List.getElem?_cons_zero, Option.some.injEq] at hrow
      exact hapart (hrow ▸ List.mem_cons_self)
    · have hpos := hat pre.length (hgt.trans hlength)
      rw [List.getElem?_append_right le_rfl, hreverse,
        List.getElem?_append_left (by simpa using hgt)] at hpos
      simp only [Nat.sub_self, List.getElem?_cons_zero] at hpos
      have hafter : older ∈ after.reverse := List.mem_of_getElem? hpos.symm
      exact hapart (List.mem_cons_of_mem row (List.mem_reverse.mp hafter))
  · intro h answer hanswer
    obtain ⟨scan, hscan, rfl⟩ := hanswer
    exact take_of_newestLast (pairwise_newestFirst key scan)
      ((List.perm_insertionSort _ _).trans hscan) h

end Newest

/-! ## The rows that a query matches -/

section Matches

variable {key : ρ → κ} {rows rows' : List ρ} {p : ρ → Bool} {k : κ}

/-- Two tables without duplicates that hold the same matching rows. -/
theorem filter_perm_filter (hrows : rows.Nodup) (hrows' : rows'.Nodup)
    (h : ∀ row, p row = true → (row ∈ rows ↔ row ∈ rows')) :
    (rows.filter p).Perm (rows'.filter p) := by
  refine (List.perm_ext_iff_of_nodup (hrows.filter _) (hrows'.filter _)).mpr fun row => ?_
  simp only [List.mem_filter]
  constructor
  · rintro ⟨hmem, hp⟩
    exact ⟨(h row hp).mp hmem, hp⟩
  · rintro ⟨hmem, hp⟩
    exact ⟨(h row hp).mpr hmem, hp⟩

/-- A condition that fixes a unique key finds the row that meets it. -/
theorem find?_eq_some_iff (hunique : Table.Unique key rows)
    (hp : ∀ row, p row = true → key row = k) {row : ρ} :
    rows.find? p = some row ↔ row ∈ rows ∧ p row = true := by
  constructor
  · intro hfind
    exact ⟨List.mem_of_find?_eq_some hfind, List.find?_some hfind⟩
  · rintro ⟨hmem, hrow⟩
    cases hfind : rows.find? p with
    | none => exact absurd hrow (by simpa using List.find?_eq_none.mp hfind row hmem)
    | some other =>
        have hkeys : key other = key row :=
          (hp other (List.find?_some hfind)).trans (hp row hrow).symm
        rw [List.inj_on_of_nodup_map hunique (List.mem_of_find?_eq_some hfind) hmem hkeys]

theorem find?_congr (hrows : Table.Unique key rows) (hrows' : Table.Unique key rows')
    (hp : ∀ row, p row = true → key row = k)
    (h : ∀ row, p row = true → (row ∈ rows ↔ row ∈ rows')) : rows.find? p = rows'.find? p := by
  ext row
  rw [find?_eq_some_iff hrows hp, find?_eq_some_iff hrows' hp]
  constructor
  · rintro ⟨hmem, hrow⟩
    exact ⟨(h row hrow).mp hmem, hrow⟩
  · rintro ⟨hmem, hrow⟩
    exact ⟨(h row hrow).mpr hmem, hrow⟩

/-- Two tables that hold the same rows with a key select the same row. -/
theorem select_congr [DecidableEq κ] (hrows : Table.Unique key rows)
    (hrows' : Table.Unique key rows')
    (h : ∀ row, key row = k → (row ∈ rows ↔ row ∈ rows')) :
    Table.select key rows k = Table.select key rows' k :=
  find?_congr hrows hrows' (fun _ => of_decide_eq_true)
    fun row hrow => h row (of_decide_eq_true hrow)

end Matches

end Nuvonode.Foundation.Query
