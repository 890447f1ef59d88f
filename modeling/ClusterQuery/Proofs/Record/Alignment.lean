import Mathlib.Algebra.GroupWithZero.Nat
import Mathlib.Data.List.Forall2
import ClusterQuery.Render

/-!
# How the cells of a table stand

A table is a grid of texts, the headers in its first line and the cells of one row in each line
after that. A column is as wide as the longest of its texts, header included. In every line each
cell stands whole at the start of its column, which is the same in all lines; spaces alone, two of
them at least, stand between a cell and the next column, and the last cell ends the line. This
holds of any cells, those with newlines or with spaces of their own among them.
-/

namespace ClusterQuery

def spaces (n : Nat) : String :=
  String.ofList (List.replicate n ' ')

theorem length_spaces (n : Nat) : (spaces n).length = n := by
  simp [spaces]

theorem spaces_append_spaces (m n : Nat) : spaces m ++ spaces n = spaces (m + n) := by
  simp [spaces, ← String.ofList_append]

theorem padRight_eq_append_spaces (width : Nat) (text : String) :
    padRight width text = text ++ spaces (width - text.length) := rfl

/-- The text is found whole at an offset of the line, counted in characters, and what follows it
there is the rest of the line. -/
def StandsAt (line : String) (offset : Nat) (text rest : String) : Prop :=
  ∃ before, line = before ++ text ++ rest ∧ before.length = offset

theorem StandsAt.append_left {line text rest : String} {offset : Nat}
    (h : StandsAt line offset text rest) (lead : String) :
    StandsAt (lead ++ line) (lead.length + offset) text rest := by
  obtain ⟨before, rfl, hbefore⟩ := h
  refine ⟨lead ++ before, ?_, ?_⟩
  · simp only [String.append_assoc]
  · rw [String.length_append, hbefore]

/-- The offset at which a column starts: two spaces follow the width of each one before it. -/
def columnStart (widths : List Nat) (j : Nat) : Nat :=
  ((widths.take j).map (· + 2)).sum

@[simp] theorem columnStart_zero (widths : List Nat) : columnStart widths 0 = 0 := by
  simp [columnStart]

@[simp] theorem columnStart_cons_succ (width : Nat) (widths : List Nat) (j : Nat) :
    columnStart (width :: widths) (j + 1) = width + 2 + columnStart widths j := by
  simp [columnStart]

/-- The cells stand in the line one to a column, each whole and at the start of its column. Spaces
alone, and at least two of them, come between a cell and the next column; nothing follows the last
cell. -/
structure Aligned (widths : List Nat) (cells : List String) (line : String) : Prop where
  length_cells : cells.length = widths.length
  followed : ∀ j cell, cells[j]? = some cell → j + 1 < cells.length →
    ∃ gap rest, 2 ≤ gap ∧ StandsAt line (columnStart widths j) cell (spaces gap ++ rest) ∧
      columnStart widths j + cell.length + gap = columnStart widths (j + 1)
  last : ∀ j cell, cells[j]? = some cell → j + 1 = cells.length →
    StandsAt line (columnStart widths j) cell ""

namespace Aligned

theorem nil : Aligned [] [] "" := by
  refine ⟨rfl, ?_, ?_⟩ <;> simp

theorem singleton (width : Nat) (cell : String) : Aligned [width] [cell] cell := by
  refine ⟨rfl, ?_, ?_⟩
  · intro j cell' _ hj
    simp at hj
  · intro j cell' hcell hj
    obtain rfl : j = 0 := by simpa using hj
    obtain rfl : cell = cell' := by simpa using hcell
    exact ⟨"", by simp, by simp⟩

/-- A padded cell with two spaces after it moves a line to the start of the next column. -/
theorem cons {width : Nat} {widths : List Nat} {cell : String} {cells : List String}
    {line : String} (h : Aligned widths cells line) (hne : cells ≠ [])
    (hfits : cell.length ≤ width) :
    Aligned (width :: widths) (cell :: cells) (padRight width cell ++ "  " ++ line) := by
  have hlead : padRight width cell ++ "  " = cell ++ spaces (width - cell.length + 2) := by
    rw [padRight_eq_append_spaces, String.append_assoc, ← spaces_append_spaces]
    rfl
  have hlength : (cell ++ spaces (width - cell.length + 2)).length = width + 2 := by
    rw [String.length_append, length_spaces]
    omega
  rw [hlead]
  -- The new cell stands in the first column; all that stood in the line is moved by `width + 2`.
  refine ⟨congrArg (· + 1) h.length_cells, ?_, ?_⟩
  · intro j cell' hcell hj
    cases j with
    | zero =>
        obtain rfl : cell = cell' := by simpa using hcell
        refine ⟨width - cell.length + 2, line, by omega, ⟨"", ?_, rfl⟩, ?_⟩
        · rw [String.empty_append, String.append_assoc]
        · rw [columnStart_zero, columnStart_cons_succ, columnStart_zero]
          omega
    | succ j =>
        obtain ⟨gap, rest, hgap, hstands, hnext⟩ :=
          h.followed j cell' (by simpa using hcell) (by simpa using hj)
        refine ⟨gap, rest, hgap, ?_, ?_⟩
        · rw [columnStart_cons_succ, ← hlength]
          exact hstands.append_left _
        · rw [columnStart_cons_succ, columnStart_cons_succ]
          omega
  · intro j cell' hcell hj
    cases j with
    | zero => exact absurd (List.eq_nil_of_length_eq_zero (by simpa using hj)) hne
    | succ j =>
        rw [columnStart_cons_succ, ← hlength]
        exact (h.last j cell' (by simpa using hcell) (by simpa using hj)).append_left _

end Aligned

/-- Cells that are no wider than their columns make an aligned line. -/
theorem aligned_tableLine {columns : List Column} {cells : List String}
    (hfits : List.Forall₂ (fun c cell => cell.length ≤ c.width) columns cells) :
    Aligned (columns.map Column.width) cells (tableLine columns cells) := by
  induction hfits with
  | nil => exact Aligned.nil
  | @cons c cell columns cells hcell hrest ih =>
      -- A line has a case of its own for its last cell, which is the only one not padded.
      cases cells with
      | nil =>
          cases hrest
          exact Aligned.singleton c.width cell
      | cons next cells => exact ih.cons (by simp) hcell

/-- The texts in one place of every line of a grid, from top to bottom. -/
def columnTexts (grid : List (List String)) (j : Nat) : List String :=
  grid.filterMap (·[j]?)

theorem columnTexts_cons (cells : List String) (rows : List (List String)) (j : Nat) :
    columnTexts (cells :: rows) j = cells[j]?.toList ++ columnTexts rows j := by
  cases h : cells[j]? <;> simp [columnTexts, h]

theorem columnTexts_of_length_le {rows : List (List String)} {j : Nat}
    (h : ∀ cells ∈ rows, cells.length ≤ j) : columnTexts rows j = [] := by
  simpa [columnTexts] using h

theorem mem_columnTexts {grid : List (List String)} {cells : List String} (h : cells ∈ grid)
    {j : Nat} {text : String} (ht : cells[j]? = some text) : text ∈ columnTexts grid j :=
  List.mem_filterMap.mpr ⟨cells, h, ht⟩

theorem length_widen (columns : List Column) (cells : List String) :
    (widen columns cells).length = columns.length := by
  induction columns, cells using widen.induct with
  | case1 c columns cell cells ih => simp [widen, ih]
  | case2 columns cells => rw [widen]; assumption

/-- Widening looks only at the cell in the place of each column. -/
theorem getElem?_widen (columns : List Column) (cells : List String) (j : Nat) :
    (widen columns cells)[j]?.map Column.width = (columns[j]?.map Column.width).map fun w =>
      (cells[j]?.toList.map String.length).foldl max w := by
  induction columns generalizing cells j with
  | nil => simp [widen]
  | cons c columns ih =>
      cases cells with
      | nil => simp [widen, Function.comp_def]
      | cons cell cells =>
          cases j with
          | zero => simp [widen]
          | succ j => simpa [widen] using ih cells j

theorem length_foldl_widen (columns : List Column) (rows : List (List String)) :
    (rows.foldl widen columns).length = columns.length := by
  induction rows generalizing columns with
  | nil => rfl
  | cons cells rows ih => rw [List.foldl_cons, ih, length_widen]

theorem getElem?_foldl_widen (columns : List Column) (rows : List (List String)) (j : Nat) :
    (rows.foldl widen columns)[j]?.map Column.width = (columns[j]?.map Column.width).map fun w =>
      ((columnTexts rows j).map String.length).foldl max w := by
  induction rows generalizing columns with
  | nil => simp [columnTexts, Function.comp_def]
  | cons cells rows ih =>
      rw [List.foldl_cons, ih, getElem?_widen, columnTexts_cons, Option.map_map]
      simp only [Function.comp_def, List.map_append, List.foldl_append]

namespace Kind

variable (k : Kind) (rs : List k.Record)

/-- The columns of a table of records. -/
def widenedColumns : List Column :=
  (rs.map k.cells).foldl widen k.columns

/-- A column is as wide as the longest of its texts, header included. -/
theorem getElem?_widenedColumns (j : Nat) : (k.widenedColumns rs)[j]?.map Column.width =
    ((columnTexts (k.headers :: rs.map k.cells) j).map String.length).max? := by
  rw [widenedColumns, getElem?_foldl_widen, columnTexts_cons, columns, List.getElem?_map]
  cases hj : k.headers[j]? with
  | none =>
      have hrows : columnTexts (rs.map k.cells) j = [] := by
        apply columnTexts_of_length_le
        intro cells hcells
        obtain ⟨r, -, rfl⟩ := List.mem_map.mp hcells
        rw [k.length_cells]
        exact List.getElem?_eq_none_iff.mp hj
      rw [hrows]
      rfl
  | some header =>
      have hbytes := k.utf8ByteSize_header header (List.mem_of_getElem? hj)
      rw [Option.toList_some, List.singleton_append, List.map_cons, List.max?_cons', ← hbytes]
      rfl

/-- The texts of each line fit in the columns. -/
theorem fits_widenedColumns {cells : List String} (h : cells ∈ k.headers :: rs.map k.cells) :
    List.Forall₂ (fun c cell => cell.length ≤ c.width) (k.widenedColumns rs) cells := by
  have hlength : cells.length = k.headers.length := by
    rcases List.mem_cons.mp h with rfl | hrow
    · rfl
    · obtain ⟨r, -, rfl⟩ := List.mem_map.mp hrow
      exact k.length_cells r
  have hcolumns : (k.widenedColumns rs).length = k.headers.length := by
    rw [widenedColumns, length_foldl_widen, columns, List.length_map]
  rw [List.forall₂_iff_get]
  refine ⟨hcolumns.trans hlength.symm, fun j hj hcell => ?_⟩
  have hmax := k.getElem?_widenedColumns rs j
  rw [List.getElem?_eq_getElem hj] at hmax
  exact (List.max?_eq_some_iff.mp hmax.symm).2 _
    (List.mem_map_of_mem (mem_columnTexts h (List.getElem?_eq_getElem hcell)))

/-- The table of any records is a line of headers and then a line for each record in order, each
ended by a newline. A record has as many cells as there are headers, and in every line the cells
stand in columns of the same widths, each the greatest length of a text in its column. Lengths are
counted in characters, though for a header it would be the same to count bytes. -/
theorem render_table_aligned :
    ∃ (widths : List Nat) (header : String) (lines : List String),
      render k .table rs = unlines (header :: lines) ∧
      (∀ j, widths[j]? =
        ((columnTexts (k.headers :: rs.map k.cells) j).map String.length).max?) ∧
      (∀ text ∈ k.headers, text.utf8ByteSize = text.length) ∧
      (∀ r, (k.cells r).length = k.headers.length) ∧
      Aligned widths k.headers header ∧
      List.Forall₂ (fun r line => Aligned widths (k.cells r) line) rs lines := by
  refine ⟨(k.widenedColumns rs).map Column.width, tableLine (k.widenedColumns rs) k.headers,
    rs.map fun r => tableLine (k.widenedColumns rs) (k.cells r), ?_, ?_, k.utf8ByteSize_header,
    k.length_cells, ?_, ?_⟩
  · have hheaders : k.columns.map Column.header = k.headers := by
      simp [columns, Column.ofHeader, Function.comp_def]
    simp only [render, tableLines, hheaders, List.map_cons, List.map_map]
    rfl
  · intro j
    rw [List.getElem?_map, k.getElem?_widenedColumns]
  · exact aligned_tableLine (k.fits_widenedColumns rs List.mem_cons_self)
  · rw [List.forall₂_map_right_iff, List.forall₂_same]
    intro r hr
    exact aligned_tableLine
      (k.fits_widenedColumns rs (List.mem_cons_of_mem _ (List.mem_map_of_mem hr)))

end Kind

example : render .container .table [{ vmid := 7, name := some "α\nβ" }] =
    "VMID  NAME  STATUS  NODE  POOL  TAGS\n7     α\nβ   -       -     -     -\n" := by
  decide

end ClusterQuery
