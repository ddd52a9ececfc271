import Mathlib
import Tangent.Layout
import Tangent.Proofs.Number.Rationals

/-!
# Cells tile the figure

Over the rational numbers, the cells of a layout fill the grid in reading order and leave no row
empty. Each takes a proper part of the figure, which is the unit square, and no two share an inner
point, because the sides of cells that are neighbours are the same shares of the figure before the
space around them is left free.
-/

namespace Tangent

/-- Of parts of one size, the end of one is not behind the start of a later one. -/
theorem share_succ_le {place later parts : Int} (positive : 0 < parts) (before : place < later) :
    ((place : ℚ) + 1) / parts ≤ later / parts := by
  have parted : (0 : ℚ) < parts := Int.cast_pos.2 positive
  have order : (place : ℚ) + 1 ≤ later := by exact_mod_cast before
  exact div_le_div_of_nonneg_right order parted.le

namespace Cell

/-- The points of the figure that a cell takes. -/
def area (cell : Cell ℚ) : Set (ℚ × ℚ) :=
  Set.Icc cell.left (cell.left + cell.width) ×ˢ Set.Icc cell.bottom (cell.bottom + cell.height)

/-- The points of a cell that are not on its sides. -/
def interior (cell : Cell ℚ) : Set (ℚ × ℚ) :=
  Set.Ioo cell.left (cell.left + cell.width) ×ˢ Set.Ioo cell.bottom (cell.bottom + cell.height)

/-- Whether a cell is read earlier than another one. -/
def Precedes (cell other : Cell ℚ) : Prop :=
  cell.row < other.row ∨ cell.row = other.row ∧ cell.column < other.column

/-- The cell at a place in reading order, with sides that are not rounded. -/
def exactly (rows columns : Int) (padding : ℚ) (index : Nat) : Cell ℚ where
  index
  row := index / columns
  column := index % columns
  left := ((index % columns : Int) : ℚ) / columns + padding
  right := (((index % columns : Int) : ℚ) + 1) / columns - padding
  bottom := 1 - (((index / columns : Int) : ℚ) + 1) / rows + padding
  top := 1 - ((index / columns : Int) : ℚ) / rows - padding

@[simp]
theorem left_add_width (cell : Cell ℚ) : cell.left + cell.width = cell.right :=
  add_sub_cancel cell.left cell.right

@[simp]
theorem bottom_add_height (cell : Cell ℚ) : cell.bottom + cell.height = cell.top :=
  add_sub_cancel cell.bottom cell.top

section Places

variable {rows columns : Int} {padding : ℚ}

/-- In a grid of some rows and columns every place has its cell. -/
theorem place_eq (someRows : 0 < rows) (someColumns : 0 < columns) (index : Nat) :
    place rows columns padding index = .ok (exactly rows columns padding index) := by
  rw [place, Int.fdiv_eq_ediv_of_nonneg _ someColumns.le,
    Int.fmod_eq_emod_of_nonneg _ someColumns.le]
  simp only [Scalar.divide?_rat _ someRows.ne', Scalar.divide?_rat _ someColumns.ne']
  simp [exactly, bind, Except.bind, pure, Except.pure]

/-- The row of a cell is one of the grid if its cells fill some of each row. -/
theorem row_exactly_lt {count : Int} (someColumns : 0 < columns) {index : Nat}
    (inside : (index : Int) < count) :
    (index : Int) / columns < ⌈(count : ℚ) / columns⌉ := by
  have parted : (0 : ℚ) < columns := Int.cast_pos.2 someColumns
  rw [Int.lt_ceil, lt_div_iff₀ parted]
  have below : (index : Int) / columns * columns < count :=
    lt_of_le_of_lt (Int.ediv_mul_le _ someColumns.ne') inside
  exact_mod_cast below

/-- The cells of a grid are as wide as its columns, but for the space on both sides. -/
theorem width_exactly (index : Nat) :
    (exactly rows columns padding index).width = 1 / columns - 2 * padding := by
  simp only [width, exactly]
  ring

/-- The cells of a grid are as high as its rows, but for the space on both sides. -/
theorem height_exactly (index : Nat) :
    (exactly rows columns padding index).height = 1 / rows - 2 * padding := by
  simp only [height, exactly]
  ring

variable {index later : Nat}

/-- A cell lies left of those in later columns. -/
theorem right_le_left_exactly (someColumns : 0 < columns) (noLess : 0 ≤ padding)
    (before : (exactly rows columns padding index).column <
      (exactly rows columns padding later).column) :
    (exactly rows columns padding index).right ≤ (exactly rows columns padding later).left := by
  have shares := share_succ_le someColumns before
  simp only [exactly] at shares ⊢
  linarith

/-- A cell lies above those in later rows. -/
theorem top_le_bottom_exactly (someRows : 0 < rows) (noLess : 0 ≤ padding)
    (before : (exactly rows columns padding index).row <
      (exactly rows columns padding later).row) :
    (exactly rows columns padding later).top ≤ (exactly rows columns padding index).bottom := by
  have shares := share_succ_le someRows before
  simp only [exactly] at shares ⊢
  linarith

/-- Places that come later belong to cells that are read later. -/
theorem precedes_exactly (someColumns : 0 < columns) (before : index < later) :
    (exactly rows columns padding index).Precedes (exactly rows columns padding later) := by
  have order : (index : Int) ≤ later := Int.ofNat_le.2 before.le
  rcases (Int.ediv_le_ediv someColumns order).lt_or_eq with earlier | same
  · exact .inl earlier
  · have split := Int.mul_ediv_add_emod index columns
    have laterSplit := Int.mul_ediv_add_emod later columns
    rw [← same] at laterSplit
    refine .inr ⟨same, ?_⟩
    simp only [exactly]
    omega

/-- A cell of the grid lies in the figure. -/
theorem area_exactly_subset (someColumns : 0 < columns) (someRows : 0 < rows)
    (noLess : 0 ≤ padding) (inside : (index : Int) / columns < rows) :
    (exactly rows columns padding index).area ⊆ Set.Icc 0 1 ×ˢ Set.Icc 0 1 := by
  have parted : (0 : ℚ) < columns := Int.cast_pos.2 someColumns
  have partedAcross : (0 : ℚ) < rows := Int.cast_pos.2 someRows
  have column : (0 : ℚ) ≤ (index % columns : Int) :=
    Int.cast_nonneg (Int.emod_nonneg _ someColumns.ne')
  have row : (0 : ℚ) ≤ (index / columns : Int) :=
    Int.cast_nonneg (Int.ediv_nonneg (Int.natCast_nonneg index) someColumns.le)
  have lastColumn := share_succ_le someColumns (Int.emod_lt_of_pos index someColumns)
  have lastRow := share_succ_le someRows inside
  rw [div_self parted.ne'] at lastColumn
  rw [div_self partedAcross.ne'] at lastRow
  have firstColumn := div_nonneg column parted.le
  have firstRow := div_nonneg row partedAcross.le
  rw [area, left_add_width, bottom_add_height]
  refine Set.prod_mono (Set.Icc_subset_Icc ?_ ?_) (Set.Icc_subset_Icc ?_ ?_)
  all_goals
    simp only [exactly]
    linarith

end Places

variable {cell other : Cell ℚ}

/-- A cell that ends before another one starts shares no inner point with it. -/
theorem disjoint_interior_of_right_le (apart : cell.right ≤ other.left) :
    Disjoint cell.interior other.interior := by
  refine Set.disjoint_prod.2 (.inl ?_)
  rw [left_add_width, Set.Ioo_disjoint_Ioo]
  exact (min_le_left _ _).trans (apart.trans (le_max_right _ _))

/-- A cell that lies above another one shares no inner point with it. -/
theorem disjoint_interior_of_top_le (apart : other.top ≤ cell.bottom) :
    Disjoint cell.interior other.interior := by
  refine Set.disjoint_prod.2 (.inr ?_)
  rw [bottom_add_height, bottom_add_height, Set.Ioo_disjoint_Ioo]
  exact (min_le_right _ _).trans (apart.trans (le_max_left _ _))

end Cell

namespace Layout

/-- A layout whose cells are the places of its grid, in reading order and with no row left empty,
and are proper parts of the figure, each apart from the others. -/
structure IsTiling (layout : Layout ℚ) : Prop where
  insideGrid : ∀ cell ∈ layout.cells,
    0 ≤ cell.row ∧ cell.row < layout.rows ∧ 0 ≤ cell.column ∧ cell.column < layout.columns
  indexed : layout.cells.map Cell.index = List.range layout.cells.length
  inReadingOrder : layout.cells.Pairwise Cell.Precedes
  distinct : (layout.cells.map fun cell => (cell.row, cell.column)).Nodup
  noEmptyRow : ∀ row, 0 ≤ row → row < layout.rows → ∃ cell ∈ layout.cells, cell.row = row
  proper : ∀ cell ∈ layout.cells, 0 < cell.width ∧ 0 < cell.height
  insideFigure : ∀ cell ∈ layout.cells, cell.area ⊆ Set.Icc 0 1 ×ˢ Set.Icc 0 1
  apart : layout.cells.Pairwise fun cell other => Disjoint cell.interior other.interior
  earlierAbove : ∀ cell ∈ layout.cells, ∀ other ∈ layout.cells,
    cell.row < other.row → other.top ≤ cell.bottom

/-- Over the rational numbers, some cells in some columns have a layout, and its sides are not
rounded. -/
theorem arrange_eq_ok (settings : Settings ℚ) {count : Int} (someCells : 0 < count)
    (someColumns : 0 < settings.gridColumns) :
    arrange settings count = .ok {
      rows := ⌈(count : ℚ) / settings.gridColumns⌉
      columns := settings.gridColumns
      cells := (List.range count.toNat).map
        (Cell.exactly ⌈(count : ℚ) / settings.gridColumns⌉ settings.gridColumns
          settings.cellPadding)
      width := settings.figureWidth
      height := settings.rowHeight * ⌈(count : ℚ) / settings.gridColumns⌉ } := by
  have someRows : 0 < ⌈(count : ℚ) / settings.gridColumns⌉ :=
    Int.ceil_pos.2 (div_pos (Int.cast_pos.2 someCells) (Int.cast_pos.2 someColumns))
  have cells := List.mapM_pure (m := Except Indivisible) (l := List.range count.toNat)
    (f := Cell.exactly ⌈(count : ℚ) / settings.gridColumns⌉ settings.gridColumns
      settings.cellPadding)
  have places : Cell.place ⌈(count : ℚ) / settings.gridColumns⌉ settings.gridColumns
      settings.cellPadding = fun index => pure (Cell.exactly _ _ _ index) :=
    funext fun index => Cell.place_eq someRows someColumns index
  simp only [arrange, Scalar.divide?_rat count someColumns.ne', Scalar.ceil?_rat, bind, Except.bind,
    Except.mapError, places, cells]
  rfl

section Tilings

variable {layout : Layout ℚ} {count : Int} {padding : ℚ}

/-- Every row of a grid has a first cell, if no more rows are taken than the cells need. -/
theorem exists_cell_of_row (someColumns : 0 < layout.columns)
    (rows : layout.rows = ⌈(count : ℚ) / layout.columns⌉)
    (cells : layout.cells = (List.range count.toNat).map
      (Cell.exactly layout.rows layout.columns padding))
    {row : Int} (first : 0 ≤ row) (inside : row < layout.rows) :
    ∃ cell ∈ layout.cells, cell.row = row := by
  have parted : (0 : ℚ) < layout.columns := Int.cast_pos.2 someColumns
  rw [rows, Int.lt_ceil, lt_div_iff₀ parted] at inside
  have start : row * layout.columns < count := by exact_mod_cast inside
  have whole : ((row * layout.columns).toNat : Int) = row * layout.columns :=
    Int.toNat_of_nonneg (mul_nonneg first someColumns.le)
  refine ⟨Cell.exactly layout.rows layout.columns padding (row * layout.columns).toNat, ?_, ?_⟩
  · rw [cells]
    refine List.mem_map_of_mem (List.mem_range.2 ?_)
    omega
  · simp only [Cell.exactly, whole]
    exact Int.mul_ediv_cancel row someColumns.ne'

/-- Cells with sides that are not rounded tile the figure, if the space around them leaves some of
each. -/
theorem isTiling_exactly (someCells : 0 < count) (someColumns : 0 < layout.columns)
    (rows : layout.rows = ⌈(count : ℚ) / layout.columns⌉)
    (cells : layout.cells = (List.range count.toNat).map
      (Cell.exactly layout.rows layout.columns padding))
    (noLess : 0 ≤ padding) (acrossFits : 2 * padding < 1 / layout.columns)
    (upFits : 2 * padding < 1 / layout.rows) : layout.IsTiling := by
  have someRows : 0 < layout.rows :=
    rows ▸ Int.ceil_pos.2 (div_pos (Int.cast_pos.2 someCells) (Int.cast_pos.2 someColumns))
  have exact : ∀ cell ∈ layout.cells, ∃ index : Nat, (index : Int) / layout.columns < layout.rows ∧
      cell = Cell.exactly layout.rows layout.columns padding index := by
    intro cell present
    rw [cells] at present
    obtain ⟨index, listed, rfl⟩ := List.mem_map.1 present
    have inside : (index : Int) < count := Int.lt_toNat.1 (List.mem_range.1 listed)
    exact ⟨index, rows ▸ Cell.row_exactly_lt someColumns inside, rfl⟩
  have above : ∀ cell ∈ layout.cells, ∀ other ∈ layout.cells,
      cell.row < other.row → other.top ≤ cell.bottom := by
    intro cell present other otherPresent before
    obtain ⟨index, _, rfl⟩ := exact cell present
    obtain ⟨later, _, rfl⟩ := exact other otherPresent
    exact Cell.top_le_bottom_exactly someRows noLess before
  have inOrder : layout.cells.Pairwise Cell.Precedes := by
    rw [cells, List.pairwise_map]
    exact List.pairwise_lt_range.imp fun before => Cell.precedes_exactly someColumns before
  exact {
    insideGrid := by
      intro cell present
      obtain ⟨index, inside, rfl⟩ := exact cell present
      exact ⟨Int.ediv_nonneg (Int.natCast_nonneg index) someColumns.le, inside,
        Int.emod_nonneg _ someColumns.ne', Int.emod_lt_of_pos _ someColumns⟩
    indexed := by
      rw [cells, List.map_map, List.length_map, List.length_range]
      exact List.map_id _
    inReadingOrder := inOrder
    distinct := by
      refine List.pairwise_map.2 (inOrder.imp fun {cell other} precedes same => ?_)
      obtain ⟨sameRow, sameColumn⟩ := Prod.mk.inj same
      rcases precedes with before | ⟨_, before⟩
      · exact before.ne sameRow
      · exact before.ne sameColumn
    noEmptyRow := fun row first inside => exists_cell_of_row someColumns rows cells first inside
    proper := by
      intro cell present
      obtain ⟨index, _, rfl⟩ := exact cell present
      rw [Cell.width_exactly, Cell.height_exactly]
      exact ⟨sub_pos.2 acrossFits, sub_pos.2 upFits⟩
    insideFigure := by
      intro cell present
      obtain ⟨index, inside, rfl⟩ := exact cell present
      exact Cell.area_exactly_subset someColumns someRows noLess inside
    apart := by
      refine inOrder.imp_of_mem fun {cell other} present otherPresent precedes => ?_
      rcases precedes with before | ⟨_, before⟩
      · exact Cell.disjoint_interior_of_top_le (above cell present other otherPresent before)
      · obtain ⟨index, _, rfl⟩ := exact cell present
        obtain ⟨later, _, rfl⟩ := exact other otherPresent
        exact Cell.disjoint_interior_of_right_le
          (Cell.right_le_left_exactly someColumns noLess before)
    earlierAbove := above }

end Tilings

/-- Any number of cells in any number of columns is laid out in as many rows as the cells need, and
the cells tile the figure, whatever space is left free around each that leaves some of it. -/
theorem arrange_tiles (settings : Settings ℚ) {count : Int} (someCells : 1 ≤ count)
    (someColumns : 1 ≤ settings.gridColumns) (noLess : 0 ≤ settings.cellPadding)
    (acrossFits : 2 * settings.cellPadding < 1 / settings.gridColumns)
    (upFits : 2 * settings.cellPadding < 1 / ⌈(count : ℚ) / settings.gridColumns⌉) :
    ∃ layout, arrange settings count = .ok layout ∧
      layout.rows = ⌈(count : ℚ) / settings.gridColumns⌉ ∧
      layout.columns = settings.gridColumns ∧ (layout.cells.length : Int) = count ∧
      layout.IsTiling := by
  refine ⟨_, arrange_eq_ok settings someCells someColumns, rfl, rfl, ?_, ?_⟩
  · rw [List.length_map, List.length_range]
    exact Int.toNat_of_nonneg (by omega)
  · exact isTiling_exactly someCells someColumns rfl rfl noLess acrossFits upFits

/-- Settings over the rational numbers with a grid of three columns and a twentieth of the figure
left free around each cell. -/
def threeColumns : Settings ℚ where
  version := "1.0.0"
  maxInputLength := 2000
  dialect := ⟨100, []⟩
  maxPasses := 64
  variableName := "x"
  defaultFormula := "x^2"
  historySize := 50
  curveStart := -11
  curveEnd := 11
  curveStep := 1 / 10
  dotStart := -10
  dotEnd := 10
  minPoints := 2
  maxPoints := 9
  defaultPoints := 3
  gridColumns := 3
  cellPadding := 1 / 20
  figureWidth := 1200
  rowHeight := 450
  resolution := 100
  labelPlaces := 2

/-- Seven cells in three columns need three rows, the last of them filled in part. -/
theorem arrange_tiles_of_partial_row :
    2 * threeColumns.cellPadding < 1 / threeColumns.gridColumns ∧
      2 * threeColumns.cellPadding < 1 / ⌈((7 : Int) : ℚ) / threeColumns.gridColumns⌉ ∧
      ∃ layout, arrange threeColumns 7 = .ok layout ∧ layout.rows = 3 ∧ layout.columns = 3 ∧
        (layout.cells.length : Int) = 7 ∧ layout.IsTiling := by
  have rows : ⌈((7 : Int) : ℚ) / threeColumns.gridColumns⌉ = 3 := by
    rw [Int.ceil_eq_iff]
    norm_num [threeColumns]
  have acrossFits : 2 * threeColumns.cellPadding < 1 / threeColumns.gridColumns := by
    norm_num [threeColumns]
  have upFits :
      2 * threeColumns.cellPadding < 1 / ⌈((7 : Int) : ℚ) / threeColumns.gridColumns⌉ := by
    rw [rows]
    norm_num [threeColumns]
  have tiles := arrange_tiles threeColumns (by decide) (by decide) (by norm_num [threeColumns])
    acrossFits upFits
  rw [rows] at tiles
  exact ⟨acrossFits, upFits, tiles⟩

end Layout

end Tangent
