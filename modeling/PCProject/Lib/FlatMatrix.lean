import Mathlib.Data.Matrix.Mul
import Mathlib.Algebra.BigOperators.Fin
import Mathlib.Tactic.Linarith

namespace PCProject

/-- The position of a cell in row-major order lies inside the matrix. -/
theorem flat_lt {row col rows cols : Int} (above : 0 ≤ row) (below : row < rows) (left : 0 ≤ col) (right : col < cols) :
    0 ≤ row * cols + col ∧ row * cols + col < rows * cols := by
  have start : 0 ≤ row * cols := Int.mul_nonneg above (by omega)
  have next : (row + 1) * cols ≤ rows * cols := Int.mul_le_mul_of_nonneg_right (by omega) (by omega)
  have expand : (row + 1) * cols = row * cols + cols := by ring
  omega

/-- The number of the cells of a matrix whose sizes are positive values of an `int`. -/
theorem cells_bounds {rows cols : Int} (height : 1 ≤ rows ∧ rows < 2 ^ 31) (width : 1 ≤ cols ∧ cols < 2 ^ 31) :
    1 ≤ rows * cols ∧ rows * cols < 2 ^ 62 := by
  have least : 1 * 1 ≤ rows * cols := Int.mul_le_mul height.1 width.1 (by decide) (by omega)
  have most : rows * cols ≤ (2 ^ 31 - 1) * (2 ^ 31 - 1) :=
    Int.mul_le_mul (by omega) (by omega) (by omega) (by decide)
  omega

/-- The row and the column of a position. -/
theorem flat_div {row col cols : Int} (left : 0 ≤ col) (right : col < cols) :
    (row * cols + col) / cols = row ∧ (row * cols + col) % cols = col := by
  have positive : 0 < cols := by omega
  rw [Int.add_comm, Int.add_mul_ediv_right _ _ (by omega), Int.add_mul_emod_self_right,
    Int.ediv_eq_zero_of_lt left right, Int.emod_eq_of_lt left right]
  omega

theorem flat_split {idx rows cols : Int} (above : 0 ≤ idx) (below : idx < rows * cols) (positive : 0 < cols) :
    0 ≤ idx / cols ∧ idx / cols < rows ∧ 0 ≤ idx % cols ∧ idx % cols < cols ∧ idx / cols * cols + idx % cols = idx :=
  ⟨Int.ediv_nonneg above positive.le, Int.ediv_lt_of_lt_mul positive below, Int.emod_nonneg _ positive.ne',
    Int.emod_lt_of_pos _ positive, Int.ediv_mul_add_emod idx cols⟩

theorem flat_toNat {cols : Int} (positive : 0 < cols) (i j : Nat) : (i * cols + j).toNat = i * cols.toNat + j := by
  obtain ⟨c, rfl⟩ := Int.eq_ofNat_of_zero_le positive.le
  exact Int.toNat_natCast (i * c + j)

/-- A matrix read from a list in row-major order. -/
def unflatten (rows cols : Nat) (cells : List Int) : Matrix (Fin rows) (Fin cols) Int :=
  .of fun i j => cells.getD (i * cols + j) 0

/-- A matrix read from the list of its rows. -/
def ofRows (rows cols : Nat) (table : List (List Int)) : Matrix (Fin rows) (Fin cols) Int :=
  .of fun i j => (table.getD i []).getD j 0

/-- The rows of a matrix that is stored as a list. -/
def rowsOf (rows cols : Nat) (cells : List Int) : List (List Int) :=
  (List.range rows).map fun i => (List.range cols).map fun j => cells.getD (i * cols + j) 0

theorem ofRows_rowsOf (rows cols : Nat) (cells : List Int) :
    ofRows rows cols (rowsOf rows cols cells) = unflatten rows cols cells := by
  ext i j
  simp [ofRows, rowsOf, unflatten]

/-- A list holds the product of two matrices if each of its cells is the inner product of a
row and a column. -/
theorem unflatten_eq_mul {rows inner cols : Nat} {left right product : List Int}
    (entries : ∀ i < rows, ∀ j < cols, product.getD (i * cols + j) 0 =
      ∑ k ∈ Finset.range inner, left.getD (i * inner + k) 0 * right.getD (k * cols + j) 0) :
    unflatten rows cols product = unflatten rows inner left * unflatten inner cols right := by
  ext i j
  rw [Matrix.mul_apply]
  simp only [unflatten, Matrix.of_apply]
  rw [entries i i.isLt j j.isLt]
  exact Finset.sum_range fun k => left.getD (i * inner + k) 0 * right.getD (k * cols + j) 0

end PCProject
