import Mathlib.Algebra.BigOperators.Ring.Finset
import Mathlib.Algebra.Group.Action.Defs
import Mathlib.Data.List.Nodup
import Mathlib.Logic.Relation
import VertexPrograms.Synthetic.Shape

/-!
# Synthetic graphs are simple and connected

An edge of a grid is told by its row and column and whether it leads to the right or down, and an
edge of a ring by its source. So the edges are within bounds, different from each other and no
loops, they are as many as there should be, and every vertex but the first has an edge from a
smaller one.
-/

namespace VertexPrograms.Shape

variable {size u v : Nat}

/-- A path of edges, whatever their directions, leads from one vertex to the other. -/
def Linked (shape : Shape) (size : Nat) : Nat → Nat → Prop :=
  Relation.ReflTransGen fun u v => (u, v) ∈ shape.edges size ∨ (v, u) ∈ shape.edges size

/-! # Edges -/

/-- The edges of a ring lead from each vertex to the next one, around. -/
theorem mem_edges_ring : (u, v) ∈ ring.edges size ↔ 1 < size ∧ u < size ∧ v = (u + 1) % size := by
  rw [edges]
  split
  · simp [*, eq_comm]
  · simp [*]

/-- The edges from a place in a grid lead to the right and down. -/
theorem mem_gridEdgesFrom {row column : Nat} : (u, v) ∈ gridEdgesFrom size row column ↔
    u = row * size + column ∧ (column + 1 < size ∧ v = u + 1 ∨ row + 1 < size ∧ v = u + size) := by
  rw [gridEdgesFrom]
  simp only [List.mem_append, List.mem_ite_nil_right, List.mem_singleton, Prod.mk.injEq]
  constructor
  · rintro (⟨hlt, rfl, rfl⟩ | ⟨hlt, rfl, rfl⟩)
    · exact ⟨rfl, .inl ⟨hlt, rfl⟩⟩
    · exact ⟨rfl, .inr ⟨hlt, rfl⟩⟩
  · rintro ⟨rfl, ⟨hlt, rfl⟩ | ⟨hlt, rfl⟩⟩
    · exact .inl ⟨hlt, rfl, rfl⟩
    · exact .inr ⟨hlt, rfl, rfl⟩

/-- The edges of a grid lead from each place to the right and down. -/
theorem mem_edges_grid : (u, v) ∈ grid.edges size ↔ ∃ row < size, ∃ column < size,
    u = row * size + column ∧ (column + 1 < size ∧ v = u + 1 ∨ row + 1 < size ∧ v = u + size) := by
  simp only [edges, List.mem_flatMap, List.mem_range, mem_gridEdgesFrom]

/-- A row and a column make a vertex of the square. -/
theorem place_lt {row column : Nat} (hrow : row < size) (hcolumn : column < size) :
    row * size + column < size * size := by
  have hmul := Nat.mul_le_mul_right size (Nat.succ_le_of_lt hrow)
  rw [Nat.succ_mul] at hmul
  omega

/-- The ends of an edge are vertices, and different ones. -/
theorem bounds_of_mem (shape : Shape) (h : (u, v) ∈ shape.edges size) :
    u < shape.vertexCount size ∧ v < shape.vertexCount size ∧ u ≠ v := by
  cases shape with
  | ring =>
    obtain ⟨hsize, hu, rfl⟩ := mem_edges_ring.mp h
    refine ⟨hu, Nat.mod_lt _ (by omega), ?_⟩
    rcases Nat.lt_or_eq_of_le (Nat.succ_le_of_lt hu) with hlt | heq
    · rw [Nat.mod_eq_of_lt hlt]
      omega
    · have hzero : (u + 1) % size = 0 := heq ▸ Nat.mod_self size
      omega
  | grid =>
    obtain ⟨row, hrow, column, hcolumn, rfl, ⟨hlt, rfl⟩ | ⟨hlt, rfl⟩⟩ := mem_edges_grid.mp h
    · exact ⟨place_lt hrow hcolumn, place_lt hrow hlt, by omega⟩
    · have hdown := place_lt hlt hcolumn
      rw [Nat.succ_mul] at hdown
      refine ⟨place_lt hrow hcolumn, ?_, by omega⟩
      change row * size + column + size < size * size
      omega

/-- A vertex of the square is in one row and one column only. -/
theorem place_inj {row row' column column' : Nat} (hcolumn : column < size)
    (hcolumn' : column' < size) (h : row * size + column = row' * size + column') : row = row' ∧
    column = column' := by
  have hpos : 0 < size := by omega
  have hdiv (r : Nat) {c : Nat} (hc : c < size) : (r * size + c) / size = r := by
    rw [Nat.mul_comm, Nat.mul_add_div hpos, Nat.div_eq_of_lt hc, Nat.add_zero]
  have hrow : row = row' := by rw [← hdiv row hcolumn, h, hdiv row' hcolumn']
  subst hrow
  exact ⟨rfl, Nat.add_left_cancel h⟩

/-- From a place in a grid no edge leads twice. -/
theorem nodup_gridEdgesFrom (size row column : Nat) : (gridEdgesFrom size row column).Nodup := by
  have hne (h : column + 1 < size) : 1 ≠ size := by omega
  rw [gridEdgesFrom]
  split
  · split
    · simp [hne ‹_›]
    · simp
  · split <;> simp

/-- No edge is there twice. -/
theorem nodup_edges (shape : Shape) (size : Nat) : (shape.edges size).Nodup := by
  cases shape with
  | ring =>
    rw [edges]
    split
    · exact List.nodup_range.map fun u v h => (Prod.mk.inj h).1
    · exact List.nodup_nil
  | grid =>
    rw [edges, List.nodup_flatMap]
    refine ⟨fun row _ => List.nodup_flatMap.mpr ⟨fun column _ => nodup_gridEdgesFrom .., ?_⟩, ?_⟩
    · refine List.nodup_range.pairwise_of_forall_ne fun c hc c' hc' hne => ?_
      rintro ⟨u, v⟩ h h'
      have hsame := (mem_gridEdgesFrom.mp h).1.symm.trans (mem_gridEdgesFrom.mp h').1
      exact hne (place_inj (List.mem_range.mp hc) (List.mem_range.mp hc') hsame).2
    · refine List.nodup_range.pairwise_of_forall_ne fun r _ r' _ hne => ?_
      rintro ⟨u, v⟩ h h'
      obtain ⟨c, hc, h⟩ := List.mem_flatMap.mp h
      obtain ⟨c', hc', h'⟩ := List.mem_flatMap.mp h'
      have hsame := (mem_gridEdgesFrom.mp h).1.symm.trans (mem_gridEdgesFrom.mp h').1
      exact hne (place_inj (List.mem_range.mp hc) (List.mem_range.mp hc') hsame).1

/-! # Numbers of edges -/

/-- A ring of more than one vertex has as many edges as vertices. -/
theorem length_edges_ring (size : Nat) : (ring.edges size).length = if 1 < size then
  size else 0 := by
  rw [edges]
  split <;> simp

/-- All places in a row but the last have one behind them. -/
private theorem card_filter_succ_lt (size : Nat) :
    ((Finset.range size).filter (· + 1 < size)).card = size - 1 := by
  have hfilter : (Finset.range size).filter (· + 1 < size) = Finset.range (size - 1) := by
    ext i
    simp only [Finset.mem_filter, Finset.mem_range]
    omega
  rw [hfilter, Finset.card_range]

/-- From a place in a grid up to two edges lead. -/
theorem length_gridEdgesFrom (size row column : Nat) : (gridEdgesFrom size row column).length =
    (if column + 1 < size then 1 else 0) + if row + 1 < size then 1 else 0 := by
  rw [gridEdgesFrom, List.length_append]
  split <;> split <;> rfl

/-- A grid has as many edges to the right as down: one from every vertex but those at the border. -/
theorem length_edges_grid (size : Nat) : (grid.edges size).length = 2 * size * (size - 1) := by
  have hsum : (grid.edges size).length = ∑ row ∈ Finset.range size, ∑ column ∈ Finset.range size,
      ((if column + 1 < size then 1 else 0) + if row + 1 < size then 1 else 0) := by
    simp only [edges, List.length_flatMap, length_gridEdgesFrom]
    rfl
  rw [hsum]
  simp only [Finset.sum_add_distrib, Finset.sum_const, Finset.card_range,
    smul_eq_mul, ← Finset.mul_sum, ← Finset.card_filter, card_filter_succ_lt]
  rw [Nat.mul_assoc, Nat.two_mul]

/-! # Connection -/

/-- If every vertex but the first has an edge from a smaller one, paths lead to all of them. -/
theorem linked_zero (shape : Shape)
    (h : ∀ v, 0 < v → v < shape.vertexCount size → ∃ u < v, (u, v) ∈ shape.edges size)
    (hv : v < shape.vertexCount size) : shape.Linked size 0 v := by
  induction v using Nat.strong_induction_on with
  | h v ih =>
    rcases Nat.eq_zero_or_pos v with rfl | hpos
    · exact .refl
    · obtain ⟨u, hu, hedge⟩ := h v hpos hv
      exact (ih u hu (hu.trans hv)).tail (.inl hedge)

/-- An edge leads to each vertex but the first one from a vertex before it. -/
theorem exists_edge_of_pos (shape : Shape) (hpos : 0 < v) (hv : v < shape.vertexCount size) :
    ∃ u < v, (u, v) ∈ shape.edges size := by
  cases shape with
  | ring =>
    have hv : v < size := hv
    refine ⟨v - 1, by omega, mem_edges_ring.mpr ⟨by omega, by omega, ?_⟩⟩
    rw [Nat.sub_add_cancel hpos, Nat.mod_eq_of_lt hv]
  | grid =>
    have hv : v < size * size := hv
    have hsize : 0 < size := Nat.pos_of_mul_pos_left (by omega : 0 < size * size)
    have hrow : v / size < size := Nat.div_lt_of_lt_mul hv
    have hcolumn : v % size < size := Nat.mod_lt v hsize
    have hplace : v / size * size + v % size = v := Nat.div_add_mod' v size
    rcases Nat.eq_zero_or_pos (v % size) with hzero | hpositive
    · have hbelow : 0 < v / size :=
        Nat.div_pos (Nat.le_of_dvd hpos (Nat.dvd_of_mod_eq_zero hzero)) hsize
      have hrow' : (v / size - 1) * size + size = v / size * size := by
        rw [← Nat.succ_mul, Nat.succ_eq_add_one, Nat.sub_add_cancel hbelow]
      refine ⟨v - size, by omega, mem_edges_grid.mpr ⟨v / size - 1, by omega, 0, hsize, by
        omega, ?_⟩⟩
      exact .inr ⟨by omega, by omega⟩
    · refine ⟨v - 1, by omega, mem_edges_grid.mpr ⟨v / size, hrow, v % size - 1, by omega, by
      omega, ?_⟩⟩
      exact .inl ⟨by omega, by omega⟩

/-- Paths lead from every vertex to every other. -/
theorem linked (shape : Shape) (hu : u < shape.vertexCount size) (hv : v < shape.vertexCount size) :
    shape.Linked size u v := by
  have hto {w : Nat} (hw : w < shape.vertexCount size) : shape.Linked size 0 w :=
    shape.linked_zero (fun _ => shape.exists_edge_of_pos) hw
  have : Std.Symm fun u v => (u, v) ∈ shape.edges size ∨ (v, u) ∈ shape.edges size :=
    ⟨fun _ _ => Or.symm⟩
  have hback : shape.Linked size u 0 := Relation.ReflTransGen.stdSymm.symm 0 u (hto hu)
  exact hback.trans (hto hv)

end VertexPrograms.Shape
