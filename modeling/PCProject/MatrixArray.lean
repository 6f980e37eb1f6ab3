import PCProject.MatrixSize

namespace PCProject
variable {rows cols size : Int} {n k p : Nat} {heap heap' : MatrixHeap} {creations : Nat → MatrixCreation}
  {m d : Nat → Nat}

/-- Every request for memory of `create_matrix_array` is granted: `malloc` returns `p` for the pointers, and `m i`
and `d i` for matrix `i`. It returns no block that is in use. -/
structure ArrayGranted (n : Nat) (heap : MatrixHeap) (p : Nat) (creations : Nat → MatrixCreation) (m d : Nat → Nat) :
    Prop where
  matrix : ∀ i < n, (creations i).matrix = some (m i)
  data : ∀ i < n, (creations i).data = some (d i)
  array : heap p = none
  free : ∀ i < n, heap (m i) = none ∧ heap (d i) = none
  own : ∀ i < n, m i ≠ p ∧ d i ≠ p ∧ m i ≠ d i
  apart : ∀ i < n, ∀ j < n, i ≠ j → m i ≠ m j ∧ m i ≠ d j ∧ d i ≠ d j

/-- An array with exactly one entry for each call of MATRIX_create: the block that this call has allocated and
filled in. No two of these matrices share a block. -/
structure UsableArray (rows cols : Int) (n : Nat) (creations : Nat → MatrixCreation) (p : Nat) (heap : MatrixHeap) :
    Prop where
  entries : heap p = some (.array ((List.range n).map fun i => some (creations i).matrix))
  own : ∀ i < n, ∃ m d cells, (creations i).matrix = some m ∧ (creations i).data = some d ∧
    heap m = some (.matrix (some ⟨rows, cols, d⟩)) ∧ heap d = some (.cells cells) ∧
    (cells.length : Int) = rows * cols
  apart : ∀ i < n, ∀ j < n, i ≠ j →
    (creations i).matrix ≠ (creations j).matrix ∧ (creations i).data ≠ (creations j).data

/-- The heap after some rounds of the loop of `create_matrix_array`. -/
structure Building (rows cols : Int) (n : Nat) (p : Nat) (creations : Nat → MatrixCreation) (m d : Nat → Nat)
    (k : Nat) (heap : MatrixHeap) : Prop where
  array : heap p = some (.array (((List.range k).map fun i => some (creations i).returned) ++
    List.replicate (n - k) none))
  built : ∀ i < k, heap (m i) = some (.matrix (some ⟨rows, cols, d i⟩)) ∧
    heap (d i) = some (.cells (List.replicate (matrixRoom rows cols) none))
  free : ∀ i, k ≤ i → i < n → heap (m i) = none ∧ heap (d i) = none

/-- The next entry of an array that is filled from the front. -/
theorem set_next {β : Type} (front : List β) (blank next : β) {k : Nat} (length : front.length = k) (below : k < n) :
    (front ++ List.replicate (n - k) blank).set k next = (front ++ [next]) ++ List.replicate (n - (k + 1)) blank := by
  obtain ⟨rest, left⟩ : ∃ rest, n - k = rest + 1 := ⟨n - k - 1, by omega⟩
  have later : n - (k + 1) = rest := by omega
  rw [left, later, List.replicate_succ, List.set_append_right _ _ (by omega), length, Nat.sub_self, List.set_cons_zero,
    List.append_assoc]
  rfl

theorem Building.next (building : Building rows cols n p creations m d k heap) (positive : 0 < rows ∧ 0 < cols)
    (fits : rows * cols < 2 ^ 63) (granted : ArrayGranted n heap' p creations m d) (below : k < n) :
    ∃ heap', createEntry rows cols p creations k heap = .ok heap' ∧
      Building rows cols n p creations m d (k + 1) heap' := by
  obtain ⟨free, free'⟩ := building.free k (Nat.le_refl k) below
  obtain ⟨notArray, notArray', separate⟩ := granted.own k below
  obtain ⟨heap₁, run, created⟩ :=
    matrixCreate_granted positive fits (granted.matrix k below) (granted.data k below) separate free free'
  have array : heap₁ p = _ := (created.others p notArray.symm notArray'.symm).trans building.array
  refine ⟨heap₁.store p (.array ((((List.range k).map fun i => some (creations i).returned) ++
    List.replicate (n - k) none).set k (some (creations k).returned))), ?_, ?_, ?_, ?_⟩
  · have inside : (0 : Int) ≤ k ∧ (k : Int) < (((List.range k).map fun i => some (creations i).returned) ++
        List.replicate (n - k) none).length := by
      simp only [List.length_append, List.length_map, List.length_range, List.length_replicate]
      omega
    simp only [createEntry, Int.toNat_natCast, run, bind, Except.bind, storeEntry, array, if_pos inside]
  · rw [Cells.store_self, set_next _ _ _ (by simp) below, List.range_succ, List.map_append]
    rfl
  · intro i before
    rcases Nat.lt_succ_iff_lt_or_eq.mp before with earlier | rfl
    · obtain ⟨outside, outside', -⟩ := granted.own i (by omega)
      obtain ⟨other, cross, other'⟩ := granted.apart i (by omega) k below (by omega)
      have cross' := (granted.apart k below i (by omega) (by omega)).2.1
      rw [Cells.store_ne _ _ outside, Cells.store_ne _ _ outside', created.others _ other cross,
        created.others _ cross'.symm other']
      exact building.built i earlier
    · rw [Cells.store_ne _ _ notArray, Cells.store_ne _ _ notArray']
      exact ⟨created.matrix, created.data⟩
  · intro i after within
    obtain ⟨outside, outside', -⟩ := granted.own i within
    obtain ⟨other, cross, other'⟩ := granted.apart i within k below (by omega)
    have cross' := (granted.apart k below i within (by omega)).2.1
    rw [Cells.store_ne _ _ outside, Cells.store_ne _ _ outside', created.others _ other cross,
      created.others _ cross'.symm other']
    exact building.free i (by omega) within

theorem createMatrixArray_granted (positive : 0 < rows ∧ 0 < cols) (fits : rows * cols < 2 ^ 63)
    (short : (n : Int) * 8 < 2 ^ 64) (granted : ArrayGranted n heap p creations m d) :
    ∃ heap', createMatrixArray n rows cols (some p) creations heap = .ok (p, heap') ∧
      Building rows cols n p creations m d n heap' := by
  have room : ((n : Int) * 8 % 2 ^ 64).toNat / 8 = n := by omega
  have enter : Building rows cols n p creations m d 0 (heap.store p (.array (List.replicate n none))) := by
    refine ⟨Cells.store_self .., fun i before => absurd before (Nat.not_lt_zero i), fun i _ within => ?_⟩
    obtain ⟨outside, outside', -⟩ := granted.own i within
    rw [Cells.store_ne _ _ outside, Cells.store_ne _ _ outside']
    exact granted.free i within
  obtain ⟨heap', run, building⟩ := forRange_count enter fun k heap below building =>
    building.next positive fits granted below
  refine ⟨heap', ?_, building⟩
  simp only [createMatrixArray, matrixMalloc_free granted.array, room, bind, Except.bind, run]

/-- The whole array is usable exactly if each call of MATRIX_create happens to return its own block. -/
theorem Building.usable_iff (building : Building rows cols n p creations m d n heap)
    (granted : ArrayGranted n heap' p creations m d) (positive : 0 < rows * cols) (fits : rows * cols * 8 < 2 ^ 64) :
    UsableArray rows cols n creations p heap ↔ ∀ i < n, (creations i).returned = (creations i).matrix := by
  have array := building.array
  rw [Nat.sub_self, List.replicate_zero, List.append_nil] at array
  constructor
  · intro usable i below
    have same := usable.entries
    rw [array, Option.some.injEq, MatrixBlock.array.injEq, List.map_inj_left] at same
    exact Option.some.inj (same i (List.mem_range.mpr below))
  · intro returned
    refine ⟨?_, fun i below => ?_, fun i below j below' other => ?_⟩
    · rw [array, List.map_congr_left fun i member => congrArg some (returned i (List.mem_range.mp member))]
    · obtain ⟨matrix, data⟩ := building.built i below
      refine ⟨m i, d i, _, granted.matrix i below, granted.data i below, matrix, data, ?_⟩
      rw [List.length_replicate, matrixRoom]
      omega
    · obtain ⟨apart, -, apart'⟩ := granted.apart i below j below' other
      rw [granted.matrix i below, granted.matrix j below', granted.data i below, granted.data j below']
      exact ⟨fun same => apart (Option.some.inj same), fun same => apart' (Option.some.inj same)⟩

/-- Matrices that are not freed yet, from number `k` on. -/
structure Freeing (rows cols : Int) (n : Nat) (creations : Nat → MatrixCreation) (p k : Nat) (heap : MatrixHeap) :
    Prop where
  entries : heap p = some (.array ((List.range n).map fun i => some (creations i).matrix))
  left : ∀ i, k ≤ i → i < n → ∃ m d cells, (creations i).matrix = some m ∧ (creations i).data = some d ∧
    heap m = some (.matrix (some ⟨rows, cols, d⟩)) ∧ heap d = some (.cells cells)

theorem Freeing.next (freeing : Freeing rows cols n creations p k heap)
    (apart : ∀ i < n, ∀ j < n, i ≠ j →
      (creations i).matrix ≠ (creations j).matrix ∧ (creations i).data ≠ (creations j).data) (below : k < n) :
    ∃ heap', freeEntry p k heap = .ok heap' ∧ Freeing rows cols n creations p (k + 1) heap' := by
  obtain ⟨m, d, cells, mine, mine', matrix, data⟩ := freeing.left k (Nat.le_refl k) below
  have entry : loadEntry heap p k = .ok (some m) := by
    simp [loadEntry, freeing.entries, below, mine]
  -- blocks of different kinds are different blocks
  have kept {a : Nat} {block : MatrixBlock} (stored : heap a = some block) (other : a ≠ d) (other' : a ≠ m) :
      ((heap.free d).free m) a = some block := by
    rw [Cells.free_ne _ other', Cells.free_ne _ other, stored]
  refine ⟨(heap.free d).free m, ?_, kept freeing.entries ?_ ?_, fun i after within => ?_⟩
  · simp only [freeEntry, entry, bind, Except.bind, matrixFree, matrix, data, Option.isSome_some, if_true]
  · intro same
    cases (same ▸ freeing.entries).symm.trans data
  · intro same
    cases (same ▸ freeing.entries).symm.trans matrix
  · obtain ⟨m', d', cells', its, its', matrix', data'⟩ := freeing.left i (by omega) within
    obtain ⟨unlike, unlike'⟩ := apart i within k below (by omega)
    rw [its, mine] at unlike
    rw [its', mine'] at unlike'
    refine ⟨m', d', cells', its, its', kept matrix' ?_ ?_, kept data' ?_ ?_⟩
    · intro same
      cases (same ▸ matrix').symm.trans data
    · exact fun same => unlike (congrArg some same)
    · exact fun same => unlike' (congrArg some same)
    · intro same
      cases (same ▸ data').symm.trans matrix

/-- `free_matrix_array` frees each matrix of a usable array once. -/
theorem UsableArray.freed (usable : UsableArray rows cols n creations p heap) :
    ∃ heap', freeMatrixArray p n heap = .ok heap' := by
  have enter : Freeing rows cols n creations p 0 heap := by
    refine ⟨usable.entries, fun i _ within => ?_⟩
    obtain ⟨m, d, cells, mine, mine', matrix, data, _⟩ := usable.own i within
    exact ⟨m, d, cells, mine, mine', matrix, data⟩
  obtain ⟨heap', run, freeing⟩ := forRange_count enter fun k heap below freeing =>
    freeing.next usable.apart below
  exact ⟨heap'.free p, by simp only [freeMatrixArray, run, bind, Except.bind, freeing.entries, Option.isSome_some,
    if_true]⟩

/-- MATRIX_create has no `return`. The array that `create_matrix_array` builds is usable exactly if every call
happens to hand back the block that it has allocated. -/
theorem matrix_array_usable_iff (positive : 0 < size ∧ 0 < rows ∧ 0 < cols)
    (fits : size * 8 < 2 ^ 64 ∧ rows * cols * 8 < 2 ^ 64) (granted : ArrayGranted size.toNat heap p creations m d) :
    ∃ heap', createMatrixArray size rows cols (some p) creations heap = .ok (p, heap') ∧
      (UsableArray rows cols size.toNat creations p heap' ↔
        ∀ i < size.toNat, (creations i).returned = (creations i).matrix) ∧
      (UsableArray rows cols size.toNat creations p heap' → ∃ freed, freeMatrixArray p size heap' = .ok freed) := by
  obtain ⟨n, rfl⟩ := Int.eq_ofNat_of_zero_le positive.1.le
  rw [Int.toNat_natCast] at granted ⊢
  obtain ⟨heap', run, building⟩ := createMatrixArray_granted positive.2 (by omega) fits.1 granted
  have cells := Int.mul_pos positive.2.1 positive.2.2
  exact ⟨heap', run, building.usable_iff granted cells fits.2, UsableArray.freed⟩

/-- One matrix of one cell, where the caller finds NULL as the result of MATRIX_create. -/
theorem matrix_array_unusable :
    ∃ heap, createMatrixArray 1 1 1 (some 0) (fun _ => ⟨some 1, some 2, none⟩) .empty = .ok (0, heap) ∧
      heap 0 = some (.array [some none]) ∧ ¬UsableArray 1 1 1 (fun _ => ⟨some 1, some 2, none⟩) 0 heap ∧
      freeMatrixArray 0 1 heap = .error .undefined := by
  refine ⟨_, rfl, rfl, fun usable => ?_, rfl⟩
  cases usable.entries

/-- Two matrices, where the caller finds the right pointers. -/
theorem matrix_array_usable_two :
    ∃ heap, createMatrixArray 2 3 4 (some 0) (fun i => ⟨some (2 * i + 1), some (2 * i + 2), some (2 * i + 1)⟩) .empty =
        .ok (0, heap) ∧
      UsableArray 3 4 2 (fun i => ⟨some (2 * i + 1), some (2 * i + 2), some (2 * i + 1)⟩) 0 heap := by
  have granted : ArrayGranted (2 : Int).toNat .empty 0
      (fun i => ⟨some (2 * i + 1), some (2 * i + 2), some (2 * i + 1)⟩) (fun i => 2 * i + 1) (fun i => 2 * i + 2) :=
    ⟨fun _ _ => rfl, fun _ _ => rfl, rfl, fun _ _ => ⟨rfl, rfl⟩, by omega, by omega⟩
  have positive : (0 : Int) < 2 ∧ (0 : Int) < 3 ∧ (0 : Int) < 4 := by decide
  obtain ⟨heap, run, usable, _⟩ := matrix_array_usable_iff positive (by decide) granted
  exact ⟨heap, run, usable.mpr fun _ _ => rfl⟩

end PCProject
