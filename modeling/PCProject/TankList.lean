import PCProject.Tank

namespace PCProject
variable {α : Type}

/-- The products and the doubling of a capacity that `Tank.cpp` computes do not wrap. -/
def CapacityFits (size capacity : Nat) : Prop := capacity * size < 2 ^ 64 ∧ 2 * capacity < 2 ^ 64

instance (size capacity : Nat) : Decidable (CapacityFits size capacity) :=
  inferInstanceAs (Decidable (_ ∧ _))

/-- The allocator grants room for `capacity` elements: only where nothing is asked for it may
answer with a null pointer, and it never hands out a block that is in use. -/
def Granted (heap : TankHeap α) (data : Option Nat) (capacity : Nat) : Option Nat → Prop
  | none => capacity = 0
  | some q => data = some q ∨ (heap q).isNone

instance (heap : TankHeap α) (data : Option Nat) (capacity : Nat) (answer : Option Nat) :
    Decidable (Granted heap data capacity answer) :=
  match answer with
  | none => inferInstanceAs (Decidable (capacity = 0))
  | some q => inferInstanceAs (Decidable (data = some q ∨ (heap q).isNone))

/-- A block for `capacity` elements that starts with the elements `xs`. -/
def Stored (heap : TankHeap α) (capacity : Nat) (xs : List α) : Option Nat → Prop
  | none => capacity = 0 ∧ xs = []
  | some p => ∃ rest, heap p = some (xs.map some ++ rest) ∧ xs.length + rest.length = capacity

/-- The tank represents the list `xs`. -/
structure Tank.Holds (size : Nat) (tank : Tank) (heap : TankHeap α) (xs : List α) : Prop where
  filled : tank.filled = xs.length
  fits : CapacityFits size tank.maxCapacity
  stored : Stored heap tank.maxCapacity xs tank.data

theorem Stored.room {heap : TankHeap α} {capacity : Nat} {xs : List α} {data : Option Nat}
    (stored : Stored heap capacity xs data) : xs.length ≤ capacity := by
  cases data with
  | none => simp [stored.2]
  | some p =>
    obtain ⟨rest, _, lengths⟩ := stored
    omega

theorem Tank.Holds.room {size : Nat} {tank : Tank} {heap : TankHeap α} {xs : List α}
    (holds : tank.Holds size heap xs) : tank.filled ≤ tank.maxCapacity :=
  holds.filled ▸ holds.stored.room

theorem sizeT_of_lt {n : Nat} (small : n < 2 ^ 64) : sizeT n = n := Nat.mod_eq_of_lt small

theorem CapacityFits.elements {size capacity : Nat} (fits : CapacityFits size capacity) (positive : 0 < size) :
    sizeT (capacity * size) / size = capacity := by
  rw [sizeT_of_lt fits.1, Nat.mul_div_cancel _ positive]

theorem tankAssert_pos {condition : Prop} [Decidable condition] {failed : TankAssertion} (passes : condition) :
    tankAssert condition failed = .ok () := if_pos passes

theorem tankAssert_neg {condition : Prop} [Decidable condition] {failed : TankAssertion} (fails : ¬condition) :
    tankAssert condition failed = .error (.assertion failed) := if_neg fails

theorem movedBlock_stored {xs : List α} (rest : List (Option α)) {length : Nat} (enough : xs.length ≤ length) :
    ∃ rest', movedBlock (xs.map some ++ rest) length = xs.map some ++ rest' ∧ xs.length + rest'.length = length := by
  refine ⟨(rest ++ List.replicate length none).take (length - xs.length), ?_, ?_⟩
  · simp [movedBlock, List.take_append, List.take_of_length_le, enough]
  · simp only [List.length_take, List.length_append, List.length_replicate]
    omega

/-- A granted `malloc` makes an empty block. -/
theorem tankMalloc_granted {size capacity : Nat} {heap : TankHeap α} {answer : Option Nat} (positive : 0 < size)
    (fits : CapacityFits size capacity) (granted : Granted heap none capacity answer) :
    ∃ heap', tankMalloc size (sizeT (capacity * size)) heap answer = .ok heap' ∧ Stored heap' capacity [] answer := by
  cases answer with
  | none => exact ⟨heap, rfl, granted, rfl⟩
  | some q =>
    have unused : (heap q).isNone := granted.resolve_left (by simp)
    refine ⟨heap.store q (List.replicate capacity none), ?_, List.replicate capacity none, ?_, ?_⟩
    · simp only [tankMalloc, unused, if_true, fits.elements positive]
    · exact Cells.store_self _ _ _
    · simp

/-- A granted `realloc` keeps the elements, as long as there is room for them. -/
theorem tankRealloc_granted {size old capacity : Nat} {heap : TankHeap α} {data answer : Option Nat} {xs : List α}
    (positive : 0 < size) (stored : Stored heap old xs data) (fits : CapacityFits size capacity)
    (enough : xs.length ≤ capacity) (granted : Granted heap data capacity answer) :
    ∃ heap', tankRealloc size (sizeT (capacity * size)) heap data answer = .ok heap' ∧
      Stored heap' capacity xs answer := by
  cases data with
  | none =>
    rw [stored.2]
    exact tankMalloc_granted positive fits granted
  | some p =>
    obtain ⟨rest, here, _⟩ := stored
    cases answer with
    | none =>
      have nothing : capacity = 0 := granted
      have empty : xs = [] := List.eq_nil_of_length_eq_zero (by omega)
      refine ⟨if sizeT (capacity * size) = 0 then heap.free p else heap, ?_, nothing, empty⟩
      simp only [tankRealloc, here]
    | some q =>
      have legal : q = p ∨ (heap q).isNone := granted.imp_left fun same => (Option.some.inj same).symm
      obtain ⟨rest', moved, lengths⟩ := movedBlock_stored rest enough
      refine ⟨(heap.free p).store q (xs.map some ++ rest'), ?_, rest', ?_, lengths⟩
      · simp only [tankRealloc, here, legal, if_true, fits.elements positive, moved]
      · exact Cells.store_self _ _ _

/-- The constructor makes the empty list. -/
theorem Tank.create_holds {size capacity : Nat} {heap : TankHeap α} {answer : Option Nat} (positive : 0 < size)
    (fits : CapacityFits size capacity) (granted : Granted heap none capacity answer) :
    ∃ tank heap', Tank.create size capacity heap answer = .ok (tank, heap') ∧ tank.Holds size heap' [] := by
  obtain ⟨heap', allocation, stored⟩ := tankMalloc_granted positive fits granted
  have passes : ¬(answer = none ∧ 0 < capacity) := by
    intro ⟨null, more⟩
    rw [null] at granted
    exact Nat.ne_of_gt more granted
  refine ⟨⟨answer, 0, capacity⟩, heap', ?_, rfl, fits, stored⟩
  simp only [Tank.create, allocation, tankAssert_pos passes, bind, Except.bind, pure, Except.pure]

namespace Tank.Holds
variable {size : Nat} {tank : Tank} {heap : TankHeap α} {xs : List α} {answer : Option Nat}

theorem resize {capacity : Nat} (holds : tank.Holds size heap xs) (positive : 0 < size)
    (fits : CapacityFits size capacity) (enough : xs.length ≤ capacity)
    (granted : Granted heap tank.data capacity answer) :
    ∃ tank' heap', tank.resize size capacity heap answer = .ok (tank', heap') ∧ tank'.maxCapacity = capacity ∧
      tank'.Holds size heap' xs := by
  obtain ⟨heap', allocation, stored⟩ := tankRealloc_granted positive holds.stored fits enough granted
  have room : tank.filled ≤ capacity := holds.filled ▸ enough
  have passes : ¬(answer = none ∧ 0 < capacity) := by
    intro ⟨null, more⟩
    rw [null] at granted
    exact Nat.ne_of_gt more granted
  refine ⟨⟨answer, tank.filled, capacity⟩, heap', ?_, rfl, holds.filled, fits, stored⟩
  simp only [Tank.resize, tankAssert_pos room, allocation, tankAssert_pos passes, bind, Except.bind, pure, Except.pure]

theorem read (holds : tank.Holds size heap xs) {i : Nat} (inside : i < xs.length) :
    tankRead heap tank.data i = .ok xs[i] := by
  have stored := holds.stored
  cases pointer : tank.data with
  | none =>
    rw [pointer] at stored
    simp [stored.2] at inside
  | some p =>
    rw [pointer] at stored
    obtain ⟨rest, here, _⟩ := stored
    simp [tankRead, here, List.getElem?_append_left, inside]

theorem write (holds : tank.Holds size heap xs) (room : xs.length < tank.maxCapacity) (item : α) :
    ∃ heap', tankWrite heap tank.data tank.filled item = .ok heap' ∧
      Tank.Holds size { tank with filled := sizeT (tank.filled + 1) } heap' (xs ++ [item]) := by
  have stored := holds.stored
  cases pointer : tank.data with
  | none =>
    rw [pointer] at stored
    exact absurd stored.1 (by omega)
  | some p =>
    rw [pointer] at stored
    obtain ⟨rest, here, lengths⟩ := stored
    cases rest with
    | nil => simp only [List.length_nil] at lengths; omega
    | cons old rest =>
      refine ⟨heap.store p (xs.map some ++ some item :: rest), ?_, ?_, holds.fits, ?_⟩
      · simp [tankWrite, here, holds.filled]
      · have small := holds.fits.2
        rw [holds.filled, sizeT_of_lt (by omega), List.length_append, List.length_singleton]
      · refine ⟨rest, ?_, ?_⟩
        · simp
        · simpa [Nat.add_assoc, Nat.add_comm 1] using lengths

end Tank.Holds

/-- The capacity that an operation asks the allocator for, if it asks. -/
def TankOp.request (op : TankOp α) (tank : Tank) : Option Nat :=
  match op with
  | .pushBack _ =>
    if tank.maxCapacity ≤ tank.filled then some (if 0 < tank.maxCapacity then 2 * tank.maxCapacity else 1) else none
  | .popBack =>
    if 0 < tank.filled ∧ tank.filled - 1 < tank.maxCapacity / 2 then some (tank.maxCapacity / 2) else none
  | .resize capacity => if capacity < tank.filled then none else some capacity
  | _ => none

/-- An index is a `long long int`. -/
def TankOp.IndexFits (op : TankOp α) : Prop :=
  match op with
  | .at index | .subscript index => -2 ^ 63 ≤ index ∧ index < 2 ^ 63
  | _ => True

instance : (op : TankOp α) → Decidable op.IndexFits
  | .at _ | .subscript _ => inferInstanceAs (Decidable (_ ∧ _))
  | .pushBack _ | .popBack | .size | .resize _ | .freeArray => .isTrue trivial

/-- Memory is granted when the operation asks for it, and no capacity wraps. -/
def TankOp.Allowed (size : Nat) (op : TankOp α) (tank : Tank) (heap : TankHeap α) (answer : Option Nat) : Prop :=
  op.IndexFits ∧ ∀ capacity ∈ op.request tank, CapacityFits size capacity ∧ Granted heap tank.data capacity answer

instance (size : Nat) (op : TankOp α) (tank : Tank) (heap : TankHeap α) (answer : Option Nat) :
    Decidable (op.Allowed size tank heap answer) :=
  inferInstanceAs (Decidable (_ ∧ _))

namespace Tank.Holds
variable {size : Nat} {tank : Tank} {heap : TankHeap α} {xs : List α} {answer : Option Nat}

theorem pushBack (holds : tank.Holds size heap xs) (positive : 0 < size) {item : α}
    (allowed : (TankOp.pushBack item).Allowed size tank heap answer) :
    ∃ tank' heap', tank.pushBack size item heap answer = .ok (tank', heap') ∧
      tank'.Holds size heap' (xs ++ [item]) := by
  have asked := allowed.2
  have room := holds.room
  by_cases full : tank.maxCapacity ≤ tank.filled
  · have grown : tank.grown = if 0 < tank.maxCapacity then 2 * tank.maxCapacity else 1 := by
      rw [Tank.grown, sizeT_of_lt holds.fits.2]
    simp only [TankOp.request, full, if_true, Option.mem_some_iff, forall_eq', ← grown] at asked
    have more : xs.length < tank.grown := by
      rw [grown, ← holds.filled]
      split <;> omega
    obtain ⟨resized, heap₁, step, capacity, holds₁⟩ := holds.resize positive asked.1 (by omega) asked.2
    obtain ⟨heap₂, stored, holds₂⟩ := holds₁.write (by omega) item
    refine ⟨_, heap₂, ?_, holds₂⟩
    simp only [Tank.pushBack, Tank.resizeIf, full, if_true, step, stored, bind, Except.bind, pure, Except.pure]
  · obtain ⟨heap₁, stored, holds₁⟩ := holds.write (by rw [← holds.filled]; omega) item
    refine ⟨_, heap₁, ?_, holds₁⟩
    simp only [Tank.pushBack, Tank.resizeIf, full, if_false, stored, bind, Except.bind, pure, Except.pure]

/-- The removed element stays in the block, behind the elements of the list. -/
theorem shorten {last : α} (holds : tank.Holds size heap (xs ++ [last])) :
    Tank.Holds size { tank with filled := tank.filled - 1 } heap xs := by
  have filled := holds.filled
  have stored := holds.stored
  refine ⟨by simp [filled], holds.fits, ?_⟩
  cases pointer : tank.data with
  | none =>
    rw [pointer] at stored
    exact absurd stored.2 (by simp)
  | some p =>
    rw [pointer] at stored
    obtain ⟨rest, here, lengths⟩ := stored
    refine ⟨some last :: rest, by simpa using here, ?_⟩
    simpa [Nat.add_assoc, Nat.add_comm 1] using lengths

theorem popBack {last : α} (holds : tank.Holds size heap (xs ++ [last])) (positive : 0 < size)
    (allowed : (TankOp.popBack (α := α)).Allowed size tank heap answer) :
    ∃ tank' heap', tank.popBack size heap answer = .ok (last, tank', heap') ∧ tank'.Holds size heap' xs := by
  have asked := allowed.2
  have filled : tank.filled = xs.length + 1 := by simp [holds.filled]
  have some_left : 0 < tank.filled := by omega
  have read : tankRead heap tank.data (tank.filled - 1 : Nat) = .ok last := by
    rw [filled, Nat.add_sub_cancel]
    simpa using holds.read (i := xs.length) (by simp)
  have holds₁ := holds.shorten
  by_cases sparse : tank.filled - 1 < tank.maxCapacity / 2
  · simp only [TankOp.request, some_left, sparse, and_self, if_true, Option.mem_some_iff, forall_eq'] at asked
    obtain ⟨resized, heap₁, step, _, holds₂⟩ := holds₁.resize positive asked.1 (by omega) asked.2
    refine ⟨resized, heap₁, ?_, holds₂⟩
    simp only [Tank.popBack, Tank.resizeIf, tankAssert_pos some_left, read, sparse, if_true, step, bind,
      Except.bind, pure, Except.pure]
  · refine ⟨_, heap, ?_, holds₁⟩
    simp only [Tank.popBack, Tank.resizeIf, tankAssert_pos some_left, read, sparse, if_false, bind, Except.bind, pure,
      Except.pure]

/-- The comparison as unsigned numbers finds negative indices as well, since a size is below 2^63. -/
theorem at_index (holds : tank.Holds size heap xs) {index : Int} (signed : -2 ^ 63 ≤ index ∧ index < 2 ^ 63) :
    tank.at heap index = if inside : 0 ≤ index ∧ index < xs.length then .ok xs[index.toNat]
      else .error (.assertion .index) := by
  have room := holds.room
  have small := holds.fits.2
  have filled := holds.filled
  by_cases inside : 0 ≤ index ∧ index < xs.length
  · have same : index % 2 ^ 64 = index := Int.emod_eq_of_lt inside.1 (by omega)
    have passes : index % 2 ^ 64 < tank.filled := by omega
    have read := holds.read (i := index.toNat) (by omega)
    rw [Int.toNat_of_nonneg inside.1] at read
    simp only [Tank.at, tankAssert_pos passes, dif_pos inside, read, bind, Except.bind]
  · have fails : ¬index % 2 ^ 64 < tank.filled := by omega
    simp only [Tank.at, tankAssert_neg fails, dif_neg inside, bind, Except.bind]

theorem freeArray (holds : tank.Holds size heap xs) :
    ∃ tank' heap', tank.freeArray heap = .ok (tank', heap') ∧ tank'.Holds size heap' [] := by
  have stored := holds.stored
  have fits : CapacityFits size 0 := by simp [CapacityFits]
  cases pointer : tank.data with
  | none =>
    refine ⟨⟨none, 0, 0⟩, heap, ?_, rfl, fits, rfl, rfl⟩
    simp [Tank.freeArray, tankFree, pointer, bind, Except.bind, pure, Except.pure]
  | some p =>
    rw [pointer] at stored
    obtain ⟨rest, here, _⟩ := stored
    refine ⟨⟨none, 0, 0⟩, heap.free p, ?_, rfl, fits, rfl, rfl⟩
    simp [Tank.freeArray, tankFree, pointer, here, bind, Except.bind, pure, Except.pure]

/-- An operation does to the tank what it does to the list. -/
theorem run (holds : tank.Holds size heap xs) (positive : 0 < size) {op : TankOp α}
    (allowed : op.Allowed size tank heap answer) :
    match op.onList xs with
    | .error failed => op.run size answer tank heap = .error (.assertion failed)
    | .ok (reply, ys) => ∃ tank' heap', op.run size answer tank heap = .ok (reply, tank', heap') ∧
        tank'.Holds size heap' ys := by
  cases op with
  | pushBack item =>
    obtain ⟨tank', heap', step, after⟩ := holds.pushBack positive allowed
    exact ⟨tank', heap', by simp [TankOp.run, step, bind, Except.bind, pure, Except.pure], after⟩
  | popBack =>
    rcases List.eq_nil_or_concat' xs with empty | ⟨ys, last, split⟩
    · have none_left : ¬0 < tank.filled := by simp [holds.filled, empty]
      subst empty
      simp only [TankOp.onList, List.getLast?_nil, TankOp.run, Tank.popBack, tankAssert_neg none_left, bind,
        Except.bind]
    · subst split
      obtain ⟨tank', heap', step, after⟩ := holds.popBack positive allowed
      simp only [TankOp.onList, List.getLast?_concat, List.dropLast_concat]
      exact ⟨tank', heap', by simp [TankOp.run, step, bind, Except.bind, pure, Except.pure], after⟩
  | «at» index =>
    have access := holds.at_index allowed.1
    by_cases inside : 0 ≤ index ∧ index < xs.length
    · rw [dif_pos inside] at access
      simp only [TankOp.onList, dif_pos inside]
      exact ⟨tank, heap, by simp [TankOp.run, access, bind, Except.bind, pure, Except.pure], holds⟩
    · rw [dif_neg inside] at access
      simp only [TankOp.onList, dif_neg inside]
      simp [TankOp.run, access, bind, Except.bind]
  | subscript index =>
    have access := holds.at_index allowed.1
    by_cases inside : 0 ≤ index ∧ index < xs.length
    · rw [dif_pos inside] at access
      simp only [TankOp.onList, dif_pos inside]
      exact ⟨tank, heap, by simp [TankOp.run, Tank.subscript, access, bind, Except.bind, pure, Except.pure], holds⟩
    · rw [dif_neg inside] at access
      simp only [TankOp.onList, dif_neg inside]
      simp [TankOp.run, Tank.subscript, access, bind, Except.bind]
  | size => exact ⟨tank, heap, by rw [← holds.filled]; rfl, holds⟩
  | resize capacity =>
    have asked := allowed.2
    by_cases short : capacity < xs.length
    · have fails : ¬tank.filled ≤ capacity := by rw [holds.filled]; omega
      simp only [TankOp.onList, short, if_true, TankOp.run, Tank.resize, tankAssert_neg fails, bind, Except.bind]
    · have passes : ¬capacity < tank.filled := by rwa [holds.filled]
      simp only [TankOp.request, passes, if_false, Option.mem_some_iff, forall_eq'] at asked
      obtain ⟨tank', heap', step, _, after⟩ := holds.resize positive asked.1 (by omega) asked.2
      simp only [TankOp.onList, short, if_false]
      exact ⟨tank', heap', by simp [TankOp.run, step, bind, Except.bind, pure, Except.pure], after⟩
  | freeArray =>
    obtain ⟨tank', heap', step, after⟩ := holds.freeArray
    exact ⟨tank', heap', by simp [TankOp.run, step, bind, Except.bind, pure, Except.pure], after⟩

end Tank.Holds

/-- One tank and the heap, under calls of its operations. A failed assertion ends the program. -/
def tankSystem (α : Type) (size : Nat) : System (Tank × TankHeap α) (TankOp α × Option Nat) where
  init s := ∃ capacity heap answer, CapacityFits size capacity ∧ Granted heap none capacity answer ∧
    Tank.create size capacity heap answer = .ok s
  step s call := (call.1.run size call.2 s.1 s.2).toOption.map Prod.snd

def tankAllowed (size : Nat) (s : Tank × TankHeap α) (call : TankOp α × Option Nat) : Bool :=
  decide (call.1.Allowed size s.1 s.2 call.2)

/-- The list that is left after some operations, if no assertion fails. -/
def listAfter (ops : List (TankOp α)) : Option (List α) :=
  ops.foldlM (fun xs op => (op.onList xs).toOption.map Prod.snd) []

/-- The representation along a run: the list of the run's own operations. -/
theorem tank_run_holds {size : Nat} {start s : Tank × TankHeap α} {calls : List (TankOp α × Option Nat)}
    (positive : 0 < size) (empty : start.1.Holds size start.2 [])
    (run : (tankSystem α size).execVia (tankAllowed size) start calls = some s) :
    ∃ xs, listAfter (calls.map Prod.fst) = some xs ∧ s.1.Holds size s.2 xs := by
  refine System.execVia_invariant (I := fun past s => ∃ xs, listAfter (past.map Prod.fst) = some xs ∧
    s.1.Holds size s.2 xs) ⟨[], rfl, empty⟩ ?_ run
  intro past s ⟨op, answer⟩ t ⟨xs, list, holds⟩ allowed step
  have effect := holds.run positive (of_decide_eq_true allowed)
  simp only [listAfter] at list
  simp only [listAfter, List.map_append, List.map_cons, List.map_nil, List.foldlM_append, list]
  cases result : op.onList xs with
  | error failed =>
    rw [result] at effect
    simp [tankSystem, effect, Except.toOption] at step
  | ok after =>
    obtain ⟨reply, ys⟩ := after
    rw [result] at effect
    obtain ⟨tank', heap', ran, after⟩ := effect
    simp only [tankSystem, ran, Except.toOption, Option.map_some, Option.some.injEq] at step
    subst step
    exact ⟨ys, by simp [result, Except.toOption], after⟩

/-- Whatever is done to a tank, it is the list that the same operations make of the empty list, and
every further operation does to the tank what it does to this list, or fails the same assertion. -/
theorem tank_refines_list {size capacity : Nat} {heap : TankHeap α} {answer : Option Nat} (positive : 0 < size)
    (fits : CapacityFits size capacity) (granted : Granted heap none capacity answer) :
    ∃ start, Tank.create size capacity heap answer = .ok start ∧
      ∀ calls s, (tankSystem α size).execVia (tankAllowed size) start calls = some s →
        ∃ xs, listAfter (calls.map Prod.fst) = some xs ∧ s.1.filled ≤ s.1.maxCapacity ∧ s.1.Holds size s.2 xs ∧
          ∀ op answer, TankOp.Allowed size op s.1 s.2 answer →
            match op.onList xs with
            | .error failed => op.run size answer s.1 s.2 = .error (.assertion failed)
            | .ok (reply, ys) => ∃ tank' heap', op.run size answer s.1 s.2 = .ok (reply, tank', heap') ∧
                tank'.Holds size heap' ys := by
  obtain ⟨tank, heap', created, empty⟩ := Tank.create_holds positive fits granted
  refine ⟨(tank, heap'), created, ?_⟩
  intro calls s run
  obtain ⟨xs, list, holds⟩ := tank_run_holds positive empty run
  exact ⟨xs, list, holds.room, holds, fun op answer allowed => holds.run positive allowed⟩

/-- A run that grows, shrinks, frees and reuses a tank. -/
def reusedTank : List (TankOp Nat × Option Nat) :=
  [(.pushBack 5, some 1), (.pushBack 6, some 2), (.pushBack 7, some 2), (.popBack, none), (.popBack, some 1),
    (.freeArray, none), (.resize 0, none), (.pushBack 8, some 3)]

theorem tank_refines_list_reused :
    ∃ s, (tankSystem Nat 8).execVia (tankAllowed 8) (⟨none, 0, 0⟩, fun _ => none) reusedTank = some s ∧
      s.1.Holds 8 s.2 [8] := by
  obtain ⟨start, created, runs⟩ := @tank_refines_list Nat 8 0 (fun _ => none) none (by decide) (by decide) rfl
  cases created
  obtain ⟨xs, list, _, holds, _⟩ := runs reusedTank _ rfl
  cases list
  exact ⟨_, rfl, holds⟩

end PCProject
