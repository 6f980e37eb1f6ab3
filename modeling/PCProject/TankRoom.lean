import PCProject.TankUsage

namespace PCProject
variable {α : Type}

/-- The block behind `data` has room for `maxCapacity` elements. -/
def Tank.HasRoom (tank : Tank) (heap : TankHeap α) : Prop :=
  match tank.data with
  | none => tank.maxCapacity = 0
  | some p => ∃ block, heap p = some block ∧ tank.maxCapacity ≤ block.length

/-- A tank with room for its capacity, whose bytes are a `std::size_t`. -/
structure Tank.Roomy (size : Nat) (tank : Tank) (heap : TankHeap α) : Prop where
  room : tank.HasRoom heap
  filled : tank.filled ≤ tank.maxCapacity
  bytes : tank.maxCapacity * size < 2 ^ 64

/-- Whatever the allocator answers, the operation does not write outside a block, and if it passes its
assertions there is room for the capacity. -/
def KeepsRoom (operation : Option Nat → Except TankStop (Tank × TankHeap α)) : Prop :=
  ∀ answer, operation answer ≠ .error .undefined ∧ ∀ s, operation answer = .ok s → s.1.HasRoom s.2

/-- The product that an operation hands to the allocator does not wrap, or an assertion stops it before. -/
def TankOp.Fits (size : Nat) (op : TankOp α) (tank : Tank) : Prop :=
  match op with
  | .pushBack _ => tank.maxCapacity ≤ tank.filled → tank.grown < tank.filled ∨ tank.grown * size < 2 ^ 64
  | .resize capacity => capacity < tank.filled ∨ capacity * size < 2 ^ 64
  | _ => True

instance (size : Nat) (tank : Tank) : (op : TankOp α) → Decidable (op.Fits size tank)
  | .pushBack _ => inferInstanceAs (Decidable (_ → _))
  | .resize _ => inferInstanceAs (Decidable (_ ∨ _))
  | .popBack | .at _ | .subscript _ | .size | .freeArray => .isTrue trivial

def tankFits (size : Nat) (s : Tank × TankHeap α) (call : TankOp α × Option Nat) : Bool :=
  decide (call.1.Fits size s.1)

/-- The elements that fit in the bytes of a request are enough exactly if the product does not wrap. -/
theorem elements_enough_iff {size capacity : Nat} (positive : 1 ≤ size) :
    capacity ≤ sizeT (capacity * size) / size ↔ capacity * size < 2 ^ 64 := by
  rw [Nat.le_div_iff_mul_le positive]
  constructor
  · exact fun enough => enough.trans_lt (Nat.mod_lt _ (by decide))
  · exact fun small => (sizeT_of_lt small).ge

theorem movedBlock_length (block : List (Option α)) (length : Nat) : (movedBlock block length).length = length := by
  simp [movedBlock]

section Allocations
variable {size bytes : Nat} {heap heap' : TankHeap α} {data : Option Nat} {q : Nat}

theorem tankMalloc_block (step : tankMalloc size bytes heap (some q) = .ok heap') :
    ∃ block, heap' q = some block ∧ block.length = bytes / size := by
  simp only [tankMalloc] at step
  split at step
  · cases step
    exact ⟨_, Cells.store_self _ _ _, List.length_replicate⟩
  · cases step

theorem tankRealloc_block (step : tankRealloc size bytes heap data (some q) = .ok heap') :
    ∃ block, heap' q = some block ∧ block.length = bytes / size := by
  unfold tankRealloc at step
  split at step
  · exact tankMalloc_block step
  · split at step
    · cases step
    · dsimp only at step
      split at step
      · cases step
        exact ⟨_, Cells.store_self _ _ _, movedBlock_length _ _⟩
      · cases step

theorem tankMalloc_defined {answer : Option Nat} : tankMalloc size bytes heap answer ≠ .error .undefined := by
  unfold tankMalloc
  split
  · simp
  · split <;> simp

/-- Only a dangling pointer makes `realloc` undefined. -/
theorem tankRealloc_defined {answer : Option Nat} (live : ∀ p, data = some p → heap p ≠ none) :
    tankRealloc size bytes heap data answer ≠ .error .undefined := by
  unfold tankRealloc
  split
  · exact tankMalloc_defined
  · split
    · rename_i dangling
      exact absurd dangling (live _ rfl)
    · split
      · simp
      · split <;> simp

theorem tankMalloc_given (size bytes : Nat) (free : ∃ q, heap q = none) :
    ∃ q heap', tankMalloc size bytes heap (some q) = .ok heap' := by
  obtain ⟨q, unused⟩ := free
  refine ⟨q, heap.store q (List.replicate (bytes / size) none), ?_⟩
  simp only [tankMalloc, unused, Option.isNone_none, if_true]

/-- The allocator can give a block: for a null pointer an unused one, else the old one. -/
theorem tankRealloc_given (size bytes : Nat) (live : ∀ p, data = some p → heap p ≠ none) (free : ∃ q, heap q = none) :
    ∃ q heap', tankRealloc size bytes heap data (some q) = .ok heap' := by
  cases data with
  | none => exact tankMalloc_given size bytes free
  | some p =>
    obtain ⟨block, here⟩ := Option.ne_none_iff_exists'.mp (live p rfl)
    refine ⟨p, (heap.free p).store p (movedBlock block (bytes / size)), ?_⟩
    simp only [tankRealloc, here, true_or, if_true]

end Allocations

namespace Tank.HasRoom
variable {tank : Tank} {heap heap' : TankHeap α} {index n : Nat} {item : α}

theorem live (room : tank.HasRoom heap) {p : Nat} (pointer : tank.data = some p) : heap p ≠ none := by
  unfold Tank.HasRoom at room
  rw [pointer] at room
  obtain ⟨block, here, _⟩ := room
  simp [here]

/-- An element below the capacity is inside the block. -/
theorem write (room : tank.HasRoom heap) (inside : index < tank.maxCapacity) :
    ∃ heap', tankWrite heap tank.data index item = .ok heap' := by
  unfold Tank.HasRoom at room
  cases pointer : tank.data with
  | none =>
    rw [pointer] at room
    exact absurd inside (by simp only [room]; exact Nat.not_lt_zero index)
  | some p =>
    rw [pointer] at room
    obtain ⟨block, here, enough⟩ := room
    exact ⟨heap.store p (block.set index (some item)), by simp only [tankWrite, here, if_pos (inside.trans_le enough)]⟩

/-- A write changes no length. -/
theorem of_write (written : tankWrite heap tank.data index item = .ok heap') :
    Tank.HasRoom { tank with filled := n } heap' ↔ tank.HasRoom heap := by
  unfold tankWrite at written
  split at written
  · cases written
  · rename_i p pointer
    split at written
    · cases written
    · rename_i block here
      split at written
      · cases written
        simp [Tank.HasRoom, pointer, here]
      · cases written

end Tank.HasRoom

theorem tankWrite_stops {heap : TankHeap α} {data : Option Nat} {index : Nat} {item : α} {failed : TankStop}
    (stopped : tankWrite heap data index item = .error failed) : failed = .undefined := by
  unfold tankWrite at stopped
  split at stopped
  · cases stopped; rfl
  · split at stopped
    · cases stopped; rfl
    · split at stopped
      · cases stopped
      · cases stopped; rfl

section Requests
variable {size capacity : Nat} {tank : Tank} {heap : TankHeap α} {answer : Option Nat} {s : Tank × TankHeap α}

/-- A request leaves room exactly if its product does not wrap. -/
theorem Tank.hasRoom_iff (positive : 1 ≤ size) (passes : ¬(tank.data = none ∧ 0 < tank.maxCapacity))
    (given : ∀ q, tank.data = some q →
      ∃ block, heap q = some block ∧ block.length = sizeT (tank.maxCapacity * size) / size) :
    tank.HasRoom heap ↔ tank.maxCapacity * size < 2 ^ 64 := by
  unfold Tank.HasRoom
  cases pointer : tank.data with
  | none =>
    have nothing : tank.maxCapacity = 0 := Nat.eq_zero_of_not_pos fun more => passes ⟨pointer, more⟩
    simp [nothing]
  | some q =>
    obtain ⟨block, here, length⟩ := given q pointer
    rw [← elements_enough_iff positive, ← length]
    simp [here]

/-- A null answer passes the assertion only for the capacity 0. -/
theorem tankAssert_passed {condition : Prop} [Decidable condition] {failed : TankAssertion} {u : Unit}
    (passed : tankAssert condition failed = .ok u) : condition := by
  by_contra fails
  rw [tankAssert_neg fails] at passed
  cases passed

theorem tankAssert_defined {condition : Prop} [Decidable condition] {failed : TankAssertion} :
    tankAssert condition failed ≠ .error .undefined := by
  unfold tankAssert
  split <;> simp

theorem Tank.create_room (positive : 1 ≤ size) (step : Tank.create size capacity heap answer = .ok s) :
    s.1.filled = 0 ∧ s.1.maxCapacity = capacity ∧ (s.1.HasRoom s.2 ↔ capacity * size < 2 ^ 64) := by
  obtain ⟨heap', allocation, step⟩ := bind_ok step
  obtain ⟨_, asserted, step⟩ := bind_ok step
  cases step
  refine ⟨rfl, rfl, Tank.hasRoom_iff positive (tankAssert_passed asserted) fun q pointer => ?_⟩
  cases pointer
  exact tankMalloc_block allocation

theorem Tank.resize_room (positive : 1 ≤ size) (step : tank.resize size capacity heap answer = .ok s) :
    tank.filled ≤ capacity ∧ s.1.filled = tank.filled ∧ s.1.maxCapacity = capacity ∧
      (s.1.HasRoom s.2 ↔ capacity * size < 2 ^ 64) := by
  obtain ⟨_, enough, step⟩ := bind_ok step
  obtain ⟨heap', allocation, step⟩ := bind_ok step
  obtain ⟨_, asserted, step⟩ := bind_ok step
  cases step
  refine ⟨tankAssert_passed enough, rfl, rfl, ?_⟩
  refine Tank.hasRoom_iff positive (tankAssert_passed asserted) fun q pointer => ?_
  cases pointer
  exact tankRealloc_block allocation

theorem Tank.resize_defined (room : tank.HasRoom heap) : tank.resize size capacity heap answer ≠ .error .undefined :=
  bind_ne_error tankAssert_defined fun _ =>
    bind_ne_error (tankRealloc_defined fun _ => room.live) fun _ =>
      bind_ne_error tankAssert_defined fun _ => by simp [pure, Except.pure]

theorem Tank.create_given (free : ∃ q, heap q = none) : ∃ q s, Tank.create size capacity heap (some q) = .ok s := by
  obtain ⟨q, heap', allocation⟩ := tankMalloc_given size (sizeT (capacity * size)) free
  refine ⟨q, (⟨some q, 0, capacity⟩, heap'), ?_⟩
  have passes : ¬(some q = none ∧ 0 < capacity) := by simp
  simp only [Tank.create, allocation, tankAssert_pos passes, bind, Except.bind, pure, Except.pure]

theorem Tank.resize_given (room : tank.HasRoom heap) (free : ∃ q, heap q = none) (enough : tank.filled ≤ capacity) :
    ∃ q s, tank.resize size capacity heap (some q) = .ok s := by
  obtain ⟨q, heap', allocation⟩ := tankRealloc_given size (sizeT (capacity * size)) (fun _ => room.live) free
  refine ⟨q, (⟨some q, tank.filled, capacity⟩, heap'), ?_⟩
  have passes : ¬(some q = none ∧ 0 < capacity) := by simp
  simp only [Tank.resize, tankAssert_pos enough, allocation, tankAssert_pos passes, bind, Except.bind, pure,
    Except.pure]

theorem Tank.create_keeps (positive : 1 ≤ size) (free : ∃ q, heap q = none) :
    KeepsRoom (Tank.create size capacity heap) ↔ capacity * size < 2 ^ 64 := by
  constructor
  · intro keeps
    obtain ⟨q, s, made⟩ := Tank.create_given free
    obtain ⟨_, _, exactly⟩ := Tank.create_room positive made
    exact exactly.mp ((keeps (some q)).2 s made)
  · intro fits answer
    refine ⟨?_, fun s made => ?_⟩
    · exact bind_ne_error tankMalloc_defined fun _ =>
        bind_ne_error tankAssert_defined fun _ => by simp [pure, Except.pure]
    · obtain ⟨_, _, exactly⟩ := Tank.create_room positive made
      exact exactly.mpr fits

theorem Tank.resize_keeps (positive : 1 ≤ size) (room : tank.HasRoom heap) (free : ∃ q, heap q = none) :
    KeepsRoom (tank.resize size capacity heap) ↔ capacity < tank.filled ∨ capacity * size < 2 ^ 64 := by
  constructor
  · intro keeps
    by_cases short : capacity < tank.filled
    · exact Or.inl short
    · obtain ⟨q, s, resized⟩ := Tank.resize_given room free (Nat.le_of_not_lt short)
      obtain ⟨_, _, _, exactly⟩ := Tank.resize_room positive resized
      exact Or.inr (exactly.mp ((keeps (some q)).2 s resized))
  · intro fits answer
    refine ⟨Tank.resize_defined room, fun s resized => ?_⟩
    obtain ⟨enough, _, _, exactly⟩ := Tank.resize_room positive resized
    exact exactly.mpr (fits.resolve_left (Nat.not_lt_of_le enough))

end Requests

namespace Tank.Roomy
variable {size capacity : Nat} {tank : Tank} {heap : TankHeap α} {answer : Option Nat} {item : α}
  {s : Tank × TankHeap α}

theorem resizeIf {condition : Prop} [Decidable condition] (roomy : tank.Roomy size heap) (positive : 1 ≤ size)
    (fits : condition → capacity < tank.filled ∨ capacity * size < 2 ^ 64)
    (step : tank.resizeIf condition size capacity heap answer = .ok s) : s.1.Roomy size s.2 := by
  unfold Tank.resizeIf at step
  split at step
  · rename_i asked
    obtain ⟨enough, filled, same, exactly⟩ := Tank.resize_room positive step
    have bytes := (fits asked).resolve_left (Nat.not_lt_of_le enough)
    exact ⟨exactly.mpr bytes, by rw [filled, same]; exact enough, by rw [same]; exact bytes⟩
  · cases step
    exact roomy

/-- A doubling that wraps ends below the elements, so the assertion on the capacity fails. -/
theorem filled_lt_grown (roomy : tank.Roomy size heap) (positive : 1 ≤ size) (full : tank.maxCapacity ≤ tank.filled)
    (enough : tank.filled ≤ tank.grown) : tank.filled < tank.grown := by
  have filled := roomy.filled
  have word : tank.maxCapacity < 2 ^ 64 := (Nat.le_mul_of_pos_right _ positive).trans_lt roomy.bytes
  by_cases capacity : 0 < tank.maxCapacity
  · rw [Tank.grown, if_pos capacity, sizeT] at enough ⊢
    omega
  · rw [Tank.grown, if_neg capacity]
    omega

/-- After the resize there is a place for the element. -/
theorem makesPlace (roomy : tank.Roomy size heap) (positive : 1 ≤ size)
    (fits : (TankOp.pushBack item).Fits size tank)
    (step : tank.resizeIf (tank.maxCapacity ≤ tank.filled) size tank.grown heap answer = .ok s) :
    s.1.Roomy size s.2 ∧ s.1.filled < s.1.maxCapacity := by
  refine ⟨roomy.resizeIf positive fits step, ?_⟩
  unfold Tank.resizeIf at step
  split at step
  · rename_i full
    obtain ⟨enough, filled, same, _⟩ := Tank.resize_room positive step
    rw [filled, same]
    exact roomy.filled_lt_grown positive full enough
  · rename_i open_
    cases step
    exact Nat.lt_of_not_le open_

theorem place (roomy : tank.Roomy size heap) (item : α) (inside : tank.filled < tank.maxCapacity) :
    ∃ heap', tankWrite heap tank.data tank.filled item = .ok heap' ∧
      Tank.Roomy size { tank with filled := sizeT (tank.filled + 1) } heap' := by
  obtain ⟨heap', written⟩ := roomy.room.write inside
  exact ⟨heap', written, (Tank.HasRoom.of_write written).mpr roomy.room, (Nat.mod_le _ _).trans inside, roomy.bytes⟩

/-- push_back stops at an assertion, or its element is in the block. -/
theorem pushBack (roomy : tank.Roomy size heap) (positive : 1 ≤ size) (fits : (TankOp.pushBack item).Fits size tank)
    (answer : Option Nat) :
    (∃ failed, tank.pushBack size item heap answer = .error failed ∧ failed ≠ .undefined) ∨
      ∃ t, tank.pushBack size item heap answer = .ok t ∧ t.1.Roomy size t.2 := by
  cases grow : tank.resizeIf (tank.maxCapacity ≤ tank.filled) size tank.grown heap answer with
  | error failed =>
    refine Or.inl ⟨failed, ?_, ?_⟩
    · simp only [Tank.pushBack, grow, bind, Except.bind]
    · rintro rfl
      unfold Tank.resizeIf at grow
      split at grow
      · exact Tank.resize_defined roomy.room grow
      · cases grow
  | ok s =>
    obtain ⟨room, inside⟩ := roomy.makesPlace positive fits grow
    obtain ⟨heap', written, after⟩ := room.place item inside
    refine Or.inr ⟨({ s.1 with filled := sizeT (s.1.filled + 1) }, heap'), ?_, after⟩
    simp only [Tank.pushBack, grow, written, bind, Except.bind, pure, Except.pure]

/-- Below the capacity nothing is asked of the allocator. -/
theorem pushBack_inside (roomy : tank.Roomy size heap) (inside : tank.filled < tank.maxCapacity) :
    ∃ t, tank.pushBack size item heap answer = .ok t := by
  obtain ⟨heap', written, _⟩ := roomy.place item inside
  refine ⟨({ tank with filled := sizeT (tank.filled + 1) }, heap'), ?_⟩
  simp only [Tank.pushBack, Tank.resizeIf, if_neg (Nat.not_le_of_lt inside), written, bind, Except.bind, pure,
    Except.pure]

theorem pushBack_keeps (roomy : tank.Roomy size heap) (positive : 1 ≤ size) (free : ∃ q, heap q = none) :
    KeepsRoom (tank.pushBack size item heap) ↔
      (tank.maxCapacity ≤ tank.filled → tank.grown < tank.filled ∨ tank.grown * size < 2 ^ 64) := by
  constructor
  · intro keeps full
    by_cases short : tank.grown < tank.filled
    · exact Or.inl short
    · obtain ⟨q, s, resized⟩ := Tank.resize_given roomy.room free (Nat.le_of_not_lt short)
      obtain ⟨_, _, _, exactly⟩ := Tank.resize_room positive resized
      obtain ⟨defined, room⟩ := keeps (some q)
      cases written : tankWrite s.2 s.1.data s.1.filled item with
      | error failed =>
        refine absurd ?_ defined
        simp only [Tank.pushBack, Tank.resizeIf, if_pos full, resized, written, tankWrite_stops written, bind,
          Except.bind]
      | ok heap' =>
        have pushed : tank.pushBack size item heap (some q) =
            .ok ({ s.1 with filled := sizeT (s.1.filled + 1) }, heap') := by
          simp only [Tank.pushBack, Tank.resizeIf, if_pos full, resized, written, bind, Except.bind, pure, Except.pure]
        exact Or.inr (exactly.mp ((Tank.HasRoom.of_write written).mp (room _ pushed)))
  · intro fits answer
    rcases roomy.pushBack positive fits answer with ⟨failed, stopped, defined⟩ | ⟨t, pushed, after⟩
    · rw [stopped]
      exact ⟨fun same => defined (Except.error.inj same), fun s passed => by cases passed⟩
    · rw [pushed]
      refine ⟨by simp, fun s passed => ?_⟩
      cases passed
      exact after.room

theorem popBack {removed : α} (roomy : tank.Roomy size heap) (positive : 1 ≤ size)
    (step : tank.popBack size heap answer = .ok (removed, s)) : s.1.Roomy size s.2 := by
  unfold Tank.popBack at step
  obtain ⟨_, _, step⟩ := bind_ok step
  obtain ⟨_, _, step⟩ := bind_ok step
  obtain ⟨_, shrink, step⟩ := bind_ok step
  cases step
  have shorter : Tank.Roomy size { tank with filled := tank.filled - 1 } heap :=
    ⟨roomy.room, (Nat.sub_le _ _).trans roomy.filled, roomy.bytes⟩
  refine shorter.resizeIf positive (fun _ => Or.inr ?_) shrink
  exact (Nat.mul_le_mul_right size (Nat.div_le_self _ 2)).trans_lt roomy.bytes

/-- A call that hands no wrapped product to the allocator keeps the room. -/
theorem run {op : TankOp α} {reply : TankReply α} (roomy : tank.Roomy size heap) (positive : 1 ≤ size)
    (fits : op.Fits size tank) (step : op.run size answer tank heap = .ok (reply, s)) : s.1.Roomy size s.2 := by
  cases op with
  | pushBack item =>
    obtain ⟨after, pushed, step⟩ := bind_ok step
    cases step
    rcases roomy.pushBack positive fits answer with ⟨failed, stopped, _⟩ | ⟨t, passed, room⟩
    · cases stopped.symm.trans pushed
    · cases passed.symm.trans pushed
      exact room
  | popBack =>
    obtain ⟨after, popped, step⟩ := bind_ok step
    cases step
    exact roomy.popBack positive popped
  | resize capacity =>
    obtain ⟨after, resized, step⟩ := bind_ok step
    cases step
    exact roomy.resizeIf positive (fun _ : True => fits) resized
  | freeArray =>
    obtain ⟨after, freed, step⟩ := bind_ok step
    cases step
    obtain ⟨_, _, freed⟩ := bind_ok freed
    cases freed
    exact ⟨rfl, Nat.le_refl 0, by simp⟩
  | «at» index | subscript index =>
    obtain ⟨_, _, step⟩ := bind_ok step
    cases step
    exact roomy
  | size =>
    cases step
    exact roomy

theorem step {call : TankOp α × Option Nat} {s t : Tank × TankHeap α} (roomy : s.1.Roomy size s.2) (positive : 1 ≤ size)
    (allowed : tankFits size s call = true) (step : (tankSystem α size).step s call = some t) : t.1.Roomy size t.2 := by
  cases ran : call.1.run size call.2 s.1 s.2 with
  | error failed => simp [tankSystem, ran, Except.toOption] at step
  | ok after =>
    simp only [tankSystem, ran, Except.toOption, Option.map_some, Option.some.injEq] at step
    subst step
    exact roomy.run positive (of_decide_eq_true allowed) ran

end Tank.Roomy
/-- Exactly when the bytes of a request do not wrap, what passes the assertions has room for its capacity. In every
run of requests that do not wrap an element below the capacity is written inside the block. -/
theorem tank_room_iff {size capacity : Nat} {heap : TankHeap α} (positive : 1 ≤ size) (free : ∃ q, heap q = none) :
    (KeepsRoom (Tank.create size capacity heap) ↔ capacity * size < 2 ^ 64) ∧
    ∀ answer start calls s, capacity * size < 2 ^ 64 → Tank.create size capacity heap answer = .ok start →
      (tankSystem α size).execVia (tankFits size) start calls = some s →
      s.1.HasRoom s.2 ∧ s.1.filled ≤ s.1.maxCapacity ∧
      (s.1.filled < s.1.maxCapacity → ∀ item answer, ∃ t, s.1.pushBack size item s.2 answer = .ok t) ∧
      ((∃ q, s.2 q = none) →
        (∀ capacity, KeepsRoom (s.1.resize size capacity s.2) ↔ capacity < s.1.filled ∨ capacity * size < 2 ^ 64) ∧
        ∀ item, KeepsRoom (s.1.pushBack size item s.2) ↔
          (s.1.maxCapacity ≤ s.1.filled → s.1.grown < s.1.filled ∨ s.1.grown * size < 2 ^ 64)) := by
  refine ⟨Tank.create_keeps positive free, fun answer start calls s fits made run => ?_⟩
  have roomy : s.1.Roomy size s.2 := by
    obtain ⟨filled, same, exactly⟩ := Tank.create_room positive made
    refine System.execVia_invariant (I := fun _ s => s.1.Roomy size s.2)
      ⟨exactly.mpr fits, by simp [filled], by rw [same]; exact fits⟩ ?_ run
    intro _ s ⟨op, answer⟩ t before allowed step
    exact before.step positive allowed step
  refine ⟨roomy.room, roomy.filled, fun inside item answer => roomy.pushBack_inside inside, fun free => ⟨?_, ?_⟩⟩
  · exact fun capacity => Tank.resize_keeps positive roomy.room free
  · exact fun item => roomy.pushBack_keeps positive free

/-- The third element comes into a full tank, whose block grows in its place. -/
def grownTank : List (TankOp Nat × Option Nat) := [(.pushBack 5, none), (.pushBack 6, none), (.pushBack 7, some 1)]

theorem tank_room_iff_grown :
    ∃ start s, Tank.create 8 2 (fun _ => none) (some 1) = .ok start ∧
      (tankSystem Nat 8).execVia (tankFits 8) start grownTank = some s ∧ s.1.maxCapacity = 4 ∧ s.1.HasRoom s.2 := by
  have free : ∃ q, (fun _ => none : TankHeap Nat) q = none := ⟨0, rfl⟩
  have made : Tank.create 8 2 (fun _ => none : TankHeap Nat) (some 1) =
      .ok (⟨some 1, 0, 2⟩, Cells.store (fun _ => none) 1 [none, none]) := rfl
  have run : (tankSystem Nat 8).execVia (tankFits 8) (⟨some 1, 0, 2⟩, Cells.store (fun _ => none) 1 [none, none])
      grownTank = some _ := rfl
  obtain ⟨room, _⟩ := (tank_room_iff (by decide) free).2 _ _ _ _ (by decide) made run
  exact ⟨_, _, made, run, rfl, room⟩

/-- The bytes of 2^61 + 1 elements of eight bytes wrap to the bytes of one, so the constructor passes with a block for
one element, and the second push_back writes outside it. -/
theorem wrapped_tank_without_room :
    ∃ s t : Tank × TankHeap Nat, Tank.create 8 (2 ^ 61 + 1) (fun _ => none) (some 0) = .ok s ∧ s.2 0 = some [none] ∧
      ¬s.1.HasRoom s.2 ∧ s.1.pushBack 8 5 s.2 none = .ok t ∧ t.1.filled < t.1.maxCapacity ∧
      ∀ item answer, t.1.pushBack 8 item t.2 answer = .error .undefined := by
  refine ⟨_, _, rfl, rfl, ?_, rfl, by decide, fun item answer => rfl⟩
  rintro ⟨block, here, enough⟩
  cases here
  exact absurd enough (by decide)

end PCProject
