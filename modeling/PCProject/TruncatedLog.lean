import PCProject.CheckAnswers
import PCProject.InitOperand

namespace PCProject

/-- The first lines of some lines, with others left out behind them. -/
def CutShort (shown lines : List (List Char)) : Prop := ∃ hidden, hidden ≠ [] ∧ lines = shown ++ hidden

/-- A beginning of a text that stops at a line boundary. -/
def LineCut (text cut : List Char) : Prop := cut <+: text ∧ (cut = [] ∨ cut.getLast? = some '\n')

/-- The script does not report a success: it returns 1 or raises. Nothing but numpy can keep it from its end. -/
def Rejected (equal : Table → Table → Table → Except PyError Bool) (run : Except PyError CheckResult) : Prop :=
  (∃ result, run = .ok result ∧ result.code = 1) ∨
    ∃ e, run = .error e ∧ (e = .endless → ∃ a b p, equal a b p = .error .endless)

/-- The operations of a log that main writes: square matrices of order `n`, with operands that `init_operand` has
filled. Nothing is said about the products. -/
structure MainOperations (n : Int) (ops : List Operation) (memory : MatrixMemory) : Prop where
  stored : ∀ op ∈ ops, op.Stored memory
  square : ∀ op ∈ ops, op.operandA.rows = n ∧ op.operandA.cols = n ∧ op.operandB.cols = n
  operands : ∀ op ∈ ops, Initialised (memory op.operandA.data) ∧ Initialised (memory op.operandB.data)

variable {m : Matrix} {memory : MatrixMemory} {text front shown lines more : List (List Char)} {i k : Int}
  {equal : Table → Table → Table → Except PyError Bool} {op : Operation} {ops : List Operation}

theorem CutShort.append (cut : CutShort shown (lines ++ more)) :
    CutShort shown lines ∨ ∃ later, shown = lines ++ later ∧ CutShort later more := by
  obtain ⟨hidden, nonempty, parts⟩ := cut
  rcases List.append_eq_append_iff.mp parts with ⟨later, ends, behind⟩ | ⟨left, inside, rfl⟩
  · exact Or.inr ⟨later, ends, hidden, nonempty, behind⟩
  · by_cases all : left = []
    · subst all
      exact Or.inr ⟨[], by simpa using inside.symm, more, by simpa using nonempty, rfl⟩
    · exact Or.inl ⟨left, all, inside⟩

theorem CutShort.of_prefix (begins : shown <+: lines) : shown = lines ∨ CutShort shown lines := by
  obtain ⟨hidden, whole⟩ := begins
  by_cases all : hidden = []
  · exact Or.inl (by rw [← whole, all, List.append_nil])
  · exact Or.inr ⟨hidden, all, whole.symm⟩

theorem readMatrix_past (past : text.length ≤ i) : readMatrix text i = .error .indexError := by
  unfold readMatrix
  rw [Py.index_past past]
  rfl

/-- A matrix that is cut short takes the empty line behind it for its header or for one of its rows, and then the
line behind it is beyond the end. -/
theorem Matrix.read_cut (m : Matrix) (cut : CutShort shown (m.lines memory))
    (split : text = front ++ shown ++ [[]]) (here : i = front.length) :
    readMatrix text i = .error .indexError ∨
      ∃ table next, readMatrix text i = .ok (table, next) ∧ text.length ≤ next := by
  obtain ⟨hidden, nonempty, parts⟩ := cut
  cases shown with
  | nil =>
    left
    have header : Py.index text i = .ok [] := by
      rw [split, here, List.append_nil]
      exact Py.index_append
    unfold readMatrix
    rw [header]
    rfl
  | cons header rows =>
    right
    obtain ⟨rfl, below⟩ := List.cons.inj parts
    obtain ⟨top, bottom, table, rfl, rfl⟩ := List.map_eq_append_iff.mp below
    obtain ⟨shape, inner, outer, sizes⟩ := split_headerLine m.rows m.cols
    have header : Py.index text i = .ok (headerLine m.rows m.cols) := by
      rw [split, here, List.append_assoc, List.cons_append]
      exact Py.index_append
    have height := m.table_length memory
    have missing : bottom ≠ [] := by simpa using nonempty
    have some_missing := List.length_pos_of_ne_nil missing
    rw [table, List.length_append] at height
    have slice : Py.slice text (i + 1) (i + 1 + m.rows) = top.map rowLine ++ [[]] := by
      have lines : text = (front ++ [headerLine m.rows m.cols]) ++ (top.map rowLine ++ [[]]) := by simp [split]
      rw [lines]
      refine Py.slice_past (by simp [here]) ?_
      simp only [List.length_append, List.length_map, List.length_singleton]
      omega
    have cells : (top.map rowLine ++ [[]]).mapM (fun row => (Py.split row).mapM Py.int) = .ok (top ++ [[]]) := by
      rw [List.mapM_append, read_rows]
      rfl
    refine ⟨top ++ [[]], i + 1 + m.rows, ?_, ?_⟩
    · unfold readMatrix
      simp only [header, inner, outer, sizes, Py.int_decimal, Py.int_blank, slice, cells, bind, Except.bind]
    · simp only [split, here, List.length_append, List.length_cons, List.length_map, List.length_nil]
      omega

theorem Rejected.indexError (equal : Table → Table → Table → Except PyError Bool) :
    Rejected equal (.error .indexError) :=
  Or.inr ⟨_, rfl, nofun⟩

/-- Behind the end of the text the loop raises. -/
theorem checkLoop_past {fuel : Nat} {past : List LoggedOperation} (beyond : text.length ≤ i) :
    checkLoop equal text (fuel + 1) i past = .error .indexError := by
  rw [checkLoop, Py.index_past beyond]
  rfl

/-- An operation that is cut short behind its first line is not accepted. The cases follow the matrix in which the
cut falls. -/
theorem Operation.Stored.check_cut (stored : op.Stored memory) (cut : CutShort shown (op.lines memory k))
    (begun : shown ≠ []) (split : text = front ++ shown ++ [[]]) (here : i = front.length) (fuel : Nat)
    (past : List LoggedOperation) : Rejected equal (checkLoop equal text (fuel + 2) i past) := by
  obtain ⟨first, shown, rfl⟩ := List.exists_cons_of_ne_nil begun
  obtain ⟨hidden, nonempty, parts⟩ := cut
  rw [Operation.lines, List.cons_append, List.cons_append, List.cons_append] at parts
  obtain ⟨rfl, inside⟩ := List.cons.inj parts
  have line : Py.index text i = .ok (operationLine k) := by
    rw [split, here, List.append_assoc, List.cons_append]
    exact Py.index_append
  have begins : "Operation".toList.isPrefixOf (operationLine k) = true := rfl
  have unread : text = (front ++ [operationLine k]) ++ shown ++ [[]] := by simp [split]
  have start : i + 1 = ((front ++ [operationLine k]).length : Nat) := by simp [here]
  rw [checkLoop]
  simp only [line, begins, bind, Except.bind, if_true]
  have behindA : i + 1 + (op.operandA.lines memory).length =
      ((front ++ [operationLine k] ++ op.operandA.lines memory).length : Nat) := by
    rw [start, ← Nat.cast_add, ← List.length_append]
  have behindB : i + 1 + (op.operandA.lines memory).length + (op.operandB.lines memory).length =
      ((front ++ [operationLine k] ++ op.operandA.lines memory ++ op.operandB.lines memory).length : Nat) := by
    rw [behindA, ← Nat.cast_add, ← List.length_append]
  have cut : CutShort shown (op.operandA.lines memory ++ op.operandB.lines memory ++ op.product.lines memory) :=
    ⟨hidden, nonempty, inside⟩
  rcases cut.append with inOperands | ⟨part, rfl, inProduct⟩
  · rcases inOperands.append with inA | ⟨part, rfl, inB⟩
    · rcases op.operandA.read_cut inA unread start with failed | ⟨a, next, reads, beyond⟩
      · simp only [failed]
        exact .indexError equal
      · simp only [reads, readMatrix_past beyond]
        exact .indexError equal
    · have wholeA : text = (front ++ [operationLine k]) ++ op.operandA.lines memory ++ (part ++ [[]]) := by simp [split]
      have unread : text = (front ++ [operationLine k] ++ op.operandA.lines memory) ++ part ++ [[]] := by simp [split]
      simp only [stored.operandA.read wholeA start]
      rcases op.operandB.read_cut inB unread behindA with failed | ⟨b, next, reads, beyond⟩
      · simp only [failed]
        exact .indexError equal
      · simp only [reads, readMatrix_past beyond]
        exact .indexError equal
  · have wholeA : text = (front ++ [operationLine k]) ++ op.operandA.lines memory ++
        (op.operandB.lines memory ++ part ++ [[]]) := by simp [split]
    have wholeB : text = (front ++ [operationLine k] ++ op.operandA.lines memory) ++ op.operandB.lines memory ++
        (part ++ [[]]) := by simp [split]
    have unread : text = (front ++ [operationLine k] ++ op.operandA.lines memory ++ op.operandB.lines memory) ++
        part ++ [[]] := by simp [split]
    simp only [stored.operandA.read wholeA start, stored.operandB.read wholeB behindA]
    rcases op.product.read_cut inProduct unread behindB with failed | ⟨p, next, reads, beyond⟩
    · simp only [failed]
      exact .indexError equal
    · -- numpy compares a product with missing rows, and what follows is behind the end
      simp only [reads]
      cases answer : equal (op.operandA.table memory) (op.operandB.table memory) p with
      | error e => exact Or.inr ⟨e, rfl, fun endless => ⟨_, _, _, endless ▸ answer⟩⟩
      | ok same =>
        cases same with
        | false => exact Or.inl ⟨_, rfl, rfl⟩
        | true =>
          simp only [if_true, checkLoop_past beyond]
          exact .indexError equal

/-- Where a log can be cut: behind a whole operation or inside of one. -/
theorem log_cut (cut : CutShort shown (logLines memory k ops)) :
    (∃ done, done <+: ops ∧ shown = logLines memory k done) ∨
      ∃ done op rest part, ops = done ++ op :: rest ∧ shown = logLines memory k done ++ part ∧ part ≠ [] ∧
        CutShort part (op.lines memory (k + done.length)) := by
  induction ops generalizing k shown with
  | nil =>
    obtain ⟨hidden, nonempty, parts⟩ := cut
    exact absurd (List.append_eq_nil_iff.mp parts.symm).2 nonempty
  | cons op rest ih =>
    rcases cut.append with inside | ⟨later, rfl, behind⟩
    · by_cases nothing : shown = []
      · exact Or.inl ⟨[], List.nil_prefix, nothing⟩
      · exact Or.inr ⟨[], op, rest, shown, rfl, rfl, nothing, by simpa using inside⟩
    · rcases ih behind with ⟨done, begins, rfl⟩ | ⟨done, other, left, part, rfl, rfl, begun, cut⟩
      · exact Or.inl ⟨op :: done, by simpa using begins, rfl⟩
      · refine Or.inr ⟨op :: done, other, left, part, rfl, by simp [logLines], begun, ?_⟩
        have number : k + (op :: done).length = k + 1 + done.length := by simp only [List.length_cons]; omega
        rwa [number]

/-- A text of whole lines that is cut at a line boundary shows the first of its lines. -/
theorem LineCut.shows {cut : List Char} (clean : ∀ line ∈ lines, OneLine line) (cutAt : LineCut (unlines lines) cut) :
    ∃ shown, shown <+: lines ∧ cut = unlines shown := by
  obtain ⟨⟨hidden, whole⟩, ends⟩ := cutAt
  induction lines generalizing cut with
  | nil => exact ⟨[], List.prefix_rfl, (List.append_eq_nil_iff.mp whole).1⟩
  | cons line rest ih =>
    have unbroken : '\n' ∉ line := fun member => nomatch clean line List.mem_cons_self '\n' member
    rw [unlines_cons] at whole
    rcases ends with rfl | ending
    · exact ⟨[], List.nil_prefix, rfl⟩
    · have last := List.mem_of_getLast? ending
      rcases List.append_eq_append_iff.mp whole with ⟨left, inside, -⟩ | ⟨later, rfl, behind⟩
      · exact absurd (inside ▸ List.mem_append_left left last) unbroken
      · cases later with
        | nil => exact absurd (List.append_nil line ▸ last) unbroken
        | cons c later =>
          obtain ⟨rfl, after⟩ := List.cons.inj behind
          have ends : later = [] ∨ later.getLast? = some '\n' := by
            cases later with
            | nil => exact Or.inl rfl
            | cons d later => exact Or.inr (by simpa using ending)
          obtain ⟨shown, begins, rfl⟩ := ih (fun other member => clean other (List.mem_cons_of_mem _ member)) ends
            after.symm
          exact ⟨line :: shown, by simpa using begins, by simp⟩

/-- The products of the operands have entries of 64 bits. -/
theorem MainOperations.fits {n : Int} (main : MainOperations n ops memory) : ∀ op ∈ ops, op.Fits memory := by
  intro op member i j
  obtain ⟨left, right⟩ := main.operands op member
  have stored := (main.stored op member).operandA
  obtain ⟨height, width, -⟩ := main.square op member
  have small : op.operandA.cols.toNat < 2 ^ 31 := by
    have length := stored.length
    have size := stored.size
    have low := stored.cols_pos
    rw [height, width] at length
    rw [width] at low ⊢
    by_contra large
    have square : 2 ^ 31 * 2 ^ 31 ≤ n * n := Int.mul_le_mul (by omega) (by omega) (by decide) (by omega)
    omega
  have bound (x : Fin op.operandA.cols.toNat) :
      -25 ≤ unflatten op.product.rows.toNat op.operandA.cols.toNat (memory op.operandA.data) i x *
        unflatten op.operandA.cols.toNat op.product.cols.toNat (memory op.operandB.data) x j ∧
      unflatten op.product.rows.toNat op.operandA.cols.toNat (memory op.operandA.data) i x *
        unflatten op.operandA.cols.toNat op.product.cols.toNat (memory op.operandB.data) x j ≤ 25 :=
    product_bound (MatrixMemory.cell_initialised left (i * op.operandA.cols.toNat + x : Nat))
      (MatrixMemory.cell_initialised right (x * op.product.cols.toNat + j : Nat))
  have low := Finset.card_nsmul_le_sum Finset.univ _ (-25) fun x _ => (bound x).1
  have high := Finset.sum_le_card_nsmul Finset.univ _ 25 fun x _ => (bound x).2
  rw [Matrix.mul_apply]
  rw [Finset.card_univ, Fintype.card_fin, nsmul_eq_mul] at low high
  constructor <;> omega

/-- What the script makes of the first lines of a log that do not end with an operation. -/
theorem checkLoop_cut {done rest : List Operation} {part : List (List Char)} {correct : Operation → Bool} {fuel : Nat}
    (stored : ∀ other ∈ done ++ op :: rest, other.Stored memory)
    (answers : ∀ other ∈ done ++ op :: rest,
      equal (other.operandA.table memory) (other.operandB.table memory) (other.product.table memory) =
        .ok (correct other))
    (begun : part ≠ []) (cut : CutShort part (op.lines memory (0 + done.length)))
    (enough : (done ++ op :: rest).length < fuel) :
    Rejected equal (checkLoop equal (logLines memory 0 done ++ part ++ [[]]) fuel 0 []) := by
  rw [List.length_append, List.length_cons] at enough
  obtain ⟨left, rfl⟩ : ∃ left, fuel = done.length + (left + 2) := ⟨fuel - done.length - 2, by omega⟩
  have begins : logLines memory 0 done ++ part ++ [[]] = [] ++ logLines memory 0 done ++ (part ++ [[]]) := by simp
  have start : (0 : Int) = ([] : List (List Char)).length := rfl
  obtain ⟨through, stops⟩ := checkLoop_through (left + 2) []
    (fun op member => stored op (List.mem_append_left _ member))
    (fun op member => answers op (List.mem_append_left _ member)) begins start
  cases right : done.all correct with
  | false => exact Or.inl (stops right)
  | true =>
    rw [through right]
    exact (stored op (by simp)).check_cut cut begun rfl (by simp) left _

theorem Rejected.not_success {run : Except PyError CheckResult} (rejected : Rejected equal run) :
    ¬∃ result, run = .ok result ∧ result.code = 0 := by
  rintro ⟨result, rfl, success⟩
  rcases rejected with ⟨same, run, failure⟩ | ⟨e, run, -⟩
  · cases run
    cases success.symm.trans failure
  · cases run

/-- A log that is cut at a line boundary is a success exactly if it ends with an operation and all products in it
are right. Otherwise the script returns 1 or raises, whatever numpy does with a product that misses rows. -/
theorem truncated_log {n : Int} (main : MainOperations n ops memory) {log cut : List Char}
    (written : writeLog ops memory = .ok log) (cutAt : LineCut log cut) (numpy : NumpyProduct equal) {fuel : Nat}
    (enough : ops.length < fuel) :
    ((∃ result, checkAnswers equal fuel (some cut) = .ok result ∧ result.code = 0) ↔
      ∃ done, done <+: ops ∧ writeLog done memory = .ok cut ∧ ∀ op ∈ done, op.IsProduct memory) ∧
    ((¬∃ done, done <+: ops ∧ writeLog done memory = .ok cut ∧ ∀ op ∈ done, op.IsProduct memory) →
      Rejected equal (checkAnswers equal fuel (some cut))) := by
  classical
  have stored := main.stored
  have fits := main.fits
  have whole : writeLog ops memory = .ok (unlines (logLines memory 0 ops)) := logOperations_printed [] stored
  cases whole.symm.trans written
  obtain ⟨shown, begins, rfl⟩ := cutAt.shows (logLines_oneLine memory 0 ops)
  have lines : Py.splitlines (unlines shown) = shown :=
    Py.splitlines_lines fun line member => logLines_oneLine memory 0 ops line (begins.subset member)
  have written {done : List Operation} (first : done <+: ops) :
      writeLog done memory = .ok (unlines (logLines memory 0 done)) :=
    logOperations_printed [] fun op member => stored op (first.subset member)
  have checks {done : List Operation} (first : done <+: ops) :=
    checkAnswers_log (fun op member => stored op (first.subset member)) numpy
      (fun op member => fits op (first.subset member)) (first.length_le.trans_lt enough)
  have outcome :
      (∃ done, done <+: ops ∧ writeLog done memory = .ok (unlines shown) ∧ ∀ op ∈ done, op.IsProduct memory) ∨
      Rejected equal (checkAnswers equal fuel (some (unlines shown))) := by
    have places : (∃ done, done <+: ops ∧ shown = logLines memory 0 done) ∨ _ :=
      (CutShort.of_prefix begins).elim (fun all => Or.inl ⟨ops, List.prefix_rfl, all⟩) log_cut
    rcases places with ⟨done, first, rfl⟩ | ⟨done, op, rest, part, rfl, rfl, begun, short⟩
    · obtain ⟨result, run, success | failure, right⟩ := checks first
      · exact Or.inl ⟨done, first, written first, right.mp success⟩
      · exact Or.inr (Or.inl ⟨result, run, failure⟩)
    · right
      unfold checkAnswers
      dsimp only
      rw [lines]
      exact checkLoop_cut stored (fun op member => numpy.decides (stored op member) (fits op member)) begun short enough
  refine ⟨⟨fun success => outcome.resolve_right fun rejected => rejected.not_success success, ?_⟩, outcome.resolve_left⟩
  rintro ⟨done, first, same, right⟩
  obtain ⟨result, run, -, success⟩ := checks first
  rw [Except.ok.inj ((written first).symm.trans same)] at run
  exact ⟨result, run, success.mpr right⟩

/-- Two operations on numbers, the second with a wrong product. -/
def mainOperations : List Operation := [⟨⟨1, 1, 3⟩, ⟨1, 1, 4⟩, ⟨1, 1, 4⟩⟩, ⟨⟨1, 1, 3⟩, ⟨1, 1, 4⟩, ⟨1, 1, 5⟩⟩]

theorem mainOperations_main : MainOperations 1 mainOperations loggedMemory := by
  have one (block : Nat) (known : block = 3 ∨ block = 4 ∨ block = 5) :
      (⟨1, 1, block⟩ : Matrix).Stored loggedMemory := by
    rcases known with rfl | rfl | rfl <;> exact ⟨by decide, by decide, rfl, by decide, by decide⟩
  refine ⟨fun op member => ?_, by decide, ?_⟩
  · simp only [mainOperations, List.mem_cons, List.not_mem_nil, or_false] at member
    rcases member with rfl | rfl
    · exact ⟨one 3 (by decide), one 4 (by decide), one 4 (by decide), rfl, rfl, rfl⟩
    · exact ⟨one 3 (by decide), one 4 (by decide), one 5 (by decide), rfl, rfl, rfl⟩
  · unfold Initialised
    decide

/-- The log is cut behind the first operation, and the script is content. -/
theorem truncated_log_first :
    ∃ log cut, writeLog mainOperations loggedMemory = .ok log ∧ LineCut log cut ∧ cut ≠ log ∧
      ∃ result, checkAnswers exactEqual 3 (some cut) = .ok result ∧ result.code = 0 := by
  have written : writeLog mainOperations loggedMemory = .ok (unlines (logLines loggedMemory 0 mainOperations)) :=
    logOperations_printed [] mainOperations_main.stored
  have first : writeLog (mainOperations.take 1) loggedMemory =
      .ok (unlines (logLines loggedMemory 0 (mainOperations.take 1))) :=
    logOperations_printed [] fun op member => mainOperations_main.stored op (List.mem_of_mem_take member)
  have cutAt : LineCut (unlines (logLines loggedMemory 0 mainOperations))
      (unlines (logLines loggedMemory 0 (mainOperations.take 1))) := ⟨⟨_, rfl⟩, Or.inr rfl⟩
  have checked := truncated_log mainOperations_main written cutAt exactEqual_numpy (by decide : 2 < 3)
  refine ⟨_, _, written, cutAt, nofun, checked.1.mpr ⟨mainOperations.take 1, List.take_prefix _ _, first, ?_⟩⟩
  unfold Operation.IsProduct
  decide

end PCProject
