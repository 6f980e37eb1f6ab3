import PCProject.MatrixLog
import Mathlib.Data.Matrix.Basic

namespace PCProject

/-- A list of lists of numbers, as the script reads a matrix. -/
abbrev Table := List (List Int)

/-- `read_matrix` from line `i` on, with the line behind the matrix. -/
def readMatrix (text : List (List Char)) (i : Int) : Except PyError (Table × Int) := do
  let line ← Py.index text i
  let i := i + 1
  let shape ← Py.index (line.splitOn '<') 1
  let shape ← Py.index (shape.splitOn '>') 0
  match shape.splitOn ',' with
  | [rows, cols] =>
    let rows ← Py.int rows
    let _ ← Py.int cols
    let matrix ← (Py.slice text i (i + rows)).mapM fun row => (Py.split row).mapM Py.int
    .ok (matrix, i + rows)
  | _ => .error .valueError

/-- The matrices of an operation in the log. -/
structure LoggedOperation where
  a : Table
  b : Table
  p : Table

/-- The exit code and the message of the script, with the line it has come to and, as history, the
operations it has read. -/
structure CheckResult where
  code : Nat
  message : String
  next : Int
  read : List LoggedOperation

/-- The loop of `main` in the script. `equal` is what numpy answers for `(matrix(a) * matrix(b) == p).all()`. -/
def checkLoop (equal : Table → Table → Table → Except PyError Bool) (text : List (List Char)) :
    Nat → Int → List LoggedOperation → Except PyError CheckResult
  | 0, _, _ => .error .endless
  | fuel + 1, i, past => do
    let line ← Py.index text i
    if "Operation".toList.isPrefixOf line then
      let (a, i) ← readMatrix text (i + 1)
      let (b, i) ← readMatrix text i
      let (p, i) ← readMatrix text i
      if ← equal a b p then checkLoop equal text fuel i (past ++ [⟨a, b, p⟩])
      else .ok ⟨1, "ERROR! Multiplication before line " ++ toString i ++ " did not match", i, past ++ [⟨a, b, p⟩]⟩
    else .ok ⟨0, "SUCCESS!", i, past⟩

/-- `main` of the script, given the text of the log file if it is there. -/
def checkAnswers (equal : Table → Table → Table → Except PyError Bool) (fuel : Nat) (log : Option (List Char)) :
    Except PyError CheckResult :=
  match log with
  | none => .ok ⟨1, "ERROR! Please provide valid log file to check", 0, []⟩
  | some text => checkLoop equal (Py.splitlines text ++ [[]]) fuel 0 []

/-- The script without the comparison. -/
def readLog (fuel : Nat) (text : List Char) : Except PyError CheckResult :=
  checkAnswers (fun _ _ _ => .ok true) fuel (some text)

def Operation.logged (memory : MatrixMemory) (op : Operation) : LoggedOperation where
  a := op.operandA.table memory
  b := op.operandB.table memory
  p := op.product.table memory

variable {m : Matrix} {memory : MatrixMemory} {text front rest : List (List Char)} {i : Int}

theorem mapM_ok {α β : Type} {f : β → Except PyError α} {g : α → β} (xs : List α) (reads : ∀ x, f (g x) = .ok x) :
    (xs.map g).mapM f = .ok xs := by
  induction xs with
  | nil => rfl
  | cons x rest ih =>
    rw [List.map_cons, List.mapM_cons, reads, ih]
    rfl

/-- A row is read back. -/
theorem split_rowLine (row : List Int) : (Py.split (rowLine row)).mapM Py.int = .ok row := by
  have words : rowLine row = (row.map Py.decimal).flatMap (· ++ [' ']) := by rw [rowLine, List.flatMap_map]
  rw [words, Py.split_words]
  · exact mapM_ok row Py.int_decimal
  · intro word member
    obtain ⟨value, _, rfl⟩ := List.mem_map.mp member
    exact ⟨Py.decimal_ne_nil value, fun c => Py.decimal_solid⟩

theorem read_rows (rows : Table) :
    (rows.map rowLine).mapM (fun row => (Py.split row).mapM Py.int) = .ok rows := mapM_ok rows split_rowLine

theorem not_mem_decimal {c : Char} (other : c ≠ '-') (letter : c.isDigit = false) (value : Int) :
    c ∉ Py.decimal value := by
  intro member
  rcases Py.decimal_chars member with dash | digit
  · exact other dash
  · cases digit.symm.trans letter

theorem headerLine_chars (rows cols : Int) : headerLine rows cols =
    ['M', 'a', 't', 'r', 'i', 'x', '<'] ++ Py.decimal rows ++ [',', ' '] ++ Py.decimal cols ++ ['>'] := rfl

/-- The header is taken apart. -/
theorem split_headerLine (rows cols : Int) : ∃ shape,
    Py.index ((headerLine rows cols).splitOn '<') 1 = .ok (shape ++ ['>']) ∧
      Py.index ((shape ++ ['>']).splitOn '>') 0 = .ok shape ∧
      shape.splitOn ',' = [Py.decimal rows, ' ' :: Py.decimal cols] := by
  have less : ∀ value, '<' ∉ Py.decimal value := not_mem_decimal (by decide) (by decide)
  have more : ∀ value, '>' ∉ Py.decimal value := not_mem_decimal (by decide) (by decide)
  have comma : ∀ value, ',' ∉ Py.decimal value := not_mem_decimal (by decide) (by decide)
  refine ⟨Py.decimal rows ++ ',' :: ' ' :: Py.decimal cols, ?_, ?_, ?_⟩
  · have parts : headerLine rows cols =
        ['M', 'a', 't', 'r', 'i', 'x'] ++ '<' :: (Py.decimal rows ++ ',' :: ' ' :: Py.decimal cols ++ ['>']) := by
      rw [headerLine_chars]
      simp only [List.append_assoc, List.cons_append, List.nil_append]
    rw [parts, List.splitOn_append_cons_self_of_not_mem (by decide), List.splitOn_eq_singleton]
    · rfl
    · simp [less]
  · rw [List.splitOn_append_cons_self_of_not_mem]
    · rfl
    · simp [more]
  · rw [List.splitOn_append_cons_self_of_not_mem (comma rows), List.splitOn_eq_singleton]
    simp [comma]

theorem Matrix.table_length (m : Matrix) (memory : MatrixMemory) : (m.table memory).length = m.rows.toNat := by
  simp [Matrix.table]

/-- What `MATRIX_print` writes is what `read_matrix` reads. -/
theorem Matrix.Stored.read (stored : m.Stored memory) (split : text = front ++ m.lines memory ++ rest)
    (here : i = front.length) : readMatrix text i = .ok (m.table memory, i + (m.lines memory).length) := by
  have rows_pos := stored.rows_pos
  have height := m.table_length memory
  obtain ⟨shape, inner, outer, sizes⟩ := split_headerLine m.rows m.cols
  have header : Py.index text i = .ok (headerLine m.rows m.cols) := by
    rw [split, here, Matrix.lines, List.append_assoc, List.cons_append]
    exact Py.index_append
  have rows : Py.slice text (i + 1) (i + 1 + m.rows) = (m.table memory).map rowLine := by
    have parts : text = (front ++ [headerLine m.rows m.cols]) ++ (m.table memory).map rowLine ++ rest := by
      simp [split, Matrix.lines]
    rw [parts]
    refine Py.slice_append ?_ ?_
    · simp [here]
    · simp only [List.length_append, List.length_map, List.length_singleton]
      omega
  unfold readMatrix
  simp only [header, inner, outer, sizes, Py.int_decimal, Py.int_blank, rows, read_rows, bind, Except.bind]
  refine congrArg (fun next => Except.ok (m.table memory, next)) ?_
  simp only [Matrix.lines, List.length_cons, List.length_map]
  omega

/-- A text that is one line. -/
def OneLine (line : List Char) : Prop := ∀ c ∈ line, Py.isLineBreak c = false

theorem OneLine.append {left right : List Char} (first : OneLine left) (later : OneLine right) :
    OneLine (left ++ right) := by
  intro c member
  rcases List.mem_append.mp member with before | behind
  · exact first c before
  · exact later c behind

theorem OneLine.literal {line : List Char} (checked : line.all (fun c => !Py.isLineBreak c) = true) : OneLine line := by
  intro c member
  simpa using List.all_eq_true.mp checked c member

theorem OneLine.decimal (value : Int) : OneLine (Py.decimal value) :=
  fun _ member => Py.isLineBreak_of_isSpace (Py.decimal_solid member)

theorem OneLine.header (rows cols : Int) : OneLine (headerLine rows cols) := by
  have label : OneLine ['M', 'a', 't', 'r', 'i', 'x', '<'] := .literal rfl
  have separator : OneLine [',', ' '] := .literal rfl
  have ending : OneLine ['>'] := .literal rfl
  rw [headerLine_chars]
  exact (((label.append (.decimal rows)).append separator).append (.decimal cols)).append ending

theorem operationLine_chars (i : Int) : operationLine i =
    ['O', 'p', 'e', 'r', 'a', 't', 'i', 'o', 'n', ' '] ++ Py.decimal i ++ [':'] := rfl

theorem OneLine.operation (i : Int) : OneLine (operationLine i) := by
  have label : OneLine ['O', 'p', 'e', 'r', 'a', 't', 'i', 'o', 'n', ' '] := .literal rfl
  have ending : OneLine [':'] := .literal rfl
  rw [operationLine_chars]
  exact (label.append (.decimal i)).append ending

theorem OneLine.row (row : List Int) : OneLine (rowLine row) := by
  intro c member
  obtain ⟨value, _, inside⟩ := List.mem_flatMap.mp member
  have blank : OneLine [' '] := .literal rfl
  exact (OneLine.decimal value).append blank c inside

theorem Matrix.oneLine (m : Matrix) (memory : MatrixMemory) : ∀ line ∈ m.lines memory, OneLine line := by
  intro line member
  rcases List.mem_cons.mp member with rfl | inside
  · exact .header m.rows m.cols
  · obtain ⟨row, _, rfl⟩ := List.mem_map.mp inside
    exact .row row

theorem logLines_oneLine (memory : MatrixMemory) (i : Int) (ops : List Operation) :
    ∀ line ∈ logLines memory i ops, OneLine line := by
  induction ops generalizing i with
  | nil => nofun
  | cons op rest ih =>
    intro line member
    simp only [logLines, Operation.lines, List.mem_append, List.mem_cons] at member
    rcases member with (((rfl | inA) | inB) | inP) | later
    · exact .operation i
    · exact op.operandA.oneLine memory line inA
    · exact op.operandB.oneLine memory line inB
    · exact op.product.oneLine memory line inP
    · exact ih (i + 1) line later

/-- The text that main writes has the lines of the log. -/
theorem splitlines_log (memory : MatrixMemory) (i : Int) (ops : List Operation) :
    Py.splitlines (unlines (logLines memory i ops)) = logLines memory i ops :=
  Py.splitlines_lines (logLines_oneLine memory i ops)

/-- One round of the loop reads one operation. -/
theorem checkLoop_operation {equal : Table → Table → Table → Except PyError Bool} {op : Operation} {k : Int}
    {fuel : Nat} {same : Bool}
    {past : List LoggedOperation} (stored : op.Stored memory) (split : text = front ++ op.lines memory k ++ rest)
    (here : i = front.length)
    (answer : equal (op.operandA.table memory) (op.operandB.table memory) (op.product.table memory) = .ok same) :
    checkLoop equal text (fuel + 1) i past =
      if same then checkLoop equal text fuel (i + (op.lines memory k).length) (past ++ [op.logged memory])
      else .ok ⟨1, "ERROR! Multiplication before line " ++ toString (i + (op.lines memory k).length) ++
        " did not match", i + (op.lines memory k).length, past ++ [op.logged memory]⟩ := by
  have length : ((op.lines memory k).length : Int) = 1 + (op.operandA.lines memory).length +
      (op.operandB.lines memory).length + (op.product.lines memory).length := by
    simp only [Operation.lines, List.length_append, List.length_cons]
    omega
  have line : Py.index text i = .ok (operationLine k) := by
    rw [split, here, Operation.lines, List.append_assoc, List.cons_append, List.cons_append, List.cons_append]
    exact Py.index_append
  have begins : "Operation".toList.isPrefixOf (operationLine k) = true := rfl
  have partA : text = (front ++ [operationLine k]) ++ op.operandA.lines memory ++
      (op.operandB.lines memory ++ op.product.lines memory ++ rest) := by
    simp [split, Operation.lines]
  have partB : text = (front ++ [operationLine k] ++ op.operandA.lines memory) ++ op.operandB.lines memory ++
      (op.product.lines memory ++ rest) := by
    simp [split, Operation.lines]
  have partP : text = (front ++ [operationLine k] ++ op.operandA.lines memory ++ op.operandB.lines memory) ++
      op.product.lines memory ++ rest := by
    simp [split, Operation.lines]
  have readA := stored.operandA.read partA (i := i + 1) (by simp [here])
  have readB := stored.operandB.read partB (i := i + 1 + (op.operandA.lines memory).length) (by simp [here]; omega)
  have readP := stored.product.read partP (i := i + 1 + (op.operandA.lines memory).length +
    (op.operandB.lines memory).length)
    (by simp [here]; omega)
  have behind : i + 1 + (op.operandA.lines memory).length + (op.operandB.lines memory).length +
      (op.product.lines memory).length = i + (op.lines memory k).length := by omega
  rw [behind] at readP
  rw [checkLoop]
  simp only [line, begins, readA, readB, readP, answer, bind, Except.bind, if_true]
  rfl

/-- At the sentinel behind the last line the loop ends. -/
theorem checkLoop_sentinel {equal : Table → Table → Table → Except PyError Bool} {fuel : Nat}
    {past : List LoggedOperation}
    (here : i = front.length) : checkLoop equal (front ++ [[]]) (fuel + 1) i past = .ok ⟨0, "SUCCESS!", i, past⟩ := by
  have line : Py.index (front ++ [[]]) i = .ok [] := by
    rw [here]
    exact Py.index_append
  have foreign : "Operation".toList.isPrefixOf [] = false := rfl
  unfold checkLoop
  simp only [line, foreign, bind, Except.bind, Bool.false_eq_true, if_false]

/-- The loop reads operations as long as their products match. -/
theorem checkLoop_through {equal : Table → Table → Table → Except PyError Bool} {correct : Operation → Bool}
    {ops : List Operation} {k : Int} (fuel : Nat) (past : List LoggedOperation)
    (stored : ∀ op ∈ ops, op.Stored memory)
    (answers : ∀ op ∈ ops, equal (op.operandA.table memory) (op.operandB.table memory) (op.product.table memory) =
      .ok (correct op))
    (split : text = front ++ logLines memory k ops ++ rest) (here : i = front.length) :
    (ops.all correct = true → checkLoop equal text (ops.length + fuel) i past =
      checkLoop equal text fuel (i + (logLines memory k ops).length) (past ++ ops.map (Operation.logged memory))) ∧
    (ops.all correct = false →
      ∃ result, checkLoop equal text (ops.length + fuel) i past = .ok result ∧ result.code = 1) := by
  induction ops generalizing front i k past with
  | nil => exact ⟨fun _ => by simp [logLines], fun broken => by cases broken⟩
  | cons op later ih =>
    have first : text = front ++ op.lines memory k ++ (logLines memory (k + 1) later ++ rest) := by
      simp [split, logLines]
    have onward : text = (front ++ op.lines memory k) ++ logLines memory (k + 1) later ++ rest := by
      simp [split, logLines]
    have next : i + (op.lines memory k).length = ((front ++ op.lines memory k).length : Nat) := by simp [here]
    have length : (op :: later).length + fuel = (later.length + fuel) + 1 := by simp only [List.length_cons]; omega
    rw [length, checkLoop_operation (stored op List.mem_cons_self) first here (answers op List.mem_cons_self)]
    cases same : correct op with
    | false =>
      rw [if_neg Bool.false_ne_true]
      exact ⟨fun all => by simp [same] at all, fun _ => ⟨_, rfl, rfl⟩⟩
    | true =>
      obtain ⟨through, stops⟩ := ih (past ++ [op.logged memory])
        (fun other member => stored other (List.mem_cons_of_mem _ member))
        (fun other member => answers other (List.mem_cons_of_mem _ member)) onward next
      rw [if_pos rfl]
      refine ⟨fun all => ?_, fun broken => stops (by simpa [same] using broken)⟩
      rw [through (by simpa [same] using all)]
      simp only [logLines, List.length_append, List.append_assoc, List.map_cons, List.singleton_append, Nat.cast_add,
        Int.add_assoc]

/-- The loop reads all operations, up to the first one that does not match. -/
theorem checkLoop_log (equal : Table → Table → Table → Except PyError Bool) (correct : Operation → Bool)
    {ops : List Operation}
    {fuel : Nat} (stored : ∀ op ∈ ops, op.Stored memory)
    (answers : ∀ op ∈ ops, equal (op.operandA.table memory) (op.operandB.table memory) (op.product.table memory) =
      .ok (correct op)) (enough : ops.length < fuel) :
    ∃ result, checkLoop equal (logLines memory 0 ops ++ [[]]) fuel 0 [] = .ok result ∧
      (ops.all correct = true →
        result = ⟨0, "SUCCESS!", (logLines memory 0 ops).length, ops.map (Operation.logged memory)⟩) ∧
      (ops.all correct = false → result.code = 1) := by
  obtain ⟨left, rfl⟩ : ∃ left, fuel = ops.length + (left + 1) := ⟨fuel - ops.length - 1, by omega⟩
  have begins : logLines memory 0 ops ++ [[]] = [] ++ logLines memory 0 ops ++ [[]] := rfl
  obtain ⟨through, stops⟩ := checkLoop_through (left + 1) [] stored answers begins rfl
  cases right : ops.all correct with
  | false =>
    obtain ⟨result, run, code⟩ := stops right
    exact ⟨result, run, nofun, fun _ => code⟩
  | true =>
    refine ⟨_, (through right).trans (checkLoop_sentinel (by simp)), fun _ => ?_, nofun⟩
    simp

/-- A value of a `long long int`. -/
def LongLong (value : Int) : Prop := -2 ^ 63 ≤ value ∧ value < 2 ^ 63

/-- A table with rows of one length, of 64-bit integers. -/
structure Table.Shaped (rows cols : Nat) (t : Table) : Prop where
  height : t.length = rows
  width : ∀ row ∈ t, row.length = cols
  cells : ∀ row ∈ t, ∀ value ∈ row, LongLong value

/-- What numpy answers when the shapes fit and the product does not overflow. -/
def NumpyProduct (equal : Table → Table → Table → Except PyError Bool) : Prop :=
  ∀ (rows inner cols : Nat) (a b p : Table), 0 < rows → 0 < inner → 0 < cols → a.Shaped rows inner →
    b.Shaped inner cols →
    p.Shaped rows cols → (∀ i j, LongLong ((ofRows rows inner a * ofRows inner cols b) i j)) →
    ∃ same, equal a b p = .ok same ∧ (same = true ↔ ofRows rows inner a * ofRows inner cols b = ofRows rows cols p)

theorem Matrix.table_eq (m : Matrix) (memory : MatrixMemory) (cols_pos : 1 ≤ m.cols) :
    m.table memory = rowsOf m.rows.toNat m.cols.toNat (memory m.data) := by
  simp only [Matrix.table, rowsOf, MatrixMemory.cell, flat_toNat (by omega : 0 < m.cols)]

theorem Matrix.Stored.shaped (stored : m.Stored memory) : Table.Shaped m.rows.toNat m.cols.toNat (m.table memory) where
  height := m.table_length memory
  width row member := by
    obtain ⟨i, _, rfl⟩ := List.mem_map.mp member
    simp
  cells row member value inside := by
    obtain ⟨i, _, rfl⟩ := List.mem_map.mp member
    obtain ⟨j, _, rfl⟩ := List.mem_map.mp inside
    unfold MatrixMemory.cell
    rw [List.getD_eq_getElem?_getD]
    cases found : (memory m.data)[((i : Int) * m.cols + j).toNat]? with
    | none =>
      constructor <;> simp
    | some value => exact stored.cells value (List.mem_of_getElem? found)

/-- The product that is stored is the product of the operands. -/
def Operation.IsProduct (memory : MatrixMemory) (op : Operation) : Prop :=
  unflatten op.product.rows.toNat op.product.cols.toNat (memory op.product.data) =
    unflatten op.product.rows.toNat op.operandA.cols.toNat (memory op.operandA.data) *
      unflatten op.operandA.cols.toNat op.product.cols.toNat (memory op.operandB.data)

/-- The exact product has entries of 64 bits. -/
def Operation.Fits (memory : MatrixMemory) (op : Operation) : Prop :=
  ∀ i j, LongLong ((unflatten op.product.rows.toNat op.operandA.cols.toNat (memory op.operandA.data) *
    unflatten op.operandA.cols.toNat op.product.cols.toNat (memory op.operandB.data)) i j)

/-- numpy tells whether the stored product is right. -/
theorem NumpyProduct.answers {equal : Table → Table → Table → Except PyError Bool} {op : Operation}
    (numpy : NumpyProduct equal)
    (stored : op.Stored memory) (fits : op.Fits memory) :
    ∃ same, equal (op.operandA.table memory) (op.operandB.table memory) (op.product.table memory) = .ok same ∧
      (same = true ↔ op.IsProduct memory) := by
  have rows_pos := stored.product.rows_pos
  have inner_pos := stored.operandA.cols_pos
  have cols_pos := stored.product.cols_pos
  have a := stored.operandA.shaped
  have b := stored.operandB.shaped
  have tableA := op.operandA.table_eq memory inner_pos
  have tableB := op.operandB.table_eq memory stored.operandB.cols_pos
  have tableP := op.product.table_eq memory cols_pos
  rw [stored.rows] at a tableA
  rw [stored.cols, ← stored.inner] at b tableB
  have readA := ofRows_rowsOf op.product.rows.toNat op.operandA.cols.toNat (memory op.operandA.data)
  have readB := ofRows_rowsOf op.operandA.cols.toNat op.product.cols.toNat (memory op.operandB.data)
  have readP := ofRows_rowsOf op.product.rows.toNat op.product.cols.toNat (memory op.product.data)
  rw [← tableA] at readA
  rw [← tableB] at readB
  rw [← tableP] at readP
  obtain ⟨same, answer, correct⟩ := numpy op.product.rows.toNat op.operandA.cols.toNat op.product.cols.toNat _ _ _
    (by omega) (by omega) (by omega) a b stored.product.shaped (by rw [readA, readB]; exact fits)
  refine ⟨same, answer, correct.trans ?_⟩
  rw [readA, readB, readP]
  exact eq_comm

open scoped Classical in
/-- So its answer is whether the stored product is right. -/
theorem NumpyProduct.decides {equal : Table → Table → Table → Except PyError Bool} {op : Operation}
    (numpy : NumpyProduct equal) (stored : op.Stored memory) (fits : op.Fits memory) :
    equal (op.operandA.table memory) (op.operandB.table memory) (op.product.table memory) =
      .ok (decide (op.IsProduct memory)) := by
  obtain ⟨same, answer, right⟩ := numpy.answers stored fits
  rw [answer, Bool.eq_iff_iff.mpr (right.trans decide_eq_true_iff.symm)]

/-- A whole log is a success exactly when all products are right. -/
theorem checkAnswers_log {equal : Table → Table → Table → Except PyError Bool} {ops : List Operation} {fuel : Nat}
    (stored : ∀ op ∈ ops, op.Stored memory) (numpy : NumpyProduct equal) (fits : ∀ op ∈ ops, op.Fits memory)
    (enough : ops.length < fuel) :
    ∃ result, checkAnswers equal fuel (some (unlines (logLines memory 0 ops))) = .ok result ∧
      (result.code = 0 ∨ result.code = 1) ∧ (result.code = 0 ↔ ∀ op ∈ ops, op.IsProduct memory) := by
  classical
  have answers : ∀ op ∈ ops, equal (op.operandA.table memory) (op.operandB.table memory) (op.product.table memory) =
      .ok (decide (op.IsProduct memory)) := fun op member => numpy.decides (stored op member) (fits op member)
  obtain ⟨result, run, all, some_⟩ := checkLoop_log equal (fun op => decide (op.IsProduct memory)) stored answers enough
  unfold checkAnswers
  dsimp only
  rw [splitlines_log]
  refine ⟨result, run, ?_⟩
  cases right : ops.all fun op => decide (op.IsProduct memory) with
  | true =>
    rw [all right]
    exact ⟨Or.inl rfl, fun _ => by simpa using right, fun _ => rfl⟩
  | false =>
    have code := some_ right
    rw [code]
    refine ⟨Or.inr rfl, nofun, fun every => ?_⟩
    have whole : (ops.all fun op => decide (op.IsProduct memory)) = true := by simpa using every
    cases right.symm.trans whole

/-- The script reads the operations that main has logged, line by line to the last, and ends
with 0 exactly when all products are right. -/
theorem log_round_trip {ops : List Operation} (stored : ∀ op ∈ ops, op.Stored memory) :
    ∃ log, writeLog ops memory = .ok log ∧ ∀ fuel, ops.length < fuel →
      readLog fuel log = .ok ⟨0, "SUCCESS!", (Py.splitlines log).length, ops.map (Operation.logged memory)⟩ ∧
      ∀ equal, NumpyProduct equal → (∀ op ∈ ops, op.Fits memory) →
        ∃ result, checkAnswers equal fuel (some log) = .ok result ∧ (result.code = 0 ∨ result.code = 1) ∧
          (result.code = 0 ↔ ∀ op ∈ ops, op.IsProduct memory) := by
  refine ⟨unlines (logLines memory 0 ops), logOperations_printed [] stored,
    fun fuel enough => ⟨?_, fun equal numpy fits => checkAnswers_log stored numpy fits enough⟩⟩
  obtain ⟨result, run, all, _⟩ := checkLoop_log (fun _ _ _ => .ok true) (fun _ => true) stored (fun _ _ => rfl) enough
  unfold readLog checkAnswers
  dsimp only
  rw [splitlines_log, run, all (by simp)]

/-- numpy without its bound: the exact product of the tables. -/
def exactEqual (a b p : Table) : Except PyError Bool :=
  .ok (decide (ofRows a.length b.length a * ofRows b.length (b.headD []).length b =
    ofRows a.length (b.headD []).length p))

theorem exactEqual_numpy : NumpyProduct exactEqual := by
  intro rows inner cols a b p _ some_ _ left right _ _
  obtain ⟨rfl, _, _⟩ := left
  obtain ⟨rfl, width, _⟩ := right
  have head : (b.headD []).length = cols := by
    cases b with
    | nil => cases some_
    | cons row rest => exact width row List.mem_cons_self
  subst head
  exact ⟨_, rfl, decide_eq_true_iff⟩

/-- One operation on small matrices, and one whose product is wrong. -/
def loggedMemory : MatrixMemory := fun block => [[1, -2], [3, 4], [-5], [1], [1], [2]].getD block []

def loggedOperations : List Operation :=
  [⟨⟨1, 2, 0⟩, ⟨2, 1, 1⟩, ⟨1, 1, 2⟩⟩, ⟨⟨1, 1, 3⟩, ⟨1, 1, 4⟩, ⟨1, 1, 5⟩⟩]

theorem loggedOperations_stored : ∀ op ∈ loggedOperations, op.Stored loggedMemory := by
  intro op member
  simp only [loggedOperations, List.mem_cons, List.not_mem_nil, or_false] at member
  rcases member with rfl | rfl
  · exact ⟨⟨by decide, by decide, rfl, by decide, by decide⟩, ⟨by decide, by decide, rfl, by decide, by decide⟩,
      ⟨by decide, by decide, rfl, by decide, by decide⟩, rfl, rfl, rfl⟩
  · exact ⟨⟨by decide, by decide, rfl, by decide, by decide⟩, ⟨by decide, by decide, rfl, by decide, by decide⟩,
      ⟨by decide, by decide, rfl, by decide, by decide⟩, rfl, rfl, rfl⟩

theorem loggedOperations_fit : ∀ op ∈ loggedOperations, op.Fits loggedMemory := by
  unfold Operation.Fits LongLong
  decide

theorem log_round_trip_two : ∃ log, writeLog loggedOperations loggedMemory = .ok log ∧
    readLog 3 log = .ok ⟨0, "SUCCESS!", (Py.splitlines log).length,
      loggedOperations.map (Operation.logged loggedMemory)⟩ ∧
    ∃ result, checkAnswers exactEqual 3 (some log) = .ok result ∧
      (result.code = 0 ↔ ∀ op ∈ loggedOperations, op.IsProduct loggedMemory) := by
  obtain ⟨log, written, reads⟩ := log_round_trip loggedOperations_stored
  obtain ⟨back, checks⟩ := reads 3 (by decide)
  obtain ⟨result, run, _, right⟩ := checks exactEqual exactEqual_numpy loggedOperations_fit
  exact ⟨log, written, back, result, run, right⟩

end PCProject
