import Mathlib.Data.Int.Notation
import Mathlib.Data.List.DropRight
import Mathlib.Tactic.Common

namespace PCProject

/-- The errors that end a script. `endless` stands for a loop that has not come to its end. -/
inductive PyError
  | indexError
  | valueError
  | attributeError
  | endless

namespace Py

/-- `str.isspace` for one character. -/
def isSpace (c : Char) : Bool :=
  [0x9, 0xA, 0xB, 0xC, 0xD, 0x1C, 0x1D, 0x1E, 0x1F, 0x20, 0x85, 0xA0, 0x1680, 0x2000, 0x2001, 0x2002, 0x2003,
    0x2004, 0x2005, 0x2006, 0x2007, 0x2008, 0x2009, 0x200A, 0x2028, 0x2029, 0x202F, 0x205F, 0x3000].contains c.toNat

/-- The characters at which `str.splitlines` ends a line. -/
def isLineBreak (c : Char) : Bool := [0xA, 0xB, 0xC, 0xD, 0x1C, 0x1D, 0x1E, 0x85, 0x2028, 0x2029].contains c.toNat

/-- `str.splitlines` behind the beginning of a line. -/
def splitlinesFrom (line : List Char) : List Char → List (List Char)
  | [] => if line.isEmpty then [] else [line]
  | '\r' :: '\n' :: rest => line :: splitlinesFrom [] rest
  | c :: rest => if isLineBreak c then line :: splitlinesFrom [] rest else splitlinesFrom (line ++ [c]) rest

def splitlines (text : List Char) : List (List Char) := splitlinesFrom [] text

/-- `str.split` without a separator, behind the beginning of a word. -/
def splitFrom (word : List Char) : List Char → List (List Char)
  | [] => if word.isEmpty then [] else [word]
  | c :: rest =>
    if isSpace c then if word.isEmpty then splitFrom [] rest else word :: splitFrom [] rest
    else splitFrom (word ++ [c]) rest

def split (text : List Char) : List (List Char) := splitFrom [] text

def strip (text : List Char) : List Char := (text.dropWhile isSpace).rdropWhile isSpace

/-- Digits in groups with an underscore between them. -/
def digits (text : List Char) : Except PyError Nat :=
  let groups := text.splitOn '_'
  if groups.all fun group => !group.isEmpty && group.all Char.isDigit then .ok (Nat.ofDigitChars 10 groups.flatten 0)
  else .error .valueError

/-- `int` of a text with the digits 0 to 9. -/
def int (text : List Char) : Except PyError Int :=
  match strip text with
  | '-' :: rest => do
    let value ← digits rest
    return -value
  | '+' :: rest => do
    let value ← digits rest
    return value
  | rest => do
    let value ← digits rest
    return value

/-- A number in decimal, as `%ld` prints it. -/
def decimal (value : Int) : List Char :=
  if value < 0 then '-' :: Nat.toDigits 10 value.natAbs else Nat.toDigits 10 value.natAbs

variable {α : Type}

/-- The position that an index of a list means; a negative one counts from the end. -/
def position (xs : List α) (i : Int) : Int := if i < 0 then i + xs.length else i

/-- `xs[i]`. -/
def index (xs : List α) (i : Int) : Except PyError α :=
  if position xs i < 0 then .error .indexError
  else match xs[(position xs i).toNat]? with
  | some x => .ok x
  | none => .error .indexError

/-- `xs[i:j]`. -/
def slice (xs : List α) (i j : Int) : List α := (xs.take (position xs j).toNat).drop (position xs i).toNat

theorem index_append {xs rest : List α} {x : α} : index (xs ++ x :: rest) xs.length = .ok x := by
  have start : ¬(xs.length : Int) < 0 := by omega
  simp [index, position, start]

theorem slice_append {front xs rest : List α} {i j : Int} (start : i = front.length)
    (stop : j = front.length + xs.length) :
    slice (front ++ xs ++ rest) i j = xs := by
  subst start stop
  have here : ¬(front.length : Int) < 0 := by omega
  have there : ¬(front.length : Int) + xs.length < 0 := by omega
  simp only [slice, position, here, there, if_false]
  rw [← Int.natCast_add, Int.toNat_natCast, Int.toNat_natCast, ← List.length_append, List.take_left, List.drop_left]

theorem index_past {xs : List α} {i : Int} (past : xs.length ≤ i) : index xs i = .error .indexError := by
  have start : ¬i < 0 := by omega
  have nothing : xs[i.toNat]? = none := List.getElem?_eq_none (by omega)
  simp only [index, position, start, nothing, if_false]

/-- A slice that reaches beyond the list ends with it. -/
theorem slice_past {front xs : List α} {i j : Int} (start : i = front.length) (stop : front.length + xs.length ≤ j) :
    slice (front ++ xs) i j = xs := by
  subst start
  have here : ¬(front.length : Int) < 0 := by omega
  have there : ¬j < 0 := by omega
  have whole : (front ++ xs).length ≤ j.toNat := by
    rw [List.length_append]
    omega
  simp only [slice, position, here, there, if_false]
  rw [Int.toNat_natCast, List.take_of_length_le whole, List.drop_left]

theorem isSpace_of_isDigit {c : Char} (digit : c.isDigit = true) : isSpace c = false := by
  obtain ⟨low, high⟩ : 48 ≤ c.toNat ∧ c.toNat ≤ 57 := Char.isDigit_iff_toNat.mp digit
  simp only [isSpace, List.contains_eq_mem, decide_eq_false_iff_not, List.mem_cons, List.not_mem_nil, or_false]
  omega

theorem isLineBreak_of_isSpace {c : Char} (solid : isSpace c = false) : isLineBreak c = false := by
  simp only [isSpace, isLineBreak, List.contains_eq_mem, decide_eq_false_iff_not, List.mem_cons, List.not_mem_nil,
    or_false] at solid ⊢
  omega

theorem decimal_chars {value : Int} {c : Char} (member : c ∈ decimal value) : c = '-' ∨ c.isDigit = true := by
  have digits : c ∈ Nat.toDigits 10 value.natAbs → c.isDigit = true :=
    Nat.isDigit_of_mem_toDigits (by decide) (by decide)
  unfold decimal at member
  split at member
  · exact (List.mem_cons.mp member).imp_right digits
  · exact Or.inr (digits member)

/-- A line without line breaks in it, and its end. -/
theorem splitlinesFrom_line {line rest word : List Char} (clean : ∀ c ∈ line, isLineBreak c = false) :
    splitlinesFrom word (line ++ '\n' :: rest) = (word ++ line) :: splitlinesFrom [] rest := by
  induction line generalizing word with
  | nil =>
    rw [List.nil_append, List.append_nil, splitlinesFrom]
    · rfl
    · intro rest return_
      cases return_
  | cons c line ih =>
    have inside : isLineBreak c = false := clean c List.mem_cons_self
    rw [List.cons_append, splitlinesFrom, if_neg (by simp [inside]),
      ih fun d member => clean d (List.mem_cons_of_mem _ member),
      List.append_assoc, List.singleton_append]
    intro rest return_
    rw [return_] at inside
    cases inside

theorem splitlines_lines {lines : List (List Char)} (clean : ∀ line ∈ lines, ∀ c ∈ line, isLineBreak c = false) :
    splitlines (lines.flatMap (· ++ ['\n'])) = lines := by
  unfold splitlines
  induction lines with
  | nil => rfl
  | cons line rest ih =>
    rw [List.flatMap_cons, List.append_assoc, List.singleton_append,
      splitlinesFrom_line (clean line List.mem_cons_self), ih fun other member =>
      clean other (List.mem_cons_of_mem _ member)]
    rfl

/-- A word and the blank behind it. -/
theorem splitFrom_word {word rest before : List Char} (clean : ∀ c ∈ word, isSpace c = false)
    (nonempty : before ≠ [] ∨ word ≠ []) :
    splitFrom before (word ++ ' ' :: rest) = (before ++ word) :: splitFrom [] rest := by
  induction word generalizing before with
  | nil =>
    have started : before.isEmpty = false := by simpa using nonempty
    rw [List.nil_append, List.append_nil, splitFrom, if_pos (by decide), started]
    rfl
  | cons c word ih =>
    have solid : isSpace c = false := clean c List.mem_cons_self
    rw [List.cons_append, splitFrom, if_neg (by simp [solid]),
      ih (fun d member => clean d (List.mem_cons_of_mem _ member)) (Or.inl (by simp)), List.append_assoc,
      List.singleton_append]

theorem split_words {words : List (List Char)} (clean : ∀ word ∈ words, word ≠ [] ∧ ∀ c ∈ word, isSpace c = false) :
    split (words.flatMap (· ++ [' '])) = words := by
  unfold split
  induction words with
  | nil => rfl
  | cons word rest ih =>
    obtain ⟨nonempty, solid⟩ := clean word List.mem_cons_self
    rw [List.flatMap_cons, List.append_assoc, List.singleton_append, splitFrom_word solid (Or.inr nonempty),
      ih fun other member => clean other (List.mem_cons_of_mem _ member)]
    rfl

theorem strip_solid {text : List Char} (solid : ∀ c ∈ text, isSpace c = false) : strip text = text := by
  have first : text.dropWhile isSpace = text := by
    refine List.dropWhile_eq_self_iff.mpr fun nonempty => ?_
    rw [solid _ (List.getElem_mem nonempty)]
    nofun
  have last : text.rdropWhile isSpace = text := by
    refine List.rdropWhile_eq_self_iff.mpr fun nonempty => ?_
    rw [solid _ (List.getLast_mem nonempty)]
    nofun
  rw [strip, first, last]

theorem int_blank (text : List Char) : int (' ' :: text) = int text := rfl

theorem digits_toDigits (n : Nat) : digits (Nat.toDigits 10 n) = .ok n := by
  have nonempty : (Nat.toDigits 10 n).isEmpty = false := by simp
  have allDigits : (Nat.toDigits 10 n).all Char.isDigit = true :=
    List.all_eq_true.mpr fun c => Nat.isDigit_of_mem_toDigits (by decide) (by decide)
  unfold digits
  rw [List.splitOn_eq_singleton Nat.underscore_not_in_toDigits]
  simp only [List.all_cons, List.all_nil, nonempty, allDigits, List.flatten_cons, List.flatten_nil, List.append_nil]
  rw [Nat.ofDigitChars_toDigits (by decide) (by decide)]
  rfl

theorem decimal_solid {value : Int} {c : Char} (member : c ∈ decimal value) : isSpace c = false := by
  rcases decimal_chars member with rfl | digit
  · rfl
  · exact isSpace_of_isDigit digit

theorem decimal_ne_nil (value : Int) : decimal value ≠ [] := by
  unfold decimal
  split
  · exact List.cons_ne_nil _ _
  · exact Nat.toDigits_ne_nil

/-- What `%ld` prints is read back. -/
theorem int_decimal (value : Int) : int (decimal value) = .ok value := by
  unfold int
  rw [strip_solid fun c => decimal_solid]
  by_cases negative : value < 0
  · rw [decimal, if_pos negative]
    simp only [digits_toDigits, bind, Except.bind, pure, Except.pure]
    exact congrArg _ (by omega)
  · rw [decimal, if_neg negative]
    have plain : ∀ rest c, Nat.toDigits 10 value.natAbs = c :: rest → c.isDigit = true := fun rest c same =>
      Nat.isDigit_of_mem_toDigits (by decide) (by decide) (same ▸ List.mem_cons_self)
    split
    · rename_i rest same
      cases plain rest _ same
    · rename_i rest same
      cases plain rest _ same
    · simp only [digits_toDigits, bind, Except.bind, pure, Except.pure]
      exact congrArg _ (by omega)

example : split "1  -2 ".toList = ["1".toList, "-2".toList] := by decide

end Py
end PCProject
