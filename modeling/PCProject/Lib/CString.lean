import Mathlib.Algebra.Group.Int.Defs
import Mathlib.Algebra.Group.Nat.Defs
import Mathlib.Data.Int.Notation
import Mathlib.Data.List.TakeWhile
import Mathlib.Tactic.Common

namespace PCProject

abbrev Bytes := List UInt8

/-- The bytes of an ASCII literal, without the terminating NUL. -/
def ascii (text : String) : Bytes := text.toList.map fun c => c.toNat.toUInt8

/-- Memory after a call has written some bytes to its start. -/
def overwrite (memory bytes : Bytes) : Bytes := bytes ++ memory.drop bytes.length

def isSpace (b : UInt8) : Bool := b == 32 || (9 ≤ b && b ≤ 13)

def isDigit (b : UInt8) : Bool := 48 ≤ b && b ≤ 57

/-- The number that a run of decimal digits adds to the digits read before it. It is `none`
where the memory ends before a byte that is not a digit. -/
def readDigits : Bytes → Nat → Option Nat
  | [], _ => none
  | b :: rest, value => if isDigit b then readDigits rest (value * 10 + (b.toNat - 48)) else some value

/-- `strtol` with base 10: blanks, one optional sign, digits, and saturation at 64 bits. -/
def strtol (memory : Bytes) : Option Int :=
  match memory.dropWhile isSpace with
  | [] => none
  | b :: rest =>
    if b = 45 then (readDigits rest 0).map fun value => max (-2 ^ 63) (-(value : Int))
    else if b = 43 then (readDigits rest 0).map fun value => min (2 ^ 63 - 1) (value : Int)
    else (readDigits (b :: rest) 0).map fun value => min (2 ^ 63 - 1) (value : Int)

/-- `atoi` is `strtol` cut down to 32 bits. -/
def atoi (memory : Bytes) : Option Int := (strtol memory).map fun value => value.bmod (2 ^ 32)

/-- What follows the blanks and the sign. -/
def numeral (memory : Bytes) : Bytes :=
  match memory.dropWhile isSpace with
  | [] => []
  | b :: rest => if b = 45 ∨ b = 43 then rest else b :: rest

/-- The number at the start of some memory ends there, before a byte that is not a digit. -/
def endsNumber (memory : Bytes) : Bool := (numeral memory).any fun b => !isDigit b

theorem readDigits_isSome (memory : Bytes) (value : Nat) :
    (readDigits memory value).isSome = memory.any fun b => !isDigit b := by
  induction memory generalizing value with
  | nil => rfl
  | cons b rest ih =>
    rw [readDigits, List.any_cons]
    cases isDigit b with
    | true => exact (ih _).trans (Bool.false_or _).symm
    | false => rfl

theorem readDigits_append {memory : Bytes} {value : Nat} (ends : (memory.any fun b => !isDigit b) = true)
    (tail : Bytes) : readDigits (memory ++ tail) value = readDigits memory value := by
  induction memory generalizing value with
  | nil => cases ends
  | cons b rest ih =>
    rw [List.cons_append, readDigits, readDigits]
    rw [List.any_cons] at ends
    cases digit : isDigit b with
    | true =>
      rw [digit] at ends
      exact ih ends
    | false => rfl

/-- `atoi` stays inside some memory exactly if the number ends there. -/
theorem atoi_isSome (memory : Bytes) : (atoi memory).isSome = endsNumber memory := by
  have digits (f : Int → Int) (rest : Bytes) :
      (Option.map f (do let value ← readDigits rest 0; pure (value : Int))).isSome = rest.any fun b => !isDigit b := by
    rw [← readDigits_isSome rest 0]
    cases readDigits rest 0 <;> rfl
  rw [atoi, Option.isSome_map, strtol, endsNumber, numeral]
  split
  · rfl
  · rename_i b rest _
    by_cases minus : b = 45
    · rw [if_pos minus, if_pos (Or.inl minus), digits]
    · by_cases plus : b = 43
      · rw [if_neg minus, if_pos plus, if_pos (Or.inr plus), digits]
      · rw [if_neg minus, if_neg plus, if_neg (not_or.mpr ⟨minus, plus⟩), digits]

/-- `atoi` returns an `int`. -/
theorem atoi_bounds {memory : Bytes} {value : Int} (read : atoi memory = some value) :
    -2 ^ 31 ≤ value ∧ value < 2 ^ 31 := by
  obtain ⟨long, -, rfl⟩ := Option.map_eq_some_iff.mp read
  have low := Int.le_bmod (x := long) (show 0 < 2 ^ 32 by decide)
  have high := Int.bmod_lt (x := long) (show 0 < 2 ^ 32 by decide)
  omega

/-- The number at the start of a string ends at its NUL at the latest. -/
theorem endsNumber_string (text : Bytes) : endsNumber (text ++ [0]) = true := by
  unfold endsNumber numeral
  rw [List.dropWhile_append]
  cases text.dropWhile isSpace with
  | nil => rfl
  | cons b rest =>
    simp only [List.isEmpty_cons, Bool.false_eq_true, if_false, List.cons_append]
    split
    · rw [List.any_append]
      exact Bool.or_true _
    · rw [← List.cons_append, List.any_append]
      exact Bool.or_true _

/-- What follows the number plays no part. -/
theorem atoi_append {memory : Bytes} (ends : endsNumber memory = true) (tail : Bytes) :
    atoi (memory ++ tail) = atoi memory := by
  unfold endsNumber numeral at ends
  unfold atoi strtol
  rw [List.dropWhile_append]
  cases start : memory.dropWhile isSpace with
  | nil =>
    rw [start] at ends
    cases ends
  | cons b rest =>
    simp only [start] at ends
    simp only [List.isEmpty_cons, Bool.false_eq_true, if_false, List.cons_append]
    by_cases minus : b = 45
    · rw [if_pos (Or.inl minus)] at ends
      rw [if_pos minus, if_pos minus, readDigits_append ends]
    · by_cases plus : b = 43
      · rw [if_pos (Or.inr plus)] at ends
        rw [if_neg minus, if_pos plus, if_neg minus, if_pos plus, readDigits_append ends]
      · rw [if_neg (not_or.mpr ⟨minus, plus⟩)] at ends
        rw [if_neg minus, if_neg plus, if_neg minus, if_neg plus, ← List.cons_append, readDigits_append ends]

/-- Memory with a NUL holds a number. -/
theorem atoi_string {memory : Bytes} (ends : 0 ∈ memory) : ∃ value, atoi memory = some value := by
  obtain ⟨text, rest, rfl⟩ := List.append_of_mem ends
  rw [List.append_cons, atoi_append (endsNumber_string text)]
  exact Option.isSome_iff_exists.mp (by rw [atoi_isSome, endsNumber_string])

theorem numeral_append {memory : Bytes} (visible : memory.dropWhile isSpace ≠ []) (tail : Bytes) :
    numeral (memory ++ tail) = numeral memory ++ tail := by
  unfold numeral
  rw [List.dropWhile_append]
  cases start : memory.dropWhile isSpace with
  | nil => exact absurd start visible
  | cons b rest =>
    simp only [List.isEmpty_cons, Bool.false_eq_true, if_false, List.cons_append]
    split <;> rfl

/-- A number that does not end in some memory goes on where digits follow. -/
theorem endsNumber_zeros {memory : Bytes} (runsOn : endsNumber memory = false) (count : Nat) :
    endsNumber (memory ++ List.replicate count 48) = false := by
  have digits : ((List.replicate count 48).any fun b => !isDigit b) = false := by
    rw [List.any_replicate]
    split <;> rfl
  by_cases visible : memory.dropWhile isSpace = []
  · have zeros : numeral (memory ++ List.replicate count 48) = List.replicate count 48 := by
      unfold numeral
      rw [List.dropWhile_append, visible]
      cases count <;> rfl
    rw [endsNumber, zeros, digits]
  · unfold endsNumber at runsOn ⊢
    rw [numeral_append visible, List.any_append, runsOn, digits]
    rfl

/-- The string that starts at some memory. It is `none` where the memory ends before a NUL. -/
def cString (memory : Bytes) : Option Bytes := if 0 ∈ memory then some (memory.takeWhile (· ≠ 0)) else none

/-- Bytes without a NUL that are read into a zeroed buffer come back as a string if one zero is left. -/
theorem cString_overwrite {bytes : Bytes} {size : Nat} (clean : 0 ∉ bytes) :
    cString (overwrite (List.replicate size 0) bytes) = if bytes.length < size then some bytes else none := by
  unfold cString overwrite
  rw [List.drop_replicate]
  by_cases fits : bytes.length < size
  · obtain ⟨rest, left⟩ : ∃ rest, size - bytes.length = rest + 1 := ⟨size - bytes.length - 1, by omega⟩
    rw [left, List.replicate_succ, if_pos (by simp), if_pos fits, List.takeWhile_append_of_pos]
    · simp
    · intro b member
      have nonzero : b ≠ 0 := fun zero => clean (zero ▸ member)
      simpa using nonzero
  · have nothing : size - bytes.length = 0 := by omega
    rw [nothing, List.replicate_zero, List.append_nil, if_neg clean, if_neg fits]

/-- The string at the start of some bytes with a NUL ends at the first one. -/
theorem cString_append {bytes : Bytes} (ends : 0 ∈ bytes) (tail : Bytes) :
    cString (bytes ++ tail) = some (bytes.takeWhile (· ≠ 0)) := by
  have short : bytes.takeWhile (· ≠ 0) ≠ bytes := by
    intro all
    have nonzero := List.mem_takeWhile_imp (all.symm ▸ ends)
    simp at nonzero
  rw [cString, if_pos (List.mem_append_left tail ends), List.takeWhile_append, if_neg]
  intro all
  exact short ((List.takeWhile_prefix _).eq_of_length all)

/-- Bytes read into a zeroed buffer come back as they are exactly if none is a NUL and one zero is left. -/
theorem cString_overwrite_whole {bytes : Bytes} {size : Nat} :
    cString (overwrite (List.replicate size 0) bytes) = some bytes ↔ 0 ∉ bytes ∧ bytes.length < size := by
  by_cases zero : 0 ∈ bytes
  · rw [overwrite, cString_append zero, Option.some.injEq, List.takeWhile_eq_self_iff]
    refine iff_of_false (fun all => ?_) fun clean => clean.1 zero
    simpa using all 0 zero
  · rw [cString_overwrite zero]
    by_cases short : bytes.length < size
    · rw [if_pos short]
      exact iff_of_true rfl ⟨zero, short⟩
    · rw [if_neg short]
      exact iff_of_false nofun fun clean => short clean.2

/-- The string leaves a full buffer without a NUL. -/
theorem cString_overwrite_none {bytes : Bytes} {size : Nat} :
    cString (overwrite (List.replicate size 0) bytes) = none ↔ 0 ∉ bytes ∧ size ≤ bytes.length := by
  by_cases zero : 0 ∈ bytes
  · rw [overwrite, cString_append zero]
    exact iff_of_false nofun fun clean => clean.1 zero
  · rw [cString_overwrite zero]
    by_cases short : bytes.length < size
    · rw [if_pos short]
      exact iff_of_false nofun fun clean => Nat.not_le.mpr short clean.2
    · rw [if_neg short]
      exact iff_of_true rfl ⟨zero, Nat.le_of_not_lt short⟩

/-- They come back as the empty string exactly if they begin with a NUL. -/
theorem cString_overwrite_empty {b : UInt8} {bytes : Bytes} {size : Nat} :
    cString (overwrite (List.replicate size 0) (b :: bytes)) = some [] ↔ b = 0 := by
  by_cases zero : 0 ∈ b :: bytes
  · rw [overwrite, cString_append zero, Option.some.injEq, List.takeWhile_eq_nil_iff]
    simp
  · rw [cString_overwrite zero]
    refine iff_of_false ?_ fun first => zero (first ▸ List.mem_cons_self)
    split <;> simp

/-- A string and what is left of the memory behind its NUL. -/
theorem cString_eq_some {memory text : Bytes} :
    cString memory = some text ↔ 0 ∉ text ∧ ∃ tail, memory = text ++ 0 :: tail := by
  constructor
  · intro reads
    unfold cString at reads
    split at reads
    · rename_i zero
      cases reads
      refine ⟨fun member => by simpa using List.mem_takeWhile_imp member, ?_⟩
      have whole := List.takeWhile_append_dropWhile (p := (· ≠ 0)) (l := memory)
      cases rest : memory.dropWhile (· ≠ 0) with
      | nil =>
        rw [rest, List.append_nil] at whole
        have nonzero := List.mem_takeWhile_imp (whole.symm ▸ zero)
        simp at nonzero
      | cons b tail =>
        have first : b = 0 := by
          have stops := List.head?_dropWhile_not (· ≠ (0 : UInt8)) memory
          rw [rest] at stops
          simpa using stops
        rw [rest, first] at whole
        exact ⟨tail, whole.symm⟩
    · cases reads
  · rintro ⟨clean, tail, rfl⟩
    rw [List.append_cons, cString_append (by simp), List.takeWhile_append_of_pos]
    · simp
    · intro b member
      have nonzero : b ≠ 0 := fun zero => clean (zero ▸ member)
      simpa using nonzero

theorem take_overwrite (memory bytes : Bytes) {k : Nat} (short : k ≤ bytes.length) :
    (overwrite memory bytes).take k = bytes.take k := by
  rw [overwrite, List.take_append_of_le_length short]

example : atoi (ascii "\t-12\n") = some (-12) := by decide

end PCProject
