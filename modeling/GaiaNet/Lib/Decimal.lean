import Mathlib.Algebra.Group.Nat.Defs

/-! Decimal digit strings: value, fixed-width notation, and which strings continue another. -/

namespace Lib.Decimal

def Digits (text : List Char) : Prop :=
  ∀ char ∈ text, char.isDigit

/-- The number a digit string denotes. -/
def value (text : List Char) : Nat := Nat.ofDigitChars 10 text 0

/-- The `width` low digits of a number, leading zeros included. -/
def fixed : Nat → Nat → List Char
  | 0, _ => []
  | width + 1, number => fixed width (number / 10) ++ [Nat.digitChar (number % 10)]

theorem digits_toDigits (number : Nat) : Digits (Nat.toDigits 10 number) :=
  fun _ member => Nat.isDigit_of_mem_toDigits (by decide) (by decide) member

theorem Digits.append (first : Digits front) (second : Digits back) : Digits (front ++ back) := by
  intro char member
  rcases List.mem_append.mp member with inFront | inBack
  · exact first char inFront
  · exact second char inBack

/-- A separator that is no digit shows where a digit string ends. -/
theorem Digits.separated {first second : List Char} (front : Digits first) (other : Digits second)
    (separator : sep.isDigit = false) (same : first ++ sep :: rest = second ++ sep :: tail) :
    first = second ∧ rest = tail := by
  have whole : first = second := by
    have taken (text rest : List Char) (digits : Digits text) :
        (text ++ sep :: rest).takeWhile Char.isDigit = text := by
      rw [List.takeWhile_append_of_pos digits]
      simp [separator]
    rw [← taken first rest front, same, taken second tail other]
  subst whole
  exact ⟨rfl, by simpa using same⟩

/-- Read from the right: a separator that is no digit shows where the last digits begin. -/
theorem Digits.separated_last {first second : List Char} (back : Digits first) (other : Digits second)
    (separator : sep.isDigit = false) (same : rest ++ sep :: first = tail ++ sep :: second) :
    rest = tail ∧ first = second := by
  have mirrored := congrArg List.reverse same
  simp only [List.reverse_append, List.reverse_cons, List.append_assoc, List.singleton_append] at mirrored
  have reversed {text : List Char} (digits : Digits text) : Digits text.reverse :=
    fun char member => digits char (List.mem_reverse.mp member)
  obtain ⟨digits, before⟩ := (reversed back).separated (reversed other) separator mirrored
  exact ⟨List.reverse_inj.mp before, List.reverse_inj.mp digits⟩

theorem value_append (front back : List Char) :
    value (front ++ back) = value front * 10 ^ back.length + value back := by
  unfold value
  rw [Nat.ofDigitChars_append, Nat.ofDigitChars_eq_ofDigitChars_zero, Nat.mul_comm]

theorem value_toDigits (number : Nat) : value (Nat.toDigits 10 number) = number :=
  Nat.ofDigitChars_ten_toDigits

theorem digit_range {char : Char} (digit : char.isDigit) :
    char.toNat - 48 < 10 ∧ Nat.digitChar (char.toNat - 48) = char := by
  have bounds : 48 ≤ char.toNat ∧ char.toNat ≤ 57 := by
    simp only [Char.isDigit, Bool.and_eq_true, decide_eq_true_eq, ge_iff_le,
      UInt32.le_iff_toNat_le] at digit
    exact digit
  have small : char.toNat - 48 < 10 := by omega
  refine ⟨small, ?_⟩
  apply Char.toNat_inj.mp
  rw [Nat.toNat_digitChar_of_lt_ten small]
  omega

theorem value_lt (digits : Digits text) : value text < 10 ^ text.length := by
  induction text with
  | nil => simp [value]
  | cons char rest ih =>
    have tail := ih fun other member => digits other (List.mem_cons_of_mem _ member)
    have range := (digit_range (digits char (List.mem_cons_self ..))).1
    have split : value (char :: rest) = (char.toNat - 48) * 10 ^ rest.length + value rest := by
      rw [← List.singleton_append, value_append]
      simp [value, Nat.ofDigitChars]
    rw [split, List.length_cons, Nat.pow_succ]
    have bound : (char.toNat - 48) * 10 ^ rest.length ≤ 9 * 10 ^ rest.length :=
      Nat.mul_le_mul_right _ (by omega)
    omega

/-- A digit string is its value in fixed width. -/
theorem Digits.eq_fixed {text : List Char} (digits : Digits text) :
    text = fixed text.length (value text) := by
  generalize size : text.length = width
  induction width generalizing text with
  | zero => exact List.eq_nil_of_length_eq_zero size
  | succ width ih =>
    have nonempty : text ≠ [] := by
      rintro rfl
      simp at size
    have shape := List.dropLast_concat_getLast nonempty
    generalize text.dropLast = front at shape
    generalize text.getLast nonempty = last at shape
    subst shape
    have front_digits : Digits front := fun char member => digits char (by simp [member])
    obtain ⟨small, same⟩ := digit_range (digits last (by simp))
    have split : value (front ++ [last]) = value front * 10 + (last.toNat - 48) := by
      rw [value_append]
      simp [value, Nat.ofDigitChars]
    have high : value (front ++ [last]) / 10 = value front := by omega
    have low : value (front ++ [last]) % 10 = last.toNat - 48 := by omega
    rw [fixed, high, low, same, ← ih front_digits (by simpa using size)]

theorem Digits.ext (first : Digits left) (second : Digits right)
    (sameLength : left.length = right.length) (sameValue : value left = value right) :
    left = right := by
  rw [first.eq_fixed, second.eq_fixed, sameLength, sameValue]

/-- The digits that `long` has after its first `width` ones. -/
theorem Digits.append_iff (first : Digits short) (second : Digits long) (rest : List Char) :
    long = short ++ rest ↔
      short.length ≤ long.length ∧
        value short = value long / 10 ^ (long.length - short.length) ∧
        rest = fixed (long.length - short.length)
          (value long % 10 ^ (long.length - short.length)) := by
  constructor
  · rintro rfl
    have tail : Digits rest := fun char member => second char (by simp [member])
    have bound := value_lt tail
    have positive : 0 < 10 ^ rest.length := Nat.pow_pos (by decide)
    rw [List.length_append, Nat.add_sub_cancel_left, value_append]
    refine ⟨by omega, ?_, ?_⟩
    · rw [Nat.mul_comm, Nat.mul_add_div positive, Nat.div_eq_of_lt bound, Nat.add_zero]
    · rw [Nat.mul_add_mod_self_right, Nat.mod_eq_of_lt bound]
      exact tail.eq_fixed
  · rintro ⟨fits, high, rfl⟩
    have front : Digits (long.take short.length) :=
      fun char member => second char (List.mem_of_mem_take member)
    have back : Digits (long.drop short.length) :=
      fun char member => second char (List.mem_of_mem_drop member)
    have bound := value_lt back
    have split := value_append (long.take short.length) (long.drop short.length)
    rw [List.take_append_drop, List.length_drop] at split
    rw [List.length_drop] at bound
    have positive : 0 < 10 ^ (long.length - short.length) := Nat.pow_pos (by decide)
    have headValue : value (long.take short.length) = value short := by
      rw [high, split, Nat.mul_comm, Nat.mul_add_div positive, Nat.div_eq_of_lt bound, Nat.add_zero]
    have head : long.take short.length = short :=
      front.ext first (by rw [List.length_take]; omega) headValue
    have tail : long.drop short.length = fixed (long.length - short.length)
        (value long % 10 ^ (long.length - short.length)) := by
      have same := back.eq_fixed
      rwa [List.length_drop, show value (long.drop short.length) =
        value long % 10 ^ (long.length - short.length) by
          rw [split, Nat.mul_add_mod_self_right, Nat.mod_eq_of_lt bound]] at same
    rw [← tail]
    conv => lhs; rw [← List.take_append_drop short.length long, head]

end Lib.Decimal
