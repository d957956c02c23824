import MailFilter.Text.Decimal
import Mathlib.Algebra.GroupWithZero.Nat
import Mathlib.Data.List.Induction

/-
  How a decimal number may be written.

  A number is read from its digits, with any zeros in front of
  them, and a plus sign or none before those. It is read from
  no other text.

  Key definitions include:
    * `Decimal.spelling`

  Main statements:
    * `Decimal.exists_zeros`
    * `Decimal.read?_eq_some_iff`
    * `Decimal.readWord?_eq_some_iff`
    * `Decimal.lt_of_read?`
    * `Decimal.spelling_eq_toDigits_iff`
-/

namespace MailFilter.Decimal

------------------------------------------------------------
-- Digits
------------------------------------------------------------

/- A number in digits, with zeros and maybe a sign before. -/
def spelling
    (signed : Bool)
    (zeros : Nat)
    (n : Nat) : List Char :=
  (if signed then ['+'] else []) ++
    (List.replicate zeros '0' ++ Nat.toDigits 10 n)

/- A digit is the one that its value is written with. -/
theorem digitChar_toNat_sub
    {c : Char}
    (hDigit : c.isDigit = true) :
    Nat.digitChar (c.toNat - 48) = c := by
  have hRange := Char.isDigit_iff_toNat.mp hDigit
  change 48 ≤ c.toNat ∧ c.toNat ≤ 57 at hRange
  have hLess : c.toNat - 48 < 10 := by omega
  rw [← Char.toNat_inj, Nat.toNat_digitChar_of_lt_ten hLess]
  omega

/- Digits are read if there are only digits. -/
theorem ofDigitsFrom?_eq
    (value : Nat)
    (text : List Char) :
    ofDigitsFrom? value text =
      if text.all Char.isDigit then
          some (Nat.ofDigitChars 10 text value)
        else none := by
  induction text generalizing value with
  | nil => rfl
  | cons c rest ih =>
      cases hDigit : c.isDigit with
      | true =>
          have hValue : digit? c = some (c.toNat - 48) := by
            simp [digit?, hDigit]
          simp only [ofDigitsFrom?, hValue, ih,
            Nat.ofDigitChars_cons, List.all_cons, hDigit,
            Bool.true_and, Nat.mul_comm value 10]
          rfl
      | false =>
          have hNone : digit? c = none := by
            simp [digit?, hDigit]
          simp only [ofDigitsFrom?, hNone, List.all_cons, hDigit,
            Bool.false_and, Bool.false_eq_true, if_false]

theorem ofDigits?_eq_some_iff
    {text : List Char}
    {n : Nat} :
    ofDigits? text = some n ↔
      text ≠ [] ∧
        (∀ c ∈ text, c.isDigit = true) ∧
        Nat.ofDigitChars 10 text 0 = n := by
  cases text with
  | nil => simp [ofDigits?]
  | cons c rest =>
      rw [ofDigits?, ofDigitsFrom?_eq, Option.ite_none_right_eq_some,
        Option.some.injEq, List.all_eq_true]
      · simp
      · exact List.cons_ne_nil c rest

/-
  Digits are those of the number that they stand for, with
  zeros in front.
-/
theorem exists_zeros
    {digits : List Char}
    (hSome : digits ≠ [])
    (hDigits : ∀ c ∈ digits, c.isDigit = true) :
    ∃ zeros,
      digits =
        List.replicate zeros '0' ++
          Nat.toDigits 10 (Nat.ofDigitChars 10 digits 0) := by
  induction digits using List.reverseRecOn with
  | nil => exact absurd rfl hSome
  | append_singleton front c ih =>
      have hLast : c.isDigit = true := hDigits c (by simp)
      have hRange := Char.isDigit_iff_toNat.mp hLast
      change 48 ≤ c.toNat ∧ c.toNat ≤ 57 at hRange
      have hLess : c.toNat - 48 < 10 := by omega
      have hOne : Nat.toDigits 10 (c.toNat - 48) = [c] := by
        rw [Nat.toDigits_of_lt_base hLess,
          digitChar_toNat_sub hLast]
      have hValue :
          Nat.ofDigitChars 10 (front ++ [c]) 0 =
            10 * Nat.ofDigitChars 10 front 0 +
              (c.toNat - 48) := by
        rw [Nat.ofDigitChars_append, Nat.ofDigitChars_cons]
        rfl
      by_cases hFront : front = []
      · refine ⟨0, ?_⟩
        rw [hValue, hFront, Nat.ofDigitChars_nil, Nat.mul_zero,
          Nat.zero_add, hOne]
        rfl
      · rcases ih hFront fun d hMem => hDigits d (by simp [hMem])
          with ⟨zeros, hZeros⟩
        rw [hValue]
        generalize Nat.ofDigitChars 10 front 0 = value at hZeros ⊢
        rcases Nat.eq_zero_or_pos value with rfl | hPositive
        · -- The digits before are zeros as well.
          refine ⟨zeros + 1, ?_⟩
          rw [hZeros, Nat.mul_zero, Nat.zero_add, hOne,
            Nat.toDigits_zero, List.replicate_succ']
        · refine ⟨zeros, ?_⟩
          rw [← Nat.toDigits_append_toDigits (by decide) hPositive
            hLess, hOne, ← List.append_assoc, ← hZeros]

------------------------------------------------------------
-- Numbers
------------------------------------------------------------

theorem read?_eq_ofDigits?
    {text : List Char}
    (hPlain : text.head? ≠ some '+') :
    read? text = ofDigits? text := by
  unfold read?
  split
  · exact absurd rfl hPlain
  · rfl

theorem ofDigits?_zeros
    (zeros n : Nat) :
    ofDigits? (List.replicate zeros '0' ++ Nat.toDigits 10 n) =
      some n := by
  rw [ofDigits?_eq_some_iff]
  refine ⟨by simp [Nat.toDigits_ne_nil], ?_, ?_⟩
  · intro c hMem
    rcases List.mem_append.mp hMem with hZero | hDigit
    · rw [List.eq_of_mem_replicate hZero]
      rfl
    · exact Nat.isDigit_of_mem_toDigits (by decide) (by decide)
        hDigit
  · rw [Nat.ofDigitChars_append, Nat.ofDigitChars_replicate_zero,
      Nat.mul_zero, Nat.ofDigitChars_ten_toDigits]

/- A number is read from its spellings, and from no other text. -/
theorem read?_eq_some_iff
    {text : List Char}
    {n : Nat} :
    read? text = some n ↔
      ∃ signed zeros, text = spelling signed zeros n := by
  have hZeros :
      ∀ {digits : List Char},
        ofDigits? digits = some n →
        ∃ zeros,
          digits =
            List.replicate zeros '0' ++ Nat.toDigits 10 n := by
    intro digits hRead
    rcases ofDigits?_eq_some_iff.mp hRead with
      ⟨hSome, hDigits, rfl⟩
    exact exists_zeros hSome hDigits
  constructor
  · intro hRead
    unfold read? at hRead
    split at hRead
    · rcases hZeros hRead with ⟨zeros, rfl⟩
      exact ⟨true, zeros, rfl⟩
    · rcases hZeros hRead with ⟨zeros, rfl⟩
      exact ⟨false, zeros, rfl⟩
  · rintro ⟨signed, zeros, rfl⟩
    cases signed with
    | true => exact ofDigits?_zeros zeros n
    | false =>
        have hRead := ofDigits?_zeros zeros n
        refine (read?_eq_ofDigits? ?_).trans hRead
        intro hFirst
        have hMem := List.mem_of_mem_head? hFirst
        have hSign :=
          (ofDigits?_eq_some_iff.mp hRead).2.1 '+' hMem
        cases hSign

/- One that fits its bits is not changed by that. -/
theorem readWord?_eq_some_iff
    {bits : Nat}
    {text : List Char}
    {n : Nat} :
    readWord? bits text = some n ↔
      n < 2 ^ bits ∧ read? text = some n := by
  unfold readWord?
  cases hRead : read? text with
  | none => simp
  | some m =>
      simp only [Option.ite_none_right_eq_some,
        Option.some.injEq]
      constructor
      · rintro ⟨hFits, rfl⟩
        exact ⟨hFits, rfl⟩
      · rintro ⟨hFits, rfl⟩
        exact ⟨hFits, rfl⟩

/- A text that is read has digits and signs only. -/
theorem isDigit_or_eq_of_read?
    {text : List Char}
    {n : Nat}
    (hRead : read? text = some n)
    {c : Char}
    (hMem : c ∈ text) :
    c.isDigit = true ∨ c = '+' := by
  unfold read? at hRead
  split at hRead
  · rcases List.mem_cons.mp hMem with rfl | hLater
    · exact Or.inr rfl
    · exact Or.inl
        ((ofDigits?_eq_some_iff.mp hRead).2.1 c hLater)
  · exact Or.inl ((ofDigits?_eq_some_iff.mp hRead).2.1 c hMem)

/- A number is not longer than what it is read from. -/
theorem lt_of_read?
    {text : List Char}
    {n : Nat}
    (hRead : read? text = some n) :
    n < 10 ^ text.length := by
  rcases read?_eq_some_iff.mp hRead with ⟨signed, zeros, rfl⟩
  have hDigits :
      (Nat.toDigits 10 n).length ≤
        (spelling signed zeros n).length := by
    simp only [spelling, List.length_append]
    omega
  exact (Nat.length_toDigits_le_iff (by decide)
    (Nat.lt_of_lt_of_le Nat.length_toDigits_pos hDigits)).mp
    hDigits

/- The digits alone are the spelling without sign and zeros. -/
theorem spelling_eq_toDigits_iff
    {signed : Bool}
    {zeros n : Nat} :
    spelling signed zeros n = Nat.toDigits 10 n ↔
      signed = false ∧ zeros = 0 := by
  constructor
  · intro hSame
    have hLength := congrArg List.length hSame
    simp only [spelling, List.length_append,
      List.length_replicate] at hLength
    have hSign : (if signed then ['+'] else []).length = 0 := by
      omega
    refine ⟨?_, by omega⟩
    cases signed with
    | true => cases hSign
    | false => rfl
  · rintro ⟨rfl, rfl⟩
    rfl

end MailFilter.Decimal
