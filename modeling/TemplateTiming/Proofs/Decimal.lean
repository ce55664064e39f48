import Mathlib
import TemplateTiming.Text.Decimal

/-! Numbers in decimal: what is written reads back, begins with a zero only for zero itself, and is as long as its
size demands. -/

namespace TemplateTiming.Decimal

theorem isDigit_iff (c : Char) : isDigit c = true ↔ 48 ≤ c.toNat ∧ c.toNat ≤ 57 := by
  rw [isDigit, Bool.and_eq_true, decide_eq_true_eq, decide_eq_true_eq]
  exact Iff.rfl

theorem digit_toNat {n : Nat} (hn : n < 10) : (digit n).toNat = 48 + n := by
  have hvalid : (48 + n).isValidChar := Or.inl (by omega)
  rw [digit, Char.ofNat, dif_pos hvalid]
  rfl

theorem isDigit_digit {n : Nat} (hn : n < 10) : isDigit (digit n) = true := by
  rw [isDigit_iff, digit_toNat hn]
  omega

theorem digitValue_digit {n : Nat} (hn : n < 10) : digitValue (digit n) = n := by
  rw [digitValue, digit_toNat hn, Nat.add_sub_cancel_left]

theorem digitValue_lt {d : Char} (hd : isDigit d = true) : digitValue d < 10 := by
  rw [isDigit_iff] at hd
  rw [digitValue]
  omega

theorem value_concat (ds : List Char) (d : Char) : value (ds ++ [d]) = 10 * value ds + digitValue d := by
  rw [value, List.foldl_append]
  rfl

theorem value_append (front back : List Char) :
    value (front ++ back) = value front * 10 ^ back.length + value back := by
  induction back using List.reverseRecOn with
  | nil => simp [value]
  | append_singleton back d ih =>
      rw [← List.append_assoc, value_concat, ih, value_concat, List.length_append, List.length_singleton, Nat.pow_succ]
      ring

theorem value_zeros (k : Nat) : value (List.replicate k '0') = 0 := by
  induction k with
  | zero => rfl
  | succ k ih =>
      rw [List.replicate_succ', value_concat, ih]
      rfl

theorem value_zeros_append (k : Nat) (ds : List Char) : value (List.replicate k '0' ++ ds) = value ds := by
  rw [value_append, value_zeros, Nat.zero_mul, Nat.zero_add]

theorem value_append_zeros (ds : List Char) (k : Nat) : value (ds ++ List.replicate k '0') = value ds * 10 ^ k := by
  rw [value_append, value_zeros, List.length_replicate, Nat.add_zero]

theorem isDigit_of_mem_zeros {k : Nat} {c : Char} (hc : c ∈ List.replicate k '0') : isDigit c = true := by
  rw [List.eq_of_mem_replicate hc]
  decide

theorem digits_zero : digits 0 = ['0'] := by
  rw [digits, if_pos (by decide)]
  rfl

/-- What is written reads back. -/
theorem value_digits (n : Nat) : value (digits n) = n := by
  induction n using Nat.strongRecOn with
  | ind n ih =>
      rw [digits]
      split_ifs with hsmall
      · exact (Nat.zero_add _).trans (digitValue_digit hsmall)
      · rw [value_concat, ih (n / 10) (by omega), digitValue_digit (Nat.mod_lt n (by decide)), Nat.div_add_mod]

theorem digits_ne_nil (n : Nat) : digits n ≠ [] := by
  rw [digits]
  split_ifs with hsmall
  · exact List.cons_ne_nil _ _
  · exact List.append_ne_nil_of_right_ne_nil _ (List.cons_ne_nil _ _)

theorem isDigit_of_mem_digits {n : Nat} {d : Char} (hd : d ∈ digits n) : isDigit d = true := by
  induction n using Nat.strongRecOn with
  | ind n ih =>
      rw [digits] at hd
      split_ifs at hd with hsmall
      · rw [List.mem_singleton.mp hd]
        exact isDigit_digit hsmall
      · rcases List.mem_append.mp hd with hfront | hlast
        · exact ih (n / 10) (by omega) hfront
        · rw [List.mem_singleton.mp hlast]
          exact isDigit_digit (Nat.mod_lt n (by decide))

/-- Only zero is written with a zero in front. -/
theorem digits_head {n : Nat} (hn : n ≠ 0) : (digits n).head (digits_ne_nil n) ≠ '0' := by
  induction n using Nat.strongRecOn with
  | ind n ih =>
      by_cases hsmall : n < 10
      · have hdigits : digits n = [digit n] := by rw [digits, if_pos hsmall]
        simp only [hdigits, List.head_cons]
        intro hzero
        have hvalue := digitValue_digit hsmall
        rw [hzero] at hvalue
        exact hn hvalue.symm
      · have hdigits : digits n = digits (n / 10) ++ [digit (n % 10)] := by rw [digits, if_neg hsmall]
        simp only [hdigits, List.head_append_of_ne_nil (digits_ne_nil (n / 10))]
        exact ih (n / 10) (by omega) (by omega)

/-- A number is at least as large as its first place. -/
theorem pow_length_le {n : Nat} (hn : n ≠ 0) : 10 ^ ((digits n).length - 1) ≤ n := by
  induction n using Nat.strongRecOn with
  | ind n ih =>
      rw [digits]
      split_ifs with hsmall
      · exact Nat.one_le_iff_ne_zero.mpr hn
      · have hlength : 0 < (digits (n / 10)).length := List.length_pos_iff.mpr (digits_ne_nil _)
        rw [List.length_append, List.length_singleton, Nat.add_sub_cancel]
        calc 10 ^ (digits (n / 10)).length = 10 ^ ((digits (n / 10)).length - 1) * 10 := by
              rw [← Nat.pow_succ, Nat.succ_eq_add_one, Nat.sub_add_cancel hlength]
          _ ≤ n / 10 * 10 := Nat.mul_le_mul_right 10 (ih (n / 10) (by omega) (by omega))
          _ ≤ n := Nat.div_mul_le_self n 10

/-- Digits make up less than their number of places allows. -/
theorem value_lt_pow {ds : List Char} (hds : ∀ d ∈ ds, isDigit d = true) : value ds < 10 ^ ds.length := by
  induction ds using List.reverseRecOn with
  | nil => exact Nat.one_pos
  | append_singleton ds d ih =>
      have hfront := ih fun c hc => hds c (List.mem_append_left _ hc)
      have hlast := digitValue_lt (hds d (List.mem_append_right _ List.mem_cons_self))
      rw [value_concat, List.length_append, List.length_singleton, Nat.pow_succ]
      omega

end TemplateTiming.Decimal
