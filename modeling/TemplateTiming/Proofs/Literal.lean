import Mathlib.Algebra.Order.Field.Power
import TemplateTiming.Proofs.JsonWriter
import TemplateTiming.Proofs.Nearest

/-! Literals of doubles, read back. A double is written with its shortest digits, in place or with an exponent, without
zeros at the end and with a zero where a point would stand alone. All of these are ways to write one decimal number;
and the decimal number that the search for the shortest digits ends with is nearest to the double that it began with. -/

namespace TemplateTiming

/-- The number as a fraction. -/
def Scaled.value (s : Scaled) : ℚ := s.digits * 10 ^ s.exponent

namespace Scaled

theorem value_shift (digits k : Nat) (e : Int) : value ⟨digits * 10 ^ k, e⟩ = value ⟨digits, e + k⟩ := by
  simp only [value]
  push_cast
  rw [zpow_add₀ (by norm_num), zpow_natCast]
  ring

/-- A number of units is written with as many decimal places as there are halvings in a unit. -/
theorem value_halvings (units places : Nat) :
    value ⟨units * Nat.pow 5 places, -(places : Int)⟩ * (Nat.pow 2 places : Nat) = units := by
  simp only [value, Nat.pow_eq]
  push_cast
  rw [zpow_neg, zpow_natCast, show (10 : ℚ) = 5 * 2 by norm_num, mul_pow]
  field_simp

/-- Both signs of an exponent in one fraction. -/
theorem value_eq_div (s : Scaled) :
    s.value = (s.digits * 10 ^ s.exponent.toNat : Nat) / (10 ^ (-s.exponent).toNat : Nat) := by
  obtain ⟨digits, exponent⟩ := s
  obtain ⟨n, rfl | rfl⟩ := exponent.eq_nat_or_neg
  · simp [value]
  · simp [value, div_eq_mul_inv]

end Scaled

namespace Binary64

theorem ofDecimal_nearestTo (s : Scaled) : NearestTo s.value (ofDecimal s.digits s.exponent) := by
  rw [ofDecimal_eq, s.value_eq_div]
  exact ofRatio_nearestTo _ (Nat.pow_pos (by decide))

theorem expansion_nearestTo {units : Nat} (hshort : Short units) (hfinite : units < overflow) :
    NearestTo (Scaled.value ⟨expansion units, -1074⟩) (.finite units) := by
  apply nearestTo_exact hshort hfinite
  have hplaces : (-1074 : Int) = -(1074 : Nat) := rfl
  unfold expansion one
  simp only [hplaces]
  generalize 1074 = places
  exact Scaled.value_halvings units places

/-- A double is nearest to its shortest digits. -/
theorem shortest_nearestTo {units : Nat} (hshort : Short units) (hfinite : units < overflow) :
    NearestTo (shortest units).value (.finite units) := by
  unfold shortest
  generalize (Decimal.digits (expansion units)).length - 1 = dropped
  induction dropped with
  | zero => exact expansion_nearestTo hshort hfinite
  | succ dropped ih =>
      rw [shortestFrom]
      split
      next digits hfound =>
        have hreads := List.find?_some hfound
        rw [← of_decide_eq_true hreads]
        exact ofDecimal_nearestTo _
      next => exact ih

/-- Without the zeros at the end, the digits stand for the same number. -/
theorem normal_value (s : Scaled) :
    Scaled.value ⟨Decimal.value (normal s).1, (normal s).2 + 1 - (normal s).1.length⟩ = s.value := by
  obtain ⟨k, hzeros⟩ : ∃ k, Decimal.digits s.digits = (normal s).1 ++ List.replicate k '0' := by
    have hsplit := List.rdropWhile_append_rtakeWhile (p := (· == '0')) (l := Decimal.digits s.digits)
    have hdropped : ∀ c ∈ List.rtakeWhile (· == '0') (Decimal.digits s.digits), c = '0' := fun c hc =>
      beq_iff_eq.mp (List.mem_rtakeWhile_imp (p := (· == '0')) hc)
    rw [List.eq_replicate_of_mem hdropped] at hsplit
    exact ⟨_, hsplit.symm⟩
  have hdigits : s.digits = Decimal.value (normal s).1 * 10 ^ k := by
    rw [← Decimal.value_digits s.digits, hzeros, Decimal.value_append_zeros]
  have hlength : (Decimal.digits s.digits).length = (normal s).1.length + k := by
    rw [hzeros, List.length_append, List.length_replicate]
  have hexponent : (normal s).2 + 1 - (normal s).1.length = s.exponent + k := by
    have hpower : (normal s).2 = s.exponent + (Decimal.digits s.digits).length - 1 := rfl
    rw [hpower, hlength]
    push_cast
    ring
  rw [hexponent, ← Scaled.value_shift, ← hdigits]

end Binary64

namespace Json

/-- What a literal without a sign stands for: the digits before and behind the point, and the power of ten of the last
of them. -/
def decimal (literal : List Char) : Scaled :=
  let whole := literal.takeWhile Decimal.isDigit
  match literal.dropWhile Decimal.isDigit with
  | '.' :: behind =>
    let places := behind.takeWhile Decimal.isDigit
    ⟨Decimal.value (whole ++ places), exponentValue (behind.dropWhile Decimal.isDigit) - places.length⟩
  | exponent => ⟨Decimal.value whole, exponentValue exponent⟩

theorem decimal_point {whole places exponent : List Char} (hwhole : Digits whole) (hplaces : Digits places)
    (hexponent : NoDigit exponent) :
    decimal (whole ++ '.' :: (places ++ exponent)) =
      ⟨Decimal.value (whole ++ places), exponentValue exponent - places.length⟩ := by
  obtain ⟨htake, hdrop⟩ := hwhole.span (noDigit_cons (by decide : Decimal.isDigit '.' = false) (places ++ exponent))
  obtain ⟨htake', hdrop'⟩ := hplaces.span hexponent
  simp only [decimal, htake, hdrop, htake', hdrop']

theorem decimal_places {whole places : List Char} (hwhole : Digits whole) (hplaces : Digits places) :
    decimal (whole ++ '.' :: places) = ⟨Decimal.value (whole ++ places), -places.length⟩ := by
  have hread := decimal_point hwhole hplaces (nofun : NoDigit [])
  rwa [List.append_nil, exponentValue_nil, zero_sub] at hread

theorem decimal_whole {whole : List Char} (hwhole : Digits whole) (power : List Char) :
    decimal (whole ++ 'e' :: power) = ⟨Decimal.value whole, exponentValue ('e' :: power)⟩ := by
  obtain ⟨htake, hdrop⟩ := hwhole.span (noDigit_cons (by decide : Decimal.isDigit 'e' = false) power)
  rw [decimal, htake, hdrop]
  simp

/-- A decimal that is written in place. -/
theorem positional_value {ds : List Char} (hds : Digits ds) (e : Int) :
    (decimal (Binary64.positional ds e)).value = Scaled.value ⟨Decimal.value ds, e + 1 - ds.length⟩ := by
  have hzero : Digits ['0'] := Whole.zero.digits_form
  simp only [Binary64.positional, List.append_assoc, List.cons_append, List.nil_append]
  split_ifs with hsmall hwhole
  -- all digits behind the point
  · have hread := decimal_places hzero (hds.zeros_append ((-e).toNat - 1))
    have hvalue : Decimal.value ('0' :: (List.replicate ((-e).toNat - 1) '0' ++ ds)) = Decimal.value ds :=
      Decimal.value_zeros_append ((-e).toNat - 1 + 1) ds
    have hexponent : -((List.replicate ((-e).toNat - 1) '0' ++ ds).length : Int) = e + 1 - ds.length := by
      rw [List.length_append, List.length_replicate]
      omega
    rw [List.singleton_append, List.singleton_append, hvalue, hexponent] at hread
    rw [hread]
  -- all digits before the point
  · have hread := decimal_places (hds.append_zeros (e.toNat + 1 - ds.length)) hzero
    have hvalue := Decimal.value_append_zeros ds (e.toNat + 1 - ds.length + 1)
    have hexponent : -1 + ((e.toNat + 1 - ds.length + 1 : Nat) : Int) = e + 1 - ds.length := by omega
    rw [List.replicate_succ', ← List.append_assoc] at hvalue
    rw [List.append_assoc, hvalue] at hread
    rw [List.take_of_length_le hwhole, hread, ← hexponent]
    exact Scaled.value_shift _ _ _
  -- the point among them
  · have hread := decimal_places (hds.take (Nat.succ_pos e.toNat)) (hds.drop (not_le.mp hwhole))
    have hexponent : -((ds.drop (e.toNat + 1)).length : Int) = e + 1 - ds.length := by
      rw [List.length_drop]
      omega
    rw [List.take_append_drop, hexponent] at hread
    rw [Nat.sub_eq_zero_of_le (not_le.mp hwhole).le, List.replicate_zero, List.nil_append, hread]

/-- A decimal that is written with an exponent. -/
theorem scientific_value {ds : List Char} (hds : Digits ds) (plus : Bool) (e : Int) :
    (decimal (Binary64.scientific plus ds e)).value = Scaled.value ⟨Decimal.value ds, e + 1 - ds.length⟩ := by
  obtain ⟨power, hwritten, hexponent, hvalue⟩ := exponent_written plus e
  obtain ⟨d, more, rfl⟩ := List.exists_cons_of_ne_nil hds.1
  have hfirst : Digits [d] := ⟨List.cons_ne_nil d [], List.forall_mem_singleton.mpr (hds.2 d List.mem_cons_self)⟩
  cases more with
  | nil =>
      have hread := decimal_whole hfirst power
      rw [hvalue] at hread
      simp only [Binary64.scientific, hwritten, List.nil_append, List.cons_append]
      rw [← List.singleton_append, hread]
      simp
  | cons d' more =>
      have hplaces : Digits (d' :: more) := ⟨List.cons_ne_nil _ _, fun c hc => hds.2 c (List.mem_cons_of_mem d hc)⟩
      have hpower : NoDigit ('e' :: power) := noDigit_cons (by decide) power
      have hread := decimal_point hfirst hplaces hpower
      have hlength : e - ((d' :: more).length : Int) = e + 1 - (d :: d' :: more).length := by
        simp only [List.length_cons]
        omega
      rw [hvalue, hlength] at hread
      simp only [Binary64.scientific, hwritten, List.nil_append, List.cons_append, List.append_assoc]
      exact congrArg Scaled.value hread

/-- **A double is nearest to what is written for it**, in whichever way its digits are laid out. -/
theorem layOut_nearestTo {units : Nat} (hshort : Binary64.Short units) (hfinite : units < Binary64.overflow)
    (layout : DecimalLayout) : Binary64.NearestTo (decimal (Binary64.layOut layout units)).value (.finite units) := by
  rw [Binary64.layOut]
  split_ifs with hzero
  · have hread : decimal ['0', '.', '0'] = ⟨0, -1⟩ := by decide
    have hnone : Scaled.value ⟨0, -1⟩ = 0 := by simp [Scaled.value]
    rw [hread, hnone]
    exact Binary64.nearestTo_exact hshort hfinite (by rw [hzero, zero_mul, Nat.cast_zero])
  · obtain ⟨d, ds, hdigits, -, hds⟩ := Binary64.normal_digits (Binary64.shortest_fits hzero).nonzero
    have hall : Digits (Binary64.normal (Binary64.shortest units)).1 := by
      rw [hdigits]
      exact ⟨List.cons_ne_nil d ds, hds⟩
    have hvalue := Binary64.normal_value (Binary64.shortest units)
    have hnearest := Binary64.shortest_nearestTo hshort hfinite
    generalize Binary64.normal (Binary64.shortest units) = scaled at hall hvalue
    obtain ⟨all, e⟩ := scaled
    dsimp only at hall hvalue ⊢
    rw [← hvalue] at hnearest
    split_ifs with hplain
    · rwa [positional_value hall]
    · rwa [scientific_value hall]

end Json

end TemplateTiming
