/-! Rounding a quotient of natural numbers to the nearest whole number, an exact half to the even one. -/

namespace TemplateTiming

/-- The whole number nearest to `num / den`; the even one of two equally near ones. -/
def roundHalfEven (num den : Nat) : Nat :=
  let quotient := num / den
  let twice := 2 * (num % den)
  if twice < den then quotient
  else if den < twice then quotient + 1
  else quotient + quotient % 2

end TemplateTiming
