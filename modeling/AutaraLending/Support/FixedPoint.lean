import Mathlib.Data.Rat.Floor
import Mathlib.Tactic

/-! Binary fixed-point numbers of a given width, with checked arithmetic: products and
conversions round towards minus infinity, quotients towards zero, and a result outside
the representable range is refused. -/

namespace Support

structure Format where
  frac : Nat
  width : Nat
  signed : Bool
  deriving DecidableEq, Repr

def Format.minBits (format : Format) : Int :=
  if format.signed then -2 ^ (format.width - 1) else 0

def Format.maxBits (format : Format) : Int :=
  format.minBits + 2 ^ format.width - 1

/-- A value of the format, stored as an integer number of units in the last place. -/
structure Fixed (format : Format) where
  bits : Int
  lower : format.minBits ≤ bits
  upper : bits ≤ format.maxBits
  deriving DecidableEq

namespace Fixed

variable {format target : Format}

theorem ext_bits {a b : Fixed format} (same : a.bits = b.bits) : a = b := by
  cases a
  cases b
  simp_all

instance : LT (Fixed format) := ⟨fun a b => a.bits < b.bits⟩
instance : LE (Fixed format) := ⟨fun a b => a.bits ≤ b.bits⟩

instance (a b : Fixed format) : Decidable (a < b) := inferInstanceAs (Decidable (a.bits < b.bits))
instance (a b : Fixed format) : Decidable (a ≤ b) := inferInstanceAs (Decidable (a.bits ≤ b.bits))

theorem lt_def (a b : Fixed format) : a < b ↔ a.bits < b.bits := Iff.rfl
theorem le_def (a b : Fixed format) : a ≤ b ↔ a.bits ≤ b.bits := Iff.rfl

def fromBits (bits : Int) : Option (Fixed format) :=
  if range : format.minBits ≤ bits ∧ bits ≤ format.maxBits then
    some ⟨bits, range.1, range.2⟩
  else none

theorem fromBits_some (bits : Int) (a : Fixed format) :
    fromBits bits = some a ↔ bits = a.bits := by
  unfold fromBits
  split
  · rename_i range
    constructor
    · intro same
      cases same
      rfl
    · intro same
      exact congrArg some (ext_bits same)
  · rename_i outside
    constructor
    · intro same
      cases same
    · rintro rfl
      exact absurd ⟨a.lower, a.upper⟩ outside

def checkedAdd (a b : Fixed format) : Option (Fixed format) := fromBits (a.bits + b.bits)

def checkedSub (a b : Fixed format) : Option (Fixed format) := fromBits (a.bits - b.bits)

def checkedMul (a b : Fixed format) : Option (Fixed format) :=
  fromBits (a.bits * b.bits / 2 ^ format.frac)

def checkedDiv (a b : Fixed format) : Option (Fixed format) :=
  if b.bits = 0 then none else fromBits ((a.bits * 2 ^ format.frac).tdiv b.bits)

def checkedToFixed (a : Fixed format) : Option (Fixed target) :=
  fromBits (a.bits * 2 ^ target.frac / 2 ^ format.frac)

def floor (a : Fixed format) : Int := a.bits / 2 ^ format.frac

def hasFraction (a : Fixed format) : Bool := a.bits % 2 ^ format.frac ≠ 0

def wrap (format : Format) (bits : Int) : Int :=
  format.minBits + (bits - format.minBits) % 2 ^ format.width

def checkedShl (a : Fixed format) (shift : Nat) : Option (Fixed format) :=
  if shift < format.width then fromBits (wrap format (a.bits * 2 ^ shift)) else none

def checkedShr (a : Fixed format) (shift : Nat) : Option (Fixed format) :=
  if shift < format.width then fromBits (a.bits / 2 ^ shift) else none

theorem wrap_of_range (bits : Int) (lower : format.minBits ≤ bits)
    (upper : bits ≤ format.maxBits) : wrap format bits = bits := by
  have positive : (0 : Int) < 2 ^ format.width := by positivity
  unfold wrap
  rw [Int.emod_eq_of_lt (by omega) (by unfold Format.maxBits at upper; omega)]
  omega

def toRat (a : Fixed format) : ℚ := (a.bits : ℚ) / 2 ^ format.frac

theorem toRat_le {a b : Fixed format} : a.toRat ≤ b.toRat ↔ a ≤ b := by
  unfold toRat
  rw [div_le_div_iff_of_pos_right (by positivity), le_def]
  exact_mod_cast Iff.rfl

theorem toRat_lt {a b : Fixed format} : a.toRat < b.toRat ↔ a < b := by
  unfold toRat
  rw [div_lt_div_iff_of_pos_right (by positivity), lt_def]
  exact_mod_cast Iff.rfl

theorem toRat_nonneg {a : Fixed format} : 0 ≤ a.toRat ↔ 0 ≤ a.bits := by
  unfold toRat
  rw [le_div_iff₀ (by positivity), zero_mul]
  exact_mod_cast Iff.rfl

theorem mul_bits_le {a b c d : Fixed format} :
    a.toRat * b.toRat ≤ c.toRat * d.toRat ↔ a.bits * b.bits ≤ c.bits * d.bits := by
  unfold toRat
  rw [div_mul_div_comm, div_mul_div_comm, div_le_div_iff_of_pos_right (by positivity)]
  exact_mod_cast Iff.rfl

theorem toRat_floor_le (a : Fixed format) : (a.floor : ℚ) ≤ a.toRat := by
  unfold toRat floor
  rw [le_div_iff₀ (by positivity)]
  exact_mod_cast Int.ediv_mul_le a.bits (by positivity)

end Fixed

theorem ediv_rat_bounds (n d : Int) (positive : 0 < d) :
    ((n / d : Int) : ℚ) ≤ n / d ∧ (n / d : ℚ) < (n / d : Int) + 1 := by
  have scaled : (0 : ℚ) < d := by exact_mod_cast positive
  constructor
  · rw [le_div_iff₀ scaled]
    exact_mod_cast Int.ediv_mul_le n positive.ne'
  · rw [div_lt_iff₀ scaled]
    exact_mod_cast Int.lt_ediv_add_one_mul_self n positive

end Support
