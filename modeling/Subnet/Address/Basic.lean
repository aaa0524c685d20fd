import Subnet.Family

/-!
# Addresses — fixed-width unsigned numbers tagged with their family

    The invariant `value_lt` holds by construction, so every operation wraps
    into the width of its first operand's family.
-/

namespace Subnet

/-- An address: its family and its value, most significant bit first on the
    wire. -/
@[ext] structure Address where
  family : Family
  value : Nat
  value_lt : value < family.size
  deriving DecidableEq

namespace Address

/-- The address of the low bits of a natural number. -/
def ofNat (f : Family) (n : Nat) : Address :=
  ⟨f, n % f.size, Nat.mod_lt n f.size_pos⟩

/-- The address of the low bits of an integer in two's complement. -/
def ofInt (f : Family) (n : Int) : Address :=
  ofNat f (n % (f.size : Int)).toNat

/-- The bits set in both values; family and width are those of `a`. -/
def land (a b : Address) : Address :=
  ofNat a.family (Nat.land a.value b.value)

/-- The bits set in either value; family and width are those of `a`. -/
def lor (a b : Address) : Address :=
  ofNat a.family (Nat.lor a.value b.value)

/-- Every bit flipped. -/
def complement (a : Address) : Address :=
  ofNat a.family (a.family.allOnes - a.value)

/-- The address `n` steps further on, wrapping at both ends. -/
def offset (a : Address) (n : Int) : Address :=
  ofInt a.family ((a.value : Int) + n)

/-- A number gives an address of the family that was named. -/
@[simp] theorem family_ofNat (f : Family) (n : Nat) : (ofNat f n).family = f := rfl

/-- An integer gives an address of the family that was named. -/
@[simp] theorem family_ofInt (f : Family) (n : Int) : (ofInt f n).family = f := rfl

/-- The first operand decides the family of bits in common. -/
@[simp] theorem family_land (a b : Address) : (a.land b).family = a.family := rfl

/-- The first operand decides the family of bits of either. -/
@[simp] theorem family_lor (a b : Address) : (a.lor b).family = a.family := rfl

/-- The complement stays within the family. -/
@[simp] theorem family_complement (a : Address) : a.complement.family = a.family := rfl

/-- A step stays within the family. -/
@[simp] theorem family_offset (a : Address) (n : Int) : (a.offset n).family = a.family := rfl

/-- Numbers beyond the width wrap around. -/
@[simp] theorem value_ofNat (f : Family) (n : Nat) :
    (ofNat f n).value = n % f.size := rfl

/-- Taking the low bits of an address's own value gives it back. -/
@[simp] theorem ofNat_value (a : Address) : ofNat a.family a.value = a := by
  ext
  · rfl
  · exact Nat.mod_eq_of_lt a.value_lt

end Address

end Subnet
