/-!
# Radix — numbers as digits of a fixed base, most significant first

    Octets, words and numerals are all digits of some base.  `digits` writes
    the lowest digits of a number, `value` reads digits back.
-/

namespace Subnet.Radix

/-- The `count` lowest digits of `v` in base `base`, most significant first. -/
def digits (base : Nat) : (count v : Nat) → List Nat
  | 0, _ => []
  | count + 1, v => digits base count (v / base) ++ [v % base]

/-- The number that digits of base `base` denote, most significant first. -/
def value (base : Nat) (ds : List Nat) : Nat :=
  ds.foldl (fun v d => v * base + d) 0

/-- As many digits are written as were asked for. -/
@[simp] theorem length_digits (base count v : Nat) :
    (digits base count v).length = count := by
  induction count generalizing v with
  | zero => rfl
  | succ count ih => simp [digits, ih]

end Subnet.Radix
