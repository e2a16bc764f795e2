/-!
# Numbers as bytes

**Results.** `byteOf` is the remainder of a whole number modulo 256, and
`toNat_byteOf_of_isByte` says that it keeps the numbers that are bytes.
-/

namespace TapeLang

/-- The remainder of a number modulo 256, as a byte. -/
def byteOf (n : Int) : UInt8 :=
  UInt8.ofNat (n % 256).toNat

/-- Whether a number is a byte as it is. -/
def isByte (n : Int) : Bool :=
  decide (0 ≤ n ∧ n < 256)

/-- The value of `byteOf` is the non-negative remainder. -/
theorem toNat_byteOf (n : Int) : ((byteOf n).toNat : Int) = n % 256 := by
  have h0 : 0 ≤ n % 256 := Int.emod_nonneg n (by decide)
  have h1 : n % 256 < 256 := Int.emod_lt_of_pos n (by decide)
  have h2 : (n % 256).toNat < 256 := by omega
  rw [byteOf, UInt8.toNat_ofNat', Nat.mod_eq_of_lt h2]
  omega

/-- A number that is a byte is kept. -/
theorem toNat_byteOf_of_isByte {n : Int} (h : isByte n = true) :
    ((byteOf n).toNat : Int) = n := by
  have hn : 0 ≤ n ∧ n < 256 := of_decide_eq_true h
  rw [toNat_byteOf]
  omega

end TapeLang
