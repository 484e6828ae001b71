/-!
# Binary64 numbers

A number is a word of 64 bits: a sign bit above a *rank* of 63 bits. Ranks count the magnitudes
upwards from zero, so the order of numbers is the order of signed ranks, `key`; the rank of
infinity comes after every finite magnitude, and the ranks above it are not numbers.

The magnitude of a rank is a whole number of *units*, where one unit is `2 ^ (-1074)`, the
smallest positive number.
-/

namespace Conditions

/-- A binary floating-point number of 64 bits. -/
structure Binary64 where
  /-- The word that holds the sign and the rank. -/
  bits : UInt64
  deriving DecidableEq, Inhabited

namespace Binary64

/-- The value of the sign bit, which is also the number of ranks. -/
def signBit : Nat := 0x8000000000000000

/-- The rank of infinity. -/
def infinityRank : Nat := 0x7ff0000000000000

/-- The number with a sign and a rank. -/
def ofRank (negative : Bool) (rank : Nat) : Binary64 :=
  ⟨UInt64.ofNat (rank + if negative then signBit else 0)⟩

/-- Positive zero. -/
def zero : Binary64 := ofRank false 0

/-- The number one. -/
def one : Binary64 := ofRank false 0x3ff0000000000000

/-- Infinity of either sign. -/
def infinity (negative : Bool) : Binary64 := ofRank negative infinityRank

/-- The word that stands for "not a number" where a result has none. -/
def nan : Binary64 := ofRank false 0x7ff8000000000000

/-- Whether the sign bit is set. -/
def negative (x : Binary64) : Bool := decide (signBit ≤ x.bits.toNat)

/-- The word without its sign bit. -/
def rank (x : Binary64) : Nat := x.bits.toNat % signBit

/-- Whether the word stands for no number. -/
def isNaN (x : Binary64) : Bool := decide (infinityRank < x.rank)

/-- Whether the word stands for a number other than the infinities. -/
def isFinite (x : Binary64) : Bool := decide (x.rank < infinityRank)

/-- The signed rank, which orders the numbers and makes the two zeros one. -/
def key (x : Binary64) : Int := if x.negative then -(x.rank : Int) else x.rank

/-- Equality of numbers: nothing equals "not a number", and the two zeros are equal. -/
def eq (x y : Binary64) : Bool := !x.isNaN && !y.isNaN && x.key == y.key

/-- Order of numbers: nothing is below or above "not a number". -/
def lt (x y : Binary64) : Bool := !x.isNaN && !y.isNaN && decide (x.key < y.key)

/-! ### Magnitudes -/

/-- The number of ranks, `2 ^ 52`, between a magnitude and its double. -/
def ranksPerShift : Nat := 0x10000000000000

/-- The whole number of units `2 ^ shift rank` in which a magnitude is counted. -/
def significand (rank : Nat) : Nat :=
  if rank < ranksPerShift then rank else ranksPerShift + rank % ranksPerShift

/-- The power of two by which the significand of a rank is scaled, over the smallest unit. -/
def shift (rank : Nat) : Nat := rank / ranksPerShift - 1

/-- The magnitude of a rank, in units of `2 ^ (-1074)`. -/
def units (rank : Nat) : Nat := significand rank * Nat.pow 2 (shift rank)

/-! ### Signs and ranks -/

@[simp] theorem negative_ofRank {s : Bool} {r : Nat} (h : r < signBit) :
    (ofRank s r).negative = s := by
  simp only [signBit] at h
  cases s <;> simp only [negative, ofRank, signBit, UInt64.toNat_ofNat'] <;> simp <;> omega

@[simp] theorem rank_ofRank {s : Bool} {r : Nat} (h : r < signBit) : (ofRank s r).rank = r := by
  simp only [signBit] at h
  cases s <;> simp only [rank, ofRank, signBit, UInt64.toNat_ofNat'] <;> simp <;> omega

end Binary64

end Conditions
