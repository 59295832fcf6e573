/-!
# Register words

A `Field` is a run of bits in a 32-bit word: `Field.read` cuts it out, `Field.place` puts a value
there and drops what does not fit. `mulSaturating` is the product that stops at the largest word.
-/

namespace SecureDigital

/-- The bits `offset, …, offset + width - 1` of a word. -/
structure Field where
  offset : UInt32
  width : UInt32
deriving DecidableEq

namespace Field

def mask (f : Field) : UInt32 := (1 <<< f.width) - 1

def read (f : Field) (word : UInt32) : UInt32 := (word >>> f.offset) &&& f.mask

/-- The word that holds `value`, cut to the field's width, and zeros around it. -/
def place (f : Field) (value : UInt32) : UInt32 := (value &&& f.mask) <<< f.offset

end Field

def testBit (word : UInt32) (n : Nat) : Bool := word.toNat.testBit n

def maxWord : Nat := UInt32.size - 1

/-- The product of two words, or the largest word where the product does not fit one. -/
def mulSaturating (a b : UInt32) : UInt32 := UInt32.ofNat (min (a.toNat * b.toNat) maxWord)

theorem toNat_mulSaturating (a b : UInt32) :
    (mulSaturating a b).toNat = min (a.toNat * b.toNat) maxWord := by
  have hmax : maxWord < UInt32.size := by decide
  rw [mulSaturating, UInt32.toNat_ofNat']
  exact Nat.mod_eq_of_lt (Nat.lt_of_le_of_lt (Nat.min_le_right _ _) hmax)

end SecureDigital
