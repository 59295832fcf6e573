import SecureDigital.Driver

/-!
# A device that counts

Every register of a `Counter` reads how often registers have been read, this time included.
`Counter.probe` polls it for a given count.
-/

namespace SecureDigital

structure Counter where
  reads : Nat

namespace Counter

instance : Device Counter where
  write c _ _ := some c
  read c _ := (UInt32.ofNat (c.reads + 1), ⟨c.reads + 1⟩)
  readMemory c _ length := some (Vector.replicate length 0, c)
  writeMemory c _ _ := some c

/-- Reads once and yields the count if it is `hit`. -/
def probe (hit : Option UInt32) : Driver Counter (Option UInt32) := do
  let count ← Driver.read .timerValue
  return if hit = some count then some count else none

end Counter

end SecureDigital
