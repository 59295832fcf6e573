import SecureDigital.Register

/-!
# Devices

A `Device` is a controller with the memory that its DMA units see, given by how its state answers
each access. It may refuse a write to a register or an access to memory (`none`), never a read of a
register. An `Access` is one such access as a run of the driver records it.
-/

namespace SecureDigital

class Device (σ : Type) where
  write : σ → ControlRegister → UInt32 → Option σ
  read : σ → StatusRegister → UInt32 × σ
  readMemory : σ → (address : UInt32) → (length : Nat) → Option (Vector UInt8 length × σ)
  writeMemory : σ → (address : UInt32) → Array UInt8 → Option σ

inductive Access
  | write (register : ControlRegister) (value : UInt32)
  /-- The value is the one that was read. -/
  | read (register : StatusRegister) (value : UInt32)
  /-- The bytes are those that were read; there are none if the device refused. -/
  | readMemory (address : UInt32) (length : Nat) (bytes : Array UInt8)
  | writeMemory (address : UInt32) (bytes : Array UInt8)
deriving DecidableEq

end SecureDigital
