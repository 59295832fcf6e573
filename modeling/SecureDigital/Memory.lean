/-!
# Byte-addressed memory

`Memory` gives every 32-bit address a byte; addresses wrap around. `load` and `store` move runs of
bytes, `inBounds` tells whether a run lies in the lowest `size` bytes. An empty run has to start
there too.
-/

namespace SecureDigital

def Memory : Type := UInt32 → UInt8

namespace Memory

def zero : Memory := fun _ => 0

def load (m : Memory) (start : UInt32) (length : Nat) : Vector UInt8 length :=
  Vector.ofFn fun i => m (start + UInt32.ofNat i)

def store (m : Memory) (start : UInt32) (bytes : Array UInt8) : Memory := fun address =>
  match bytes[(address - start).toNat]? with
  | some byte => byte
  | none => m address

/-- Whether `length` bytes from `start` up lie below `size`. -/
def inBounds (size : Nat) (start : UInt32) (length : Nat) : Bool := start.toNat + length ≤ size

def load? (m : Memory) (size : Nat) (start : UInt32) (length : Nat) : Option (Vector UInt8 length) :=
  if inBounds size start length then some (m.load start length) else none

def store? (m : Memory) (size : Nat) (start : UInt32) (bytes : Array UInt8) : Option Memory :=
  if inBounds size start bytes.size then some (m.store start bytes) else none

variable {m : Memory} {start address : UInt32} {bytes : Array UInt8} {length i : Nat}

theorem store_apply : m.store start bytes address = (bytes[(address - start).toNat]?).getD (m address) := by
  unfold store; split <;> simp_all

theorem store_outside (h : bytes.size ≤ (address - start).toNat) :
    m.store start bytes address = m address := by
  rw [store_apply, Array.getElem?_eq_none h, Option.getD_none]

theorem store_inside (h : i < bytes.size) (hi : i < UInt32.size) :
    m.store start bytes (start + UInt32.ofNat i) = bytes[i] := by
  have hsub : start + UInt32.ofNat i - start = UInt32.ofNat i := by
    rw [UInt32.add_comm, UInt32.add_sub_cancel]
  have hnat : (UInt32.ofNat i).toNat = i := by
    rw [UInt32.toNat_ofNat']
    exact Nat.mod_eq_of_lt hi
  rw [store_apply, hsub, hnat, Array.getElem?_eq_getElem h, Option.getD_some]

theorem getElem_load (h : i < length) : (m.load start length)[i] = m (start + UInt32.ofNat i) := by
  simp [load]

theorem load_store (hsize : bytes.size = length) (h : length ≤ UInt32.size) :
    ((m.store start bytes).load start length).toArray = bytes := by
  apply Array.ext
  · simpa using hsize.symm
  · intro i _ hi
    have hload : ((m.store start bytes).load start length)[i] = _ := getElem_load (hsize ▸ hi)
    rw [store_inside hi (by omega)] at hload
    exact hload

theorem load_store_vector (m : Memory) (start : UInt32) (bytes : Vector UInt8 length) (h : length ≤ UInt32.size) :
    (m.store start bytes.toArray).load start length = bytes :=
  Vector.toArray_inj.1 (load_store bytes.size_toArray h)

theorem load?_eq_some_iff {size : Nat} {v : Vector UInt8 length} :
    m.load? size start length = some v ↔ start.toNat + length ≤ size ∧ m.load start length = v := by
  simp [load?, inBounds]

theorem store?_eq_some_iff {size : Nat} {m' : Memory} :
    m.store? size start bytes = some m' ↔
      start.toNat + bytes.size ≤ size ∧ m.store start bytes = m' := by
  simp [store?, inBounds]

end Memory

end SecureDigital
