import SecureDigital.Card.BringUp
import SecureDigital.Card.Transfer

/-!
# The slot

A `Slot` keeps the one card that the rest of the system works with. `Slot.fill` brings a card up and
keeps it if that succeeds; a card kept before is gone either way. The other operations work on the
kept card, and refuse without touching the device if there is none.
-/

namespace SecureDigital

structure Slot where
  card : Option Card

namespace Slot

variable {σ : Type} [Device σ] {α : Type}

def empty : Slot := ⟨none⟩

def isFilled (slot : Slot) : Bool := slot.card.isSome

/-- Brings up the card behind the controller at bus address `base`; the slot that comes back holds it,
or nothing, whatever the slot held before. -/
def fill (base : UInt32) (config : Config) : Driver σ (Except Error Unit × Slot) := do
  Driver.note (.slotFilling base)
  match ← (Card.bringUp config).run with
  | .ok card => return (.ok (), ⟨some card⟩)
  | .error cause =>
    Driver.note (.slotLeftEmpty cause)
    return (.error cause, empty)

def withCard (slot : Slot) (f : Card → Driver σ (α × Card)) : Driver σ (Except Error α × Slot) :=
  match slot.card with
  | none => return (.error .notInitialized, slot)
  | some card => do
    let (a, card) ← f card
    return (.ok a, ⟨some card⟩)

/-- Runs a program on the kept card that leaves the card as it is. -/
def use (slot : Slot) (f : Card → Driver σ α) : Driver σ (Except Error α) := do
  let (result, _) ← slot.withCard fun card => do
    let a ← f card
    return (a, card)
  return result

def readBlock (slot : Slot) (block dest : UInt32) : Driver σ (Except Error Unit) := do
  Driver.note (.slotRead block)
  return (← slot.use (·.readBlock block dest)).bind (·.check .data)

def writeBlock (slot : Slot) (block src : UInt32) : Driver σ (Except Error Unit) := do
  Driver.note (.slotWrite block)
  return (← slot.use (·.writeBlock block src)).bind (·.check .data)

end Slot

end SecureDigital
