import SecureDigital.Card.Transfer

/-!
# Testing a block with a pattern

`Card.selfTest` writes the words 0, 1, …, 127 to a block, clears the buffer it reads back into and
compares what comes back word by word. Words have their low byte first.
-/

namespace SecureDigital.Card

variable {σ : Type} [Device σ]

def blockWords : Nat := 128

/-- The bytes of the words 0 to 127. -/
def pattern : Array UInt8 :=
  Array.ofFn fun i : Fin 512 => UInt8.ofNat ((i.val / 4) >>> (8 * (i.val % 4)))

def wordAt (block : Vector UInt8 512) (position : Fin 128) : UInt32 :=
  UInt32.ofNat (block[4 * position.val].toNat + 256 * block[4 * position.val + 1].toNat +
    65536 * block[4 * position.val + 2].toNat + 16777216 * block[4 * position.val + 3].toNat)

/-- The words of a block that differ from the pattern, with their positions. -/
def wrongWords (block : Vector UInt8 512) : List (Nat × UInt32) :=
  (List.finRange blockWords).filterMap fun position =>
    let got := wordAt block position
    if got.toNat = position.val then none else some (position.val, got)

def checkData (transfer : Driver σ Status) : Fallible σ Unit := do
  let status ← .lift transfer
  .mk (pure (status.check .data))

/-- Writes the pattern to `block` by way of the buffer at `src`, and reads it back to `dst`. The
block's contents are lost. -/
def selfTest (card : Card) (block src dst : UInt32) : Fallible σ Unit := do
  .lift <| Driver.note (.selfTestStarted block)
  .lift <| Driver.writeMemory src pattern
  checkData (card.writeBlock block src)
  .lift <| Driver.writeMemory dst (Array.replicate 512 0)
  checkData (card.readBlock block dst)
  let readBack ← .lift (Driver.readMemory dst 512)
  let wrong := wrongWords readBack
  .lift <| Driver.notes (wrong.map fun (position, got) => .wrongWord position got)
  if wrong.isEmpty then .lift <| Driver.note .selfTestPassed
  else
    .lift <| Driver.note (.selfTestFailed wrong.length blockWords)
    throw (.selfTestMismatch wrong.length)

end SecureDigital.Card
