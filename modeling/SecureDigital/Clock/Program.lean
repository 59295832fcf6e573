import SecureDigital.Driver

/-!
# Programming the bus clock and waiting on the timer

`Clock.program` writes the ratio nearest to a frequency into the clock generator, one counter after
the other, each as soon as the generator has taken the one before. `Timer.delay` loads the countdown
timer once and polls it down to zero. Both wait without bound.
-/

namespace SecureDigital

variable {σ : Type} [Device σ]

namespace Clock

def multiplierAddress : UInt32 := 0x14

def dividerAddress : UInt32 := 0x16

/-- The counters of the two outputs, which stay at a tenth and at a half. -/
def outputCounters : List (UInt32 × UInt32) :=
  [(0x08, Ratio.counterFlag ||| Ratio.halfCounts 10), (0x0A, Ratio.counterFlag ||| Ratio.halfCounts 2)]

/-- The counters, by address, that set the generator to `ratio`. -/
def counters (ratio : Ratio) : List (UInt32 × UInt32) :=
  (multiplierAddress, ratio.multiplierWord) :: (dividerAddress, ratio.dividerWord) :: outputCounters

def awaitReady : Driver σ Unit :=
  Driver.repeatUntil do
    let ready ← Driver.read .pllReady
    pure (if ready = 0 then none else some ())

def writeCounter (address word : UInt32) : Driver σ Unit := do
  Driver.write .pllAddress address
  Driver.write .pllData word
  Driver.write .pllWrite 1
  awaitReady

def program (khz : UInt32) : Driver σ Ratio := do
  let ratio := Ratio.nearest khz.toNat
  Driver.note (.clockSet khz ratio)
  (counters ratio).forM fun (address, word) => writeCounter address word
  return ratio

end Clock

namespace Timer

/-- The count for `ms` milliseconds of a clock of `sysClkHz`, in whole ticks a millisecond. -/
def ticks (sysClkHz ms : UInt32) : UInt32 := mulSaturating (sysClkHz / 1000) ms

def awaitZero : Driver σ Unit :=
  Driver.repeatUntil do
    Driver.write .timerUpdate 1
    let count ← Driver.read .timerValue
    pure (if count = 0 then some () else none)

def delay (sysClkHz ms : UInt32) : Driver σ Unit := do
  Driver.write .timerEnable 0
  Driver.write .timerReload 0
  Driver.write .timerLoad (ticks sysClkHz ms)
  Driver.write .timerEnable 1
  awaitZero

end Timer

end SecureDigital
