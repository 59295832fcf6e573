import SecureDigital.Word

/-!
# How a phase ends

A command runs in a command phase and, if it moves data, a data phase after it. Each phase has an
event word; `Status.ofEvent?` classifies it once its done bit is set. A timeout hides every other
error, and the write-error bit means something in a data phase only. `Status.check` turns a failed
phase into the `Error` it stands for.
-/

namespace SecureDigital

inductive Phase
  | command
  | data
deriving DecidableEq

/-- The known bits of an event word. -/
structure Event where
  done : Bool
  writeError : Bool
  timeout : Bool
  crcError : Bool
deriving DecidableEq

namespace Event

/-- Reads the bits 0 to 3 of `word`; the others are unknown and dropped. -/
def ofWord (word : UInt32) : Event where
  done := testBit word 0
  writeError := testBit word 1
  timeout := testBit word 2
  crcError := testBit word 3

def word (e : Event) : UInt32 :=
  e.done.toUInt32 ||| (e.writeError.toUInt32 <<< 1) ||| (e.timeout.toUInt32 <<< 2) |||
    (e.crcError.toUInt32 <<< 3)

end Event

inductive Status
  | ok
  | crcError
  | timeout
  /-- The card refused the block it was sent; in a data phase only. -/
  | writeError
deriving DecidableEq

/-- What goes wrong between the driver and its caller. -/
inductive Error
  | commandTimeout
  | commandCrcError
  | dataTimeout
  | dataCrcError
  | dataWriteError
  /-- The card did not report power-up within the attempts it was given. -/
  | cardNotReady
  /-- The command `index` of the bring-up ended with `status` under `StepPolicy.abort`. -/
  | stepFailed (index : UInt8) (status : Status)
  | notInitialized
  /-- So many words of the test pattern came back wrong. -/
  | selfTestMismatch (errors : Nat)
deriving DecidableEq

namespace Status

/-- The class of an event word, or `none` while the phase still runs. -/
def ofEvent? (phase : Phase) (e : Event) : Option Status :=
  if !e.done then none
  else if e.timeout then some timeout
  else if phase = .data ∧ e.writeError then some writeError
  else if e.crcError then some crcError
  else some ok

/-- The error that a phase ending so stands for. -/
def check (phase : Phase) : Status → Except Error Unit
  | ok => .ok ()
  | writeError => .error .dataWriteError
  | timeout =>
    match phase with
    | .command => .error .commandTimeout
    | .data => .error .dataTimeout
  | crcError =>
    match phase with
    | .command => .error .commandCrcError
    | .data => .error .dataCrcError

def name : Status → String
  | ok => "Ok"
  | crcError => "CrcError"
  | timeout => "Timeout"
  | writeError => "WriteError"

theorem check_eq_ok_iff {phase : Phase} {s : Status} : s.check phase = .ok () ↔ s = ok := by
  cases s <;> cases phase <;> simp [check]

theorem ofEvent?_eq_none_iff {phase : Phase} {e : Event} : ofEvent? phase e = none ↔ e.done = false := by
  unfold ofEvent?; split <;> simp_all; repeat' split <;> simp_all

end Status

namespace Error

def text : Error → String
  | commandTimeout => "CommandTimeout"
  | commandCrcError => "CommandCrcError"
  | dataTimeout => "DataTimeout"
  | dataCrcError => "DataCrcError"
  | dataWriteError => "DataWriteError"
  | cardNotReady => "CardNotReady"
  | stepFailed index status => s!"StepFailed \x7b index: {index}, status: {status.name} \x7d"
  | notInitialized => "NotInitialized"
  | selfTestMismatch errors => s!"SelfTestMismatch \x7b errors: {errors} \x7d"

end Error

end SecureDigital
