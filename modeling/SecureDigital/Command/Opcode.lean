/-!
# The commands of the SD protocol that the driver uses

An application command is launched right after APP_CMD and counts from a table of its own, so
SWITCH_FUNC and SET_BUS_WIDTH share an index. `Opcode.ofIndex?` tells what an index means: after
APP_CMD it means an application command if there is one of that index, and else the plain command.
-/

namespace SecureDigital

inductive Opcode
  | goIdleState
  | allSendCid
  | sendRelativeAddr
  | switchFunc
  | selectCard
  | sendIfCond
  | sendCsd
  | sendCid
  | sendStatus
  | setBlocklen
  | readSingleBlock
  | writeSingleBlock
  | appCmd
  | setBusWidth
  | sendOpCond
  | sendScr
deriving DecidableEq

namespace Opcode

def index : Opcode → UInt8
  | goIdleState => 0
  | allSendCid => 2
  | sendRelativeAddr => 3
  | switchFunc => 6
  | selectCard => 7
  | sendIfCond => 8
  | sendCsd => 9
  | sendCid => 10
  | sendStatus => 13
  | setBlocklen => 16
  | readSingleBlock => 17
  | writeSingleBlock => 24
  | appCmd => 55
  | setBusWidth => 6
  | sendOpCond => 41
  | sendScr => 51

/-- Whether the command has to follow APP_CMD. -/
def isApplication : Opcode → Bool
  | setBusWidth | sendOpCond | sendScr => true
  | _ => false

def name : Opcode → String
  | goIdleState => "GO_IDLE_STATE"
  | allSendCid => "ALL_SEND_CID"
  | sendRelativeAddr => "SEND_RELATIVE_ADDR"
  | switchFunc => "SWITCH_FUNC"
  | selectCard => "SELECT_CARD"
  | sendIfCond => "SEND_IF_COND"
  | sendCsd => "SEND_CSD"
  | sendCid => "SEND_CID"
  | sendStatus => "SEND_STATUS"
  | setBlocklen => "SET_BLOCKLEN"
  | readSingleBlock => "READ_SINGLE_BLOCK"
  | writeSingleBlock => "WRITE_SINGLE_BLOCK"
  | appCmd => "APP_CMD"
  | setBusWidth => "SET_BUS_WIDTH"
  | sendOpCond => "SD_SEND_OP_COND"
  | sendScr => "SEND_SCR"

def all : List Opcode :=
  [goIdleState, allSendCid, sendRelativeAddr, switchFunc, selectCard, sendIfCond, sendCsd, sendCid,
    sendStatus, setBlocklen, readSingleBlock, writeSingleBlock, appCmd, setBusWidth, sendOpCond,
    sendScr]

theorem mem_all (op : Opcode) : op ∈ all := by cases op <;> decide

/-- The command that `index` means to the card; `afterAppCmd` tells whether APP_CMD came before. -/
def ofIndex? (afterAppCmd : Bool) (index : UInt8) : Option Opcode :=
  (all.find? fun op => op.index == index && op.isApplication == afterAppCmd) <|>
    all.find? fun op => op.index == index && !op.isApplication

theorem ofIndex?_index (op : Opcode) : ofIndex? op.isApplication op.index = some op := by
  cases op <;> decide

def label (op : Opcode) : String :=
  (if op.isApplication then "ACMD" else "CMD") ++ s!"{op.index} ({op.name})"

end Opcode

end SecureDigital
