import SecureDigital.Card.BringUp
import SecureDigital.Card.SelfTest
import SecureDigital.Card.Transfer
import SecureDigital.Device.Counter
import SecureDigital.Device.RegisterFile
import SecureDigital.Device.Scripted
import SecureDigital.Device.Simulated
import SecureDigital.Proofs.Exchange
import SecureDigital.Proofs.Run
import SecureDigital.Slot
import SecureDigital.Proofs.Execute
import SecureDigital.Proofs.Confined
import SecureDigital.Proofs.BringUp.Conduct
import SecureDigital.Proofs.BringUp.Stages
import SecureDigital.Proofs.BringUp.PowerUp
import SecureDigital.Proofs.BringUp.Course
import SecureDigital.Proofs.BringUp.Script
import SecureDigital.Proofs.BringUp.Told
import SecureDigital.Proofs.BringUp.Abort
import SecureDigital.Proofs.BringUp.Readiness
import SecureDigital.Proofs.Transcript
import SecureDigital.Proofs.Clock.Nearest
import SecureDigital.Proofs.Clock.Words
import SecureDigital.Proofs.BringUp.BusClock
import SecureDigital.Proofs.Timer
import SecureDigital.Proofs.BringUp.PowerUpLoop
import SecureDigital.Proofs.Budget
import SecureDigital.Proofs.Follows
import SecureDigital.Proofs.Patience
import SecureDigital.Proofs.Achieves
import SecureDigital.Proofs.Simulated.Commands
import SecureDigital.Proofs.Simulated.Answers
import SecureDigital.Proofs.Simulated.BringUp
import SecureDigital.Proofs.Path
import SecureDigital.Proofs.Simulated.Capacity
import SecureDigital.Proofs.Transfer.Calls
import SecureDigital.Proofs.Transfer.Address
import SecureDigital.Proofs.Alike
import SecureDigital.Proofs.Transfer.Phases
import SecureDigital.Proofs.Transfer.Rearming
import SecureDigital.Proofs.Transfer.Store
import SecureDigital.Proofs.Simulated.Transfers
import SecureDigital.Proofs.BringUp.Stepwise
import SecureDigital.Proofs.InFlight
import SecureDigital.Proofs.Transfer.Failure
import SecureDigital.Proofs.Simulated.SelfTest
import SecureDigital.Proofs.Simulated.Faults
import SecureDigital.Proofs.Clock.FirstNearest
import SecureDigital.Proofs.Clock.Order
import SecureDigital.Proofs.Console.Install
import SecureDigital.Proofs.Slot
import SecureDigital.Proofs.Guarded
import SecureDigital.Proofs.BringUp.Scratch
import SecureDigital.Proofs.Simulated.Scratch
import SecureDigital.Proofs.Registers.Fields
import SecureDigital.Proofs.Registers.Cid
import SecureDigital.Proofs.Registers.Csd
import SecureDigital.Proofs.Registers.Scr
import SecureDigital.Proofs.Registers.SwitchStatus
import SecureDigital.Proofs.Timer.Countdown
import SecureDigital.Proofs.Console.Reentry
