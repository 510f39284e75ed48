import BleHub.Lib.BitMask
import BleHub.Lib.ByteBuffer
import BleHub.Lib.Checksum
import BleHub.Lib.DeltaList
import BleHub.Lib.Exec
import BleHub.Lib.History
import BleHub.Lib.LengthPrefixed
import BleHub.Lib.NorFlash
import BleHub.Lib.RingBuffer
import BleHub.Lib.StepMachine
import BleHub.Stack.Gpio
import BleHub.Stack.Interface
import BleHub.Stack.SoftDevice
import BleHub.Firmware.State
import BleHub.Firmware.ConnParams
import BleHub.Firmware.Main
import BleHub.Firmware.Reaction
import BleHub.Firmware.Plan
import BleHub.Firmware.Trace
import BleHub.Firmware.AppTimer
import BleHub.Firmware.System
import BleHub.Firmware.AppScheduler
import BleHub.Firmware.EventPath
import BleHub.Firmware.TimedTimer
import BleHub.Firmware.PreemptedTimer
import BleHub.Firmware.AdvData
import BleHub.Firmware.Flash
import BleHub.Firmware.Gpiote
import BleHub.Firmware.AppButton
import BleHub.Proofs.TimerList
import BleHub.Proofs.RunningTimers
import BleHub.Proofs.TimerAgenda
import BleHub.Proofs.TimerExpiry
import BleHub.Proofs.TimerOnce
import BleHub.Proofs.TimerCompare
import BleHub.Proofs.PreemptedTimer
import BleHub.Proofs.Plan
import BleHub.Proofs.Tracking
import BleHub.Proofs.Coherence
import BleHub.Proofs.KeySlot
import BleHub.Proofs.Negotiation
import BleHub.Proofs.PeerReset
import BleHub.Proofs.TimerContexts
import BleHub.Proofs.SoleTimer
import BleHub.Proofs.System
import BleHub.Proofs.Stalling
import BleHub.Proofs.Leaking
import BleHub.Proofs.AppScheduler
import BleHub.Proofs.EventPath
import BleHub.Proofs.Delivery
import BleHub.Proofs.SchedQueue
import BleHub.Proofs.AdvStructure
import BleHub.Proofs.AdvEncoding
import BleHub.Proofs.AdvPacket
import BleHub.Proofs.Crc16
import BleHub.Proofs.Flash
import BleHub.Proofs.Gpiote
import BleHub.Proofs.GpioteSense
import BleHub.Proofs.AppButton
