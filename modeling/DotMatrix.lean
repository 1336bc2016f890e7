import DotMatrix.Cartridge.Title
import DotMatrix.Cpu.Flat
import DotMatrix.Cpu.Recorder
import DotMatrix.Main
import DotMatrix.Proofs.SaveFile
import DotMatrix.Proofs.Counter
import DotMatrix.Proofs.Video.Beam
import DotMatrix.Proofs.Video.Raster
import DotMatrix.Proofs.Host.Alike
import DotMatrix.Proofs.Video.Showing
import DotMatrix.Proofs.Cpu.Cost
import DotMatrix.Proofs.Cpu.Record
import DotMatrix.Proofs.Host.Refusals
import DotMatrix.Proofs.Machine.Picture
import DotMatrix.Proofs.Sound.Sampling
import DotMatrix.Proofs.Timer
import DotMatrix.Proofs.Machine.Dma
import DotMatrix.Proofs.Machine.Interrupts
import DotMatrix.Proofs.Checked.Machine
import DotMatrix.Proofs.Timer.Pace
import DotMatrix.Proofs.Machine.Sound
import DotMatrix.Proofs.Cartridge.Ram
import DotMatrix.Proofs.Sound.Readback
import DotMatrix.Proofs.Machine.Isolation
import DotMatrix.Proofs.Machine.Storage
import DotMatrix.Proofs.Player.Session
import DotMatrix.Proofs.Machine.Budget
import DotMatrix.Proofs.Video.Requests
import DotMatrix.Proofs.Video.Painter
import DotMatrix.Proofs.Cpu.FlagRegister
import DotMatrix.Proofs.Machine.Illegal
import DotMatrix.Proofs.Cartridge.Acceptance
import DotMatrix.Proofs.Machine.Settings
import DotMatrix.Proofs.Player.Picture
import DotMatrix.Proofs.Cpu.LongArithmetic
import DotMatrix.Proofs.Cpu.WordArithmetic
import DotMatrix.Proofs.Cpu.Decimal
import DotMatrix.Proofs.Cpu.LongShift
import DotMatrix.Proofs.Cpu.StackOffset
import DotMatrix.Proofs.Cpu.Traffic
import DotMatrix.Proofs.Cpu.ByteOperation
import DotMatrix.Proofs.Cpu.Routine
import DotMatrix.Proofs.Cpu.Branch
import DotMatrix.Proofs.Machine.Halt
import DotMatrix.Proofs.Video.Torus
import DotMatrix.Proofs.Video.Refusals
import DotMatrix.Proofs.Sound.Length
import DotMatrix.Proofs.Sound.Sweep
import DotMatrix.Proofs.Sound.Counters
import DotMatrix.Proofs.Sound.Phase
import DotMatrix.Proofs.Sound.Lockup
import DotMatrix.Proofs.Sound.Volume
import DotMatrix.Proofs.Checked.Edges
import DotMatrix.Proofs.Checked.Blocks
import DotMatrix.Proofs.Player.SoundOptions
