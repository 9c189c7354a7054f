import PicoDsp.Lib.Transition
import PicoDsp.Lib.Handover
import PicoDsp.Lib.Keyboard
import PicoDsp.Lib.LastStruck
import PicoDsp.Lib.DelayLine
import PicoDsp.Lib.Glide
import PicoDsp.Lib.Proc
import PicoDsp.Lib.Bounded
import PicoDsp.Lib.NorFlash
import PicoDsp.Lib.Bytes
import PicoDsp.Lib.Slice
import PicoDsp.Lib.F32
import PicoDsp.Data.Presets
import PicoDsp.Data.Factory
import PicoDsp.Data.Storage
import PicoDsp.Data.StorageSpec
import PicoDsp.Data.StorageRefines
import PicoDsp.Control.NoteStack
import PicoDsp.Control.MidiControl
import PicoDsp.Control.CcMap
import PicoDsp.Control.CcSpec
import PicoDsp.Control.Seeds
import PicoDsp.Control.Sysex
import PicoDsp.Control.Midi
import PicoDsp.Control.MidiSpec
import PicoDsp.Control.MidiRun
import PicoDsp.Control.PresetEdit
import PicoDsp.Control.KeyTracking
import PicoDsp.Control.LastNote
import PicoDsp.Control.SysexReceiver
import PicoDsp.Control.BankSafety
import PicoDsp.Control.BankCommit
import PicoDsp.Control.DumpWriteBack
import PicoDsp.Control.Restart
import PicoDsp.Control.BootMirror
import PicoDsp.Control.PresetIndex
import PicoDsp.Dsp.MidiGate
import PicoDsp.Dsp.PsramDelay
import PicoDsp.Dsp.StockDelay
import PicoDsp.Lib.Ieee
import PicoDsp.Lib.While
import PicoDsp.Dsp.DelayLoops
import PicoDsp.Dsp.MidiFreq
import PicoDsp.Dsp.MoogOscillators
import PicoDsp.Usb.CommandListener
import PicoDsp.Bt.BleMidi
import PicoDsp.Bt.BlePacket
import PicoDsp.Bt.BleSafety
import PicoDsp.Bt.Advertising
import PicoDsp.System.Core1
import PicoDsp.System.PsramGate
import PicoDsp.System.Firmware
import PicoDsp.System.PowerUp
import PicoDsp.System.VoiceSync
import PicoDsp.System.PresetFlow
import PicoDsp.System.LiveSync
import PicoDsp.System.StuckNotes
import PicoDsp.Lib.Cells
import PicoDsp.Control.CcCells
import PicoDsp.Lib.Cycle
import PicoDsp.Control.SoftPedal
import PicoDsp.Lib.Tape
import PicoDsp.Usb.MicrophoneTask
import PicoDsp.Lib.BumpHeap
import PicoDsp.System.DelayMemory
import PicoDsp.Control.StackInvariant
import PicoDsp.Lib.Decoder
import PicoDsp.System.SelfTest
import PicoDsp.Lib.Flow
import PicoDsp.System.AudioPath
import PicoDsp.System.AudioRun
import PicoDsp.System.AudioStream
import PicoDsp.System.UsbTee
import PicoDsp.System.GateOrder
import PicoDsp.System.AudioGate
import PicoDsp.System.Telemetry
import PicoDsp.Dsp.Envelope
import PicoDsp.Dsp.Amplifier
import PicoDsp.Lib.Exchange
import PicoDsp.Tools.Midictl
import PicoDsp.Tools.Session
import PicoDsp.Bt.Central
import PicoDsp.System.Radio
import PicoDsp.Lib.LongestRun
import PicoDsp.System.FlashDiag
import PicoDsp.Lib.Stable
import PicoDsp.Lib.RingBuffer
import PicoDsp.Dsp.Reverb
import PicoDsp.Dsp.Ladder
import PicoDsp.Lib.Lcg
import PicoDsp.Dsp.Oscillator
import PicoDsp.Dsp.EchoBound
import PicoDsp.Dsp.Effects
