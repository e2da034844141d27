import Xemu.Lib.Word
import Xemu.Lib.Deposit
import Xemu.Lib.Loop
import Xemu.Lib.Memory
import Xemu.Lib.Cache
import Xemu.Lib.Logged
import Xemu.Lib.NodeList
import Xemu.Lib.BlockStream
import Xemu.Lib.Sha1Spec
import Xemu.Lib.LinkList
import Xemu.Lib.FirstMax
import Xemu.Lib.Ring
import Xemu.Lib.Simulation
import Xemu.Dsp.Arith56
import Xemu.Dsp.Core
import Xemu.Dsp.LoopControl
import Xemu.Dsp.Opcache
import Xemu.Dsp.Shift56
import Xemu.Dsp.Scaling
import Xemu.Dsp.AddressGen
import Xemu.Dsp.ScratchDma
import Xemu.Dsp.Interrupts
import Xemu.Nv2a.Swizzle
import Xemu.Nv2a.SwizzleCover
import Xemu.Nv2a.PrimRewrite
import Xemu.Nv2a.Texture
import Xemu.Nv2a.DrawBatch
import Xemu.Nv2a.S3tc
import Xemu.Nv2a.BatchBounds
import Xemu.Nv2a.InlineValues
import Xemu.Qemu.Lru
import Xemu.Apu.VoiceWork
import Xemu.Apu.Envelope
import Xemu.Apu.VoiceSamples
import Xemu.Apu.Frame
import Xemu.Apu.VoiceList
import Xemu.Util.Sha1
import Xemu.Util.Rc4
import Xemu.Xbox.EepromGeneration
import Xemu.Net.Nvnet
import Xemu.Net.TxRing
