import RCarM3N.Lib.Prog
import RCarM3N.Lib.Returns
import RCarM3N.Lib.Bytes
import RCarM3N.Lib.Montgomery
import RCarM3N.Model.AvbRsa
import RCarM3N.Model.VbMeta
import RCarM3N.Proofs.AvbRsa
import RCarM3N.Proofs.VbMeta
import RCarM3N.Proofs.VbDescriptors
import RCarM3N.Proofs.AvbUtf8
import RCarM3N.Model.AvbOps
import RCarM3N.Model.AvbCmdline
import RCarM3N.Model.SlotVerify
import RCarM3N.Proofs.AvbCmdline
import RCarM3N.Proofs.SlotVerify
import RCarM3N.Proofs.SlotChain
import RCarM3N.Proofs.SlotReturns
import RCarM3N.Proofs.SlotFlow
import RCarM3N.Lib.Crc
import RCarM3N.Lib.Sha256
import RCarM3N.Lib.Runs
import RCarM3N.Lib.Search
import RCarM3N.Model.AbData
import RCarM3N.Model.Emmc
import RCarM3N.Model.Gpt
import RCarM3N.Model.LoadArea
import RCarM3N.Model.IoDrv
import RCarM3N.Model.IoRcar
import RCarM3N.Model.Pwrc
import RCarM3N.Model.IicDvfs
import RCarM3N.Model.EmmcCmd
import RCarM3N.Model.EmmcSector
import RCarM3N.Model.FbCommand
import RCarM3N.Model.FbDownload
import RCarM3N.Model.Sha256Armv8
import RCarM3N.Model.Sha256Portable
import RCarM3N.Model.IplCheck
import RCarM3N.Model.Bl2AbFlow
import RCarM3N.Model.UBootAb
import RCarM3N.Model.AvbIo
import RCarM3N.Proofs.Sha256
import RCarM3N.Proofs.Codec
import RCarM3N.Proofs.Misc
import RCarM3N.Proofs.Bl2Misc
import RCarM3N.Proofs.Bl2Flow
import RCarM3N.Proofs.Bl2Runs
import RCarM3N.Proofs.IplCheck
import RCarM3N.Proofs.Gpt
import RCarM3N.Proofs.UBootMisc
import RCarM3N.Proofs.UBootLoad
import RCarM3N.Proofs.UBootOps
import RCarM3N.Proofs.UBootInvariant
import RCarM3N.Proofs.UBootTermination
import RCarM3N.Proofs.UBootWrites
import RCarM3N.Proofs.Exchange
import RCarM3N.Proofs.Bl2Corrupt
import RCarM3N.Proofs.BootChain
import RCarM3N.Proofs.BootTries
import RCarM3N.Proofs.Sha256Update
import RCarM3N.Proofs.Sha256Portable
import RCarM3N.Proofs.GptLookup
import RCarM3N.Proofs.LoadArea
import RCarM3N.Proofs.IoDrv
import RCarM3N.Proofs.IoInit
import RCarM3N.Proofs.IoFiles
import RCarM3N.Proofs.IoSlots
import RCarM3N.Proofs.IoRead
import RCarM3N.Proofs.Pwrc
import RCarM3N.Proofs.IicDvfs
import RCarM3N.Proofs.EmmcCmd
import RCarM3N.Proofs.EmmcSector
import RCarM3N.Proofs.EmmcSelect
import RCarM3N.Proofs.FbDownload
import RCarM3N.Proofs.AvbIo
import RCarM3N.Proofs.AvbBytes
import RCarM3N.Proofs.FbControlBlock
import RCarM3N.Proofs.FbLocks
import RCarM3N.Proofs.FbReports
import RCarM3N.Proofs.Cr7Loader
import RCarM3N.Proofs.DramNodes
import RCarM3N.Proofs.BootArgs
import RCarM3N.Proofs.VerityArgs
import RCarM3N.Proofs.UBootRollback
import RCarM3N.Proofs.SrecRoundTrip
import RCarM3N.Proofs.SrecSafety
import RCarM3N.Proofs.HyperFlash
import RCarM3N.Proofs.OverlayOrder
import RCarM3N.Proofs.Certificates
import RCarM3N.Proofs.Sha256Unrolled
import RCarM3N.Proofs.SystemOff
import RCarM3N.Proofs.CpuSuspend
import RCarM3N.Proofs.Avs
import RCarM3N.Proofs.TextureRle
import RCarM3N.Proofs.Texture
import RCarM3N.Proofs.GptBounds
import RCarM3N.Proofs.UsbhsIrq
import RCarM3N.Proofs.UsbhsQueue
import RCarM3N.Proofs.FbFailClosed
import RCarM3N.Proofs.FbUnlock
import RCarM3N.Proofs.FbBuffers
import RCarM3N.Proofs.DmaDriver
import RCarM3N.Proofs.Bl31Log
import RCarM3N.Proofs.FbWipe
import RCarM3N.Proofs.FbHwPart
import RCarM3N.Proofs.SrecText
import RCarM3N.Proofs.FbBlockWrite
import RCarM3N.Proofs.FbZImage
import RCarM3N.Proofs.OverlayNames
import RCarM3N.Proofs.AndroidImage
import RCarM3N.Lib.Copies
import RCarM3N.Model.BootFromRam
import RCarM3N.Proofs.BootFromRam
import RCarM3N.Proofs.BootImagesApart
import RCarM3N.Lib.Bits
import RCarM3N.Model.DualEcc
import RCarM3N.Proofs.DualEcc
import RCarM3N.Model.FillDma
import RCarM3N.Proofs.FillDma
import RCarM3N.Lib.Arm
import RCarM3N.Model.Cr7Div
import RCarM3N.Proofs.Cr7Div
import RCarM3N.Proofs.Cr7DivSigned
import RCarM3N.Lib.Packets
import RCarM3N.Model.UsbhsPio
import RCarM3N.Proofs.UsbhsPio
import RCarM3N.Lib.Holders
import RCarM3N.Lib.Traces
import RCarM3N.Model.UsbhsPipes
import RCarM3N.Proofs.UsbhsPipes
import RCarM3N.Model.RomFs
import RCarM3N.Proofs.RomFs
import RCarM3N.Model.Cr7Printf
import RCarM3N.Proofs.Cr7Printf
import RCarM3N.Model.CarModel
import RCarM3N.Proofs.CarModel
import RCarM3N.Lib.ArmBlocks
import RCarM3N.Model.Cr7Mem
import RCarM3N.Proofs.Cr7Mem
import RCarM3N.Proofs.BakeryLock
import RCarM3N.Proofs.PsciTree
import RCarM3N.Proofs.PsciStates
