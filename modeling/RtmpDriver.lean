import RtmpDriver.SerialNumber
import RtmpDriver.StepMachine
import RtmpDriver.ReorderList
import RtmpDriver.ReorderEngine
import RtmpDriver.ReorderParts
import RtmpDriver.ReorderDrain
import RtmpDriver.ReorderHeld
import RtmpDriver.ReorderWindow
import RtmpDriver.ReorderSession
import RtmpDriver.ReorderDelivery
import RtmpDriver.BaFrames
import RtmpDriver.BaParts
import RtmpDriver.BaSession
import RtmpDriver.SlotTable
import RtmpDriver.BaBlocks
import RtmpDriver.BaTable
import RtmpDriver.BaTidBounds
import RtmpDriver.BigEndian
import RtmpDriver.EapolFrame
import RtmpDriver.WpaSupplicant
import RtmpDriver.WpaMic
import RtmpDriver.WpaMoves
import RtmpDriver.WpaPort
import RtmpDriver.WpaEpoch
import RtmpDriver.WpaForgery
import RtmpDriver.WpaGroupKey
import RtmpDriver.RxFilter
import RtmpDriver.Aes
import RtmpDriver.KeyWrap
import RtmpDriver.EapolBuild
import RtmpDriver.WpaTransport
import RtmpDriver.LinkedBuckets
import RtmpDriver.MacTable
import RtmpDriver.MlmeQueue
import RtmpDriver.ByteMemory
import RtmpDriver.UsbDescriptor
import RtmpDriver.UsbRing
import RtmpDriver.UsbSweep
import RtmpDriver.UsbLayout
import RtmpDriver.UsbInvariant
import RtmpDriver.UsbWriters
import RtmpDriver.UsbTransmit
import RtmpDriver.UsbBatch
import RtmpDriver.BulkIn
import RtmpDriver.Defragment
import RtmpDriver.RxDone
import RtmpDriver.LlcSnap
import RtmpDriver.TxFragment
import RtmpDriver.Amsdu
import RtmpDriver.AmsduTx
import RtmpDriver.StreamMove
import RtmpDriver.Crc
import RtmpDriver.CounterMode
import RtmpDriver.Wep
import RtmpDriver.Ccmp
import RtmpDriver.ConfirmLog
import RtmpDriver.AuthMachine
import RtmpDriver.AssocMachine
import RtmpDriver.AccessLog
import RtmpDriver.RsnSuites
import RtmpDriver.AuthChallenge
import RtmpDriver.McuCommand
import RtmpDriver.McuRead
import RtmpDriver.ReorderFallback
import RtmpDriver.ElementChain
import RtmpDriver.CipherParse
import RtmpDriver.KeyDataBounds
import RtmpDriver.Custody
import RtmpDriver.McuQueues
import RtmpDriver.McuLife
import RtmpDriver.McuSender
import RtmpDriver.McuLinear
import RtmpDriver.BeaconParse
import RtmpDriver.BeaconWalk
import RtmpDriver.ElementList
import RtmpDriver.VarIes
import RtmpDriver.KeyWrapRfc
import RtmpDriver.Arc4Laws
import RtmpDriver.CcmRfc
import RtmpDriver.Cmac
import RtmpDriver.BlockHash
import RtmpDriver.StreamHash
import RtmpDriver.HashRounds
import RtmpDriver.Hmac
import RtmpDriver.WideWord
import RtmpDriver.Michael
import RtmpDriver.TkipMix
import RtmpDriver.SoftDecrypt
import RtmpDriver.TimBitmap
import RtmpDriver.RalinkAggregate
import RtmpDriver.TopTwo
import RtmpDriver.CipherSummary
import RtmpDriver.ArrayFront
import RtmpDriver.ExchangeSort
import RtmpDriver.BssTable
import RtmpDriver.BssAging
import RtmpDriver.RateClass
import RtmpDriver.BssSelect
import RtmpDriver.ProbeBuffers
import RtmpDriver.SpectrumParse
import RtmpDriver.SpectrumAction
import RtmpDriver.DistinctList
import RtmpDriver.CoexReport
import RtmpDriver.TimerQueue
import RtmpDriver.TimerThread
import RtmpDriver.ChannelGroup
import RtmpDriver.RegionList
import RtmpDriver.CountryList
import RtmpDriver.CountryHistory
import RtmpDriver.LineSearch
import RtmpDriver.ProfileLookup
import RtmpDriver.FragThreshold
import RtmpDriver.TurnLoop
import RtmpDriver.RateTables
import RtmpDriver.RateGroup
import RtmpDriver.LinkList
import RtmpDriver.FreqCal
import RtmpDriver.McuWrite
import RtmpDriver.McuFormat
