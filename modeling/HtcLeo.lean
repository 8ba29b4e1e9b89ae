import HtcLeo.AkmBatching
import HtcLeo.AkmPeriod
import HtcLeo.AkmSensor
import HtcLeo.CInt
import HtcLeo.CString
import HtcLeo.Calls
import HtcLeo.CameraFrames
import HtcLeo.CameraRecord
import HtcLeo.ClntBusy
import HtcLeo.ClntList
import HtcLeo.ClntShutdown
import HtcLeo.DecimalFloat
import HtcLeo.Doubles
import HtcLeo.GpsConf
import HtcLeo.GpsConfOrder
import HtcLeo.GpsDispatch
import HtcLeo.GpsFix
import HtcLeo.GpsFlags
import HtcLeo.GpsLifecycle
import HtcLeo.GpsPeriod
import HtcLeo.GpsPosition
import HtcLeo.GpsReceiver
import HtcLeo.GpsRpcClients
import HtcLeo.GpsSession
import HtcLeo.GpsShim
import HtcLeo.GpsXtra
import HtcLeo.GsvGroup
import HtcLeo.GsvPublish
import HtcLeo.GsvTable
import HtcLeo.InputEventReader
import HtcLeo.LevelSensor
import HtcLeo.Lights
import HtcLeo.LightsHistory
import HtcLeo.LightsThread
import HtcLeo.Lines
import HtcLeo.Linked
import HtcLeo.Loops
import HtcLeo.Mem
import HtcLeo.NmeaBody
import HtcLeo.NmeaEffects
import HtcLeo.NmeaFields
import HtcLeo.NmeaFraming
import HtcLeo.NmeaMeaning
import HtcLeo.NmeaNumbers
import HtcLeo.NmeaPosition
import HtcLeo.NmeaReader
import HtcLeo.NmeaSentence
import HtcLeo.NmeaStream
import HtcLeo.NmeaToken
import HtcLeo.PdsmCall
import HtcLeo.PdsmRequest
import HtcLeo.PdsmSession
import HtcLeo.PositionTexts
import HtcLeo.PowerHint
import HtcLeo.PowerMetadata
import HtcLeo.PreviewDecode
import HtcLeo.Ring
import HtcLeo.Rounding
import HtcLeo.RpcExchange
import HtcLeo.RpcHeader
import HtcLeo.RpcMsg
import HtcLeo.RpcReply
import HtcLeo.Runs
import HtcLeo.SensorBacklog
import HtcLeo.SensorBase
import HtcLeo.SensorDelivery
import HtcLeo.SensorEnable
import HtcLeo.SensorPoll
import HtcLeo.SensorWake
import HtcLeo.Svc
import HtcLeo.SvcHeader
import HtcLeo.SvcRegistry
import HtcLeo.SvcSearch
import HtcLeo.UiccTlv
import HtcLeo.UiccTlvCut
import HtcLeo.Xdr
import HtcLeo.XdrCodec
import HtcLeo.XdrCursor
import HtcLeo.XdrOut
import HtcLeo.XdrStd
import HtcLeo.XdrStruct
