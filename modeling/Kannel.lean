import Kannel.Gw.MsgSafety
import Kannel.Gw.MsgCut
import Kannel.Gw.SplitSettle
import Kannel.Gw.Smsc.SmppRoundTrip
import Kannel.Gwlib.ConnPackets
import Kannel.Gwlib.HttpPipeline
import Kannel.Gwlib.HttpChunks
import Kannel.Gw.MetaDataMerge
import Kannel.Gw.DlrMem
import Kannel.Gw.DlrSpool
import Kannel.Gw.Smsc.SmppNumbers
import Kannel.Gw.UrlTransFill
import Kannel.Gw.SmsBoxIds
import Kannel.Gw.SmsBoxReply
import Kannel.Gw.SmsBoxResult
import Kannel.Gw.SmsBoxPost
import Kannel.Gwlib.CfgRoundTrip
import Kannel.Gw.Smsc.At2Address
import Kannel.Gw.Smsc.At2Driver
import Kannel.Gw.Smsc.At2Telnet
import Kannel.Gw.Smsc.At2Time
import Kannel.Addons.OpenSmppBoxParts
import Kannel.Addons.OpenSmppBoxAcks
import Kannel.Gwlib.FdsetScan
import Kannel.Gw.BbBoxcRouting
import Kannel.Addons.RabbitMqReader
import Kannel.Gw.SmscRestart
import Kannel.Gw.SmsQueue
import Kannel.Gwlib.GwTimerRun
import Kannel.Gw.SmsSplitParts
import Kannel.Gw.ConcatFiling
import Kannel.Gwlib.GwListSort
import Kannel.Gw.SmscChoice
