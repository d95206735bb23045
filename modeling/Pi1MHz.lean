import Pi1MHz.AunAtMostOnce
import Pi1MHz.AunDupFilter
import Pi1MHz.AunExpiry
import Pi1MHz.AunImmReply
import Pi1MHz.AunLoopback
import Pi1MHz.AunReady
import Pi1MHz.AunRepoint
import Pi1MHz.AunRepresentation
import Pi1MHz.AunStreamOrder
import Pi1MHz.AunTransmitAccounting
import Pi1MHz.AunVerdict
import Pi1MHz.Config
import Pi1MHz.FatService
import Pi1MHz.FatTransfer
import Pi1MHz.Fcode
import Pi1MHz.FileParserRoundTrip
import Pi1MHz.JimRamRun
import Pi1MHz.LinkGate
import Pi1MHz.M5000Run
import Pi1MHz.MmalPairing
import Pi1MHz.Mode7Run
import Pi1MHz.MtpRead
import Pi1MHz.MtpTable
import Pi1MHz.NetBacklog
import Pi1MHz.NetHttp
import Pi1MHz.NetMailbox
import Pi1MHz.ScsiHandshakeRun
import Pi1MHz.ScsiModeSelect
import Pi1MHz.ScsiSectorsRun
import Pi1MHz.ScsiTranslate
import Pi1MHz.SdioBackplane
import Pi1MHz.SdioNvramRight
import Pi1MHz.SdpcmReceive
import Pi1MHz.TeletextFraming
import Pi1MHz.TeletextStatus
import Pi1MHz.TelnetEscape
import Pi1MHz.TnfsTransaction
import Pi1MHz.TxPacing
import Pi1MHz.UrlGrammar
import Pi1MHz.VchiqTransmitRun
import Pi1MHz.VduCopy
import Pi1MHz.VduEllipseRange
import Pi1MHz.VduFillPasses
import Pi1MHz.VduLine
import Pi1MHz.VduQueue
import Pi1MHz.VduScroll
import Pi1MHz.VduWindow
import Pi1MHz.WifiBoot
import Pi1MHz.WifiRecovery
import Pi1MHz.WsDateText
import Pi1MHz.WsDigestBinding
import Pi1MHz.WsMultipart
import Pi1MHz.WsPropfind
import Pi1MHz.WsRangedPut
