import TickToTrade.Sys.SpscChannel
import TickToTrade.Sys.LockFreeStack
import TickToTrade.Sys.DrainThread
import TickToTrade.Ds.RingBuffer
import TickToTrade.Ds.FixedVariants
import TickToTrade.Net.TcpInterest
import TickToTrade.Algo.BookAdmission
import TickToTrade.Exchange.MarketData
import TickToTrade.Exchange.DuplicateOrders
import TickToTrade.Exchange.Isolation
import TickToTrade.Exchange.SessionIds
import TickToTrade.Exchange.SyntheticQuotes
import TickToTrade.Exchange.SideByte
import TickToTrade.Exchange.Confidentiality
import TickToTrade.Exchange.SessionCleanup
import TickToTrade.Oms.ActiveOrders
import TickToTrade.Oms.TimeoutBuffers
import TickToTrade.Oms.TimeoutExactness
import TickToTrade.Oms.Exposure
import TickToTrade.Oms.RiskLimits
import TickToTrade.Oms.KillSwitch
import TickToTrade.Oms.SignalChecks
import TickToTrade.Oms.RateLimit
import TickToTrade.EndToEnd.Orphans
import TickToTrade.Pipeline.LogFormatter
import TickToTrade.Pipeline.StrategyCtx
import TickToTrade.Pipeline.OutboundFraming
import TickToTrade.Pipeline.ResponseLoop
import TickToTrade.Pipeline.FeedHandler
import TickToTrade.Pipeline.SpreadStrategy
