import AlpacaCpp.Foundation.Machine
import AlpacaCpp.Foundation.Pacing
import AlpacaCpp.Foundation.Words
import AlpacaCpp.Foundation.Bytes
import AlpacaCpp.Foundation.Decimal
import AlpacaCpp.Foundation.Gregorian
import AlpacaCpp.Foundation.Multimap
import AlpacaCpp.Foundation.Replica
import AlpacaCpp.Foundation.Sax
import AlpacaCpp.Core.Enums
import AlpacaCpp.Core.Json
import AlpacaCpp.Core.Query
import AlpacaCpp.Http.RequestContext
import AlpacaCpp.Http.Retry
import AlpacaCpp.Trading.Orders
import AlpacaCpp.Data.StockBars
import AlpacaCpp.Data.PageChain
import AlpacaCpp.Limiter.RateLimiter
import AlpacaCpp.Limiter.AdmissionWindow
import AlpacaCpp.Time.Civil
import AlpacaCpp.Time.Timestamp
import AlpacaCpp.Time.Rfc3339
import AlpacaCpp.Time.RoundTrip
import AlpacaCpp.Options.FrameDecoder
import AlpacaCpp.Options.MessageVisitor
import AlpacaCpp.Streaming.StreamBase
import AlpacaCpp.Streaming.Reconnect
import AlpacaCpp.Streaming.DataStream
import AlpacaCpp.Streaming.Subscriptions
import AlpacaCpp.Streaming.Drops
import AlpacaCpp.Limiter.Barrier
import AlpacaCpp.Time.Range
import AlpacaCpp.Time.Lenient
import AlpacaCpp.Options.UnknownContent
import AlpacaCpp.Data.MarketData
import AlpacaCpp.Options.Decoder
import AlpacaCpp.Core.Extraction
import AlpacaCpp.Trading.OrderModel
import AlpacaCpp.Trading.Submission
import AlpacaCpp.Streaming.StreamMessages
import AlpacaCpp.Streaming.HandleFrame
import AlpacaCpp.Options.OptionMessages
import AlpacaCpp.Options.OptionDataStream
import AlpacaCpp.Foundation.Url
import AlpacaCpp.Clients.Routes
import AlpacaCpp.Limiter.Alone
import AlpacaCpp.Limiter.Waiting
import AlpacaCpp.Limiter.Burst
import AlpacaCpp.Http.Attempts
import AlpacaCpp.Data.Pipelines
import AlpacaCpp.Options.Timestamps
import AlpacaCpp.Foundation.Msgpack
import AlpacaCpp.Options.WholeFrame
import AlpacaCpp.Foundation.Binary64
import AlpacaCpp.Foundation.Numeral
import AlpacaCpp.Core.Numbers
import AlpacaCpp.Trading.OrderNumbers
import AlpacaCpp.Streaming.ReconnectPolicy
import AlpacaCpp.Limiter.Notifications
import AlpacaCpp.Foundation.Loop
import AlpacaCpp.Time.Lookups
import AlpacaCpp.Http.Credentials
import AlpacaCpp.Core.QueryRuns
import AlpacaCpp.Trading.OrderRoundTrip
import AlpacaCpp.Core.Spellings
import AlpacaCpp.Foundation.Monitor
import AlpacaCpp.Streaming.Wakeups
import AlpacaCpp.Streaming.Handshake
import AlpacaCpp.Core.Structs
import AlpacaCpp.Streaming.TradeUpdates
import AlpacaCpp.Foundation.Paging
import AlpacaCpp.Data.Pages
import AlpacaCpp.Clients.Listings
import AlpacaCpp.Data.Histories
import AlpacaCpp.Data.CorporateActions
import AlpacaCpp.Foundation.Emplace
import AlpacaCpp.Data.Snapshots
import AlpacaCpp.Http.Callers
import AlpacaCpp.Data.Latest
import AlpacaCpp.Streaming.Feeds
import AlpacaCpp.Streaming.ControlFrames
import AlpacaCpp.Streaming.Wire
import AlpacaCpp.Options.OptionSessions
