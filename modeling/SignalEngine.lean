import SignalEngine.Domain.Entities
import SignalEngine.Lib.Custody
import SignalEngine.Lib.Desk
import SignalEngine.Lib.Falls
import SignalEngine.Lib.Growth
import SignalEngine.Lib.Layers
import SignalEngine.Lib.Loop
import SignalEngine.Lib.Parts
import SignalEngine.Lib.Runs
import SignalEngine.Lib.Sorted
import SignalEngine.Lib.Table
import SignalEngine.Lib.Trace
import SignalEngine.Lib.Until
import SignalEngine.Config.Settings
import SignalEngine.Config.AppSettings
import SignalEngine.Config.Layering
import SignalEngine.Domain.TradeManagement
import SignalEngine.Domain.Profiles
import SignalEngine.Domain.ProfileBounds
import SignalEngine.Domain.Builder
import SignalEngine.Domain.Gain
import SignalEngine.Domain.Geometry
import SignalEngine.Domain.CrtEntry
import SignalEngine.Domain.Dedup
import SignalEngine.Domain.Entry
import SignalEngine.Domain.Market
import SignalEngine.Domain.NoRepaint
import SignalEngine.Domain.Zones
import SignalEngine.Domain.BosEvents
import SignalEngine.Domain.Untested
import SignalEngine.Domain.Mirror
import SignalEngine.Engine.Replay
import SignalEngine.Engine.Lifecycle
import SignalEngine.Engine.LiveTicks
import SignalEngine.Engine.RealizedR
import SignalEngine.Engine.CandleFeed
import SignalEngine.Persistence.Store
import SignalEngine.Persistence.Isolation
import SignalEngine.Persistence.WireFormat
import SignalEngine.Persistence.ClosedColumns
import SignalEngine.Persistence.Resume
import SignalEngine.Session.Coordinator
import SignalEngine.Session.DedupSafety
import SignalEngine.Session.CircuitBreaker
import SignalEngine.Services.SignalService
import SignalEngine.Services.Moves
import SignalEngine.Services.LockSafety
import SignalEngine.Services.CrashSafety
import SignalEngine.Services.Restart
import SignalEngine.Services.RestartSafety
import SignalEngine.Services.StreakRestart
import SignalEngine.Services.LookAhead
import SignalEngine.Services.Calls
import SignalEngine.Services.EventLaw
import SignalEngine.Services.Pending
import SignalEngine.Services.SessionFiling
import SignalEngine.Services.SessionStats
import SignalEngine.Services.StatusQuery
import SignalEngine.Services.OutcomeSafety
import SignalEngine.Infrastructure.MarketData
import SignalEngine.Infrastructure.ActiveZones
import SignalEngine.Interfaces.Scheduler
import SignalEngine.Interfaces.Weekend
import SignalEngine.Interfaces.Ticks
import SignalEngine.Interfaces.WeekRun
import SignalEngine.Interfaces.Wakeups
import SignalEngine.Interfaces.ParityCheck
import SignalEngine.Manager.Consensus
import SignalEngine.Manager.Broadcasts
import SignalEngine.Manager.Accounting
import SignalEngine.Manager.HandOver
import SignalEngine.Manager.EngineRuns
import SignalEngine.Manager.Supervision
import SignalEngine.Manager.Solo
import SignalEngine.Manager.ClientMessages
import SignalEngine.Manager.Delivery
import SignalEngine.Manager.Relay
import SignalEngine.Backtest.Simulate
import SignalEngine.Backtest.Accounting
import SignalEngine.Backtest.RiskSweep
import SignalEngine.Backtest.Trailing
import SignalEngine.Backtest.SameBar
import SignalEngine.Backtest.TrailStop
import SignalEngine.Backtest.MirrorTrade
import SignalEngine.Backtest.Booking
import SignalEngine.Backtest.TrailReplay
import SignalEngine.Backtest.Backtester
import SignalEngine.Backtest.EmitTiming
import SignalEngine.Backtest.Chronology
import SignalEngine.Backtest.RunSafety
import SignalEngine.Backtest.LookAhead
import SignalEngine.Backtest.HtfCache
import SignalEngine.Backtest.ZoneCache
import SignalEngine.Backtest.Parity
import SignalEngine.Backtest.DedupParity
import SignalEngine.Backtest.StaleRule
import SignalEngine.Backtest.StreakAnalysis
import SignalEngine.Backtest.Mitigation
import SignalEngine.Parity.Run
