import GamifyKit.Go.Basic
import GamifyKit.Go.Map
import GamifyKit.Go.Utf8
import GamifyKit.Go.Strings
import GamifyKit.Go.Json
import GamifyKit.Go.Format
import GamifyKit.Go.Time
import GamifyKit.Core.Types
import GamifyKit.Leaderboard.SkipList
import GamifyKit.Leaderboard.Chain
import GamifyKit.Leaderboard.Shape
import GamifyKit.Leaderboard.Search
import GamifyKit.Leaderboard.Invariant
import GamifyKit.Leaderboard.Refinement
import GamifyKit.Memory.Store
import GamifyKit.Memory.Concurrent
import GamifyKit.Engine.Service
import GamifyKit.Engine.Concurrent
import GamifyKit.Engine.EventBus
import GamifyKit.Engine.AsyncBus
import GamifyKit.Realtime.Hub
import GamifyKit.Redis.Keys
import GamifyKit.Redis.Store
import GamifyKit.Redis.Concurrent
import GamifyKit.JsonFile.Store
import GamifyKit.Go.Url
import GamifyKit.Api.Http
import GamifyKit.Api.RateLimit
import GamifyKit.Analytics.Metrics
import GamifyKit.Analytics.Aggregation
import GamifyKit.Analytics.Engagement
import GamifyKit.Analytics.Streaming
import GamifyKit.Analytics.Export
import GamifyKit.Analytics.Service
import GamifyKit.Config.Validate
import GamifyKit.Gamify.Builder
import GamifyKit.Server.Startup
