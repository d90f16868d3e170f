import SegmentedCache.Job
import SegmentedCache.Scenario.Identity
import SegmentedCache.Scenario.Plan
import SegmentedCache.Stats.Json
import SegmentedCache.Text.Quoted
import SegmentedCache.Proofs.Arena
import SegmentedCache.Proofs.LinkedQueue
import SegmentedCache.Proofs.Segment.Chain
import SegmentedCache.Proofs.Segment.Records
import SegmentedCache.Proofs.Segment.Consistent
import SegmentedCache.Proofs.Segment.Links
import SegmentedCache.Proofs.Segment.Actions
import SegmentedCache.Proofs.Segment.Sweep
import SegmentedCache.Proofs.Segment.Keys
import SegmentedCache.Proofs.Segment.Operation
import SegmentedCache.Proofs.Segment.Invariant
import SegmentedCache.Proofs.Segment.Flights
import SegmentedCache.Proofs.Segment.SingleFlight
import SegmentedCache.Proofs.Segment.LateLoads
import SegmentedCache.Proofs.Cache.Accounting
import SegmentedCache.Proofs.Cache.Mirror
import SegmentedCache.Proofs.Cache.Mirroring
import SegmentedCache.Proofs.Cache.Refinement
import SegmentedCache.Proofs.Cache.FailedLoads
import SegmentedCache.Proofs.Cache.Weights
import SegmentedCache.Proofs.Cache.ReadBack
import SegmentedCache.Proofs.Cache.Supervision
import SegmentedCache.Proofs.Cache.Settlement
import SegmentedCache.Proofs.Cache.Reports
import SegmentedCache.Proofs.Cache.Delivery
import SegmentedCache.Proofs.Cache.Tallies
import SegmentedCache.Proofs.Cache.Statistics
import SegmentedCache.Proofs.Segment.Vacancy
import SegmentedCache.Proofs.Segment.Sheltering
import SegmentedCache.Proofs.Segment.KeptLoads
import SegmentedCache.Proofs.Segment.Recency
import SegmentedCache.Proofs.Cache.Causes
import SegmentedCache.Proofs.Cache.ZeroExpiration
import SegmentedCache.Proofs.Cache.KeptLoads
import SegmentedCache.Proofs.Cache.Recursion
import SegmentedCache.Proofs.Cache.Pending
import SegmentedCache.Proofs.Cache.Recency
import SegmentedCache.Proofs.Segment.Refreshing
import SegmentedCache.Proofs.Cache.Freshness
import SegmentedCache.Proofs.Cache.Grounds
import SegmentedCache.Proofs.Cache.Reading
import SegmentedCache.Proofs.Options
import SegmentedCache.Proofs.Splitting
import SegmentedCache.Proofs.Arena.History
import SegmentedCache.Proofs.LinkedQueue.Pair
import SegmentedCache.Proofs.Segment.Growth
import SegmentedCache.Proofs.Cache.NotedReads
