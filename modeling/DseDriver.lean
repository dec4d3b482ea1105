import DseDriver.Ssl.Verify
import DseDriver.DateRange
import DseDriver.TokenMap.DatacenterShares
import DseDriver.Uuids.Range
import DseDriver.Uuids.Text
import DseDriver.Auth.Gssapi
import DseDriver.Control.HostRounds
import DseDriver.Control.Keyspaces
import DseDriver.Control.Recovery
import DseDriver.Cql.CqlNameRoundTrip
import DseDriver.DateTime
import DseDriver.Geometry.ByteOrder
import DseDriver.LoadBalancing.Filtering
import DseDriver.Response.Containment
import DseDriver.Response.ErrorResponse
import DseDriver.Response.Framing
import DseDriver.TimestampGenerator
import DseDriver.Wkt.IteratorReuse
import DseDriver.Wkt.Iteration
import DseDriver.Worker.PoolCommands
import DseDriver.Cql.NullParts
import DseDriver.Encoding.ContainerBuffers
import DseDriver.Encoding.SetByName
import DseDriver.LoadBalancing.LatencyAware
import DseDriver.LoadBalancing.RoundRobin
import DseDriver.Pools.Borrowing
import DseDriver.Request.MultipleQueries
import DseDriver.Response.Rows
import DseDriver.TokenMap.Partitioners
import DseDriver.Concurrency.ResponseFuture
import DseDriver.Cql.DurationRoundTrip
import DseDriver.Encoding.RoutingKey
import DseDriver.Metrics.Histogram
import DseDriver.Queues.MpmcQueue
import DseDriver.Schema.Indexes
import DseDriver.Schema.KeyColumns
import DseDriver.Connection.Heartbeat
import DseDriver.Pools.Availability
import DseDriver.Control.TopologyEvents
import DseDriver.CopyOnWritePtr
import DseDriver.Random
import DseDriver.Request.SpeculativeExecution
import DseDriver.Ssl.PendingWrite
import DseDriver.Geometry.LineStringBuilder
