import TracerBench.Run
import TracerBench.Loop
import TracerBench.Python
import TracerBench.ChunkedBody
import TracerBench.ChunkReader
import TracerBench.Satellite
import TracerBench.Linearizability
import TracerBench.SatelliteHistory
import TracerBench.CutReport
import TracerBench.Group
import TracerBench.Accounting
import TracerBench.SteadyGroup
import TracerBench.Startup
import TracerBench.GroupCalls
import TracerBench.Benchmark
import TracerBench.Lifecycle
import TracerBench.Restart
import TracerBench.Ports
import TracerBench.Reconnect
import TracerBench.Attribution
import TracerBench.SpanTrace
import TracerBench.Clients
import TracerBench.ClientSpans
import TracerBench.TraceShape
import TracerBench.SleepDebt
import TracerBench.Forest
import TracerBench.TraceForest
import TracerBench.Controller
import TracerBench.Refusal
import TracerBench.Trials
import TracerBench.Calibration
import TracerBench.JsClients
import TracerBench.LogOutput
import TracerBench.ChildOutput
import TracerBench.Sampling
import TracerBench.DisconnectGraphs
import TracerBench.DisconnectRuns
import TracerBench.ReportBuffer
import TracerBench.GoTracer
import TracerBench.TracerBooks
import TracerBench.TracerClose
import TracerBench.TracerPace
import TracerBench.Circular
import TracerBench.GoSpan
import TracerBench.GoTraces
import TracerBench.GoBenchmark
import TracerBench.GoDrops
import TracerBench.Wire
import TracerBench.Skip
import TracerBench.Collector
import TracerBench.Report
import TracerBench.ProtoConverter
import TracerBench.GoWire
