import CounterWatch.Cgroup
import CounterWatch.Config.Description
import CounterWatch.Monitor.Spawned
import CounterWatch.OpenFile
import CounterWatch.Payload.Form
import CounterWatch.Pmu.InMemory
import CounterWatch.Pmu.Scripted
import CounterWatch.Probe
import CounterWatch.Proofs.Attribute.Flags
import CounterWatch.Proofs.Callchain.Raw
import CounterWatch.Proofs.Cgroup.ProcessList
import CounterWatch.Proofs.CounterGroup.Life
import CounterWatch.Proofs.Monitor.Noise
import CounterWatch.Proofs.Monitor.Outcome
import CounterWatch.Proofs.Payload.RoundTrip
import CounterWatch.Proofs.ProcessMaps.Lookup
import CounterWatch.Proofs.Report.Decoding
import CounterWatch.Proofs.Session.Abort
import CounterWatch.Proofs.Session.Enabling
import CounterWatch.Proofs.Session.FirstProcess
import CounterWatch.Proofs.Ticker.History
import CounterWatch.Proofs.Topology.Listing
import CounterWatch.Topology.Discovery
