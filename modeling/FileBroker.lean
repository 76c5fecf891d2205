import FileBroker.Channel.Playback
import FileBroker.CommandLine.ReportPath
import FileBroker.Describe.Compose
import FileBroker.Describe.Setup
import FileBroker.Describe.Terms
import FileBroker.Main
import FileBroker.Proofs.Broker.Cancellation
import FileBroker.Proofs.Broker.Expiry
import FileBroker.Proofs.Broker.Reordering
import FileBroker.Proofs.Broker.Traffic
import FileBroker.Proofs.Broker.Waking
import FileBroker.Proofs.Channel.Playback
import FileBroker.Proofs.Message.Copying
import FileBroker.Proofs.Message.Regions
import FileBroker.Proofs.Queue.Return
import FileBroker.Proofs.Relay.Agreement
import FileBroker.Proofs.Relay.Cycle
import FileBroker.Proofs.Response.BareStatus
import FileBroker.Proofs.Response.Format
import FileBroker.Proofs.Response.RoundTrip
import FileBroker.Proofs.Session.Health
import FileBroker.Proofs.Volume.Handles
import FileBroker.Proofs.Volume.Shrinking
import FileBroker.Proofs.Volume.Store
import FileBroker.Proofs.Wire.Reading
import FileBroker.Proofs.Worker.Counters
import FileBroker.Proofs.Worker.Service
import FileBroker.Session.Listening
