import TransitLink.Bytes
import TransitLink.Text.Blank
import TransitLink.Text.Lossy
import TransitLink.Text.Quoted
import TransitLink.Number.Shortest
import TransitLink.Json.Basic
import TransitLink.Json.Fault
import TransitLink.Json.Number
import TransitLink.Json.Reader
import TransitLink.Json.Skip
import TransitLink.Json.Record
import TransitLink.Json.Printer
import TransitLink.Snapshot.Pack
import TransitLink.Snapshot.Unpack
import TransitLink.Snapshot.Blob
import TransitLink.RequestId
import TransitLink.Frame.Stream
import TransitLink.Message.Envelope
import TransitLink.Config
import TransitLink.Link.Handshake
import TransitLink.Link.Pending
import TransitLink.Probe.Rehearsal
import TransitLink.Main
import TransitLink.Proofs.Link.Life
import TransitLink.Proofs.Link.Settlement
import TransitLink.Proofs.Link.Fate
import TransitLink.Proofs.Link.Verdict
import TransitLink.Proofs.Link.Wire
import TransitLink.Proofs.Frame.Chunks
import TransitLink.Proofs.Frame.Excess
import TransitLink.Proofs.Snapshot.RoundTrip
import TransitLink.Proofs.Link.Resilience
import TransitLink.Proofs.Link.Clock
import TransitLink.Proofs.Frame.Bijection
import TransitLink.Proofs.Frame.Lengths
import TransitLink.Proofs.Frame.Reader
import TransitLink.Proofs.Snapshot.Parts
import TransitLink.Proofs.Snapshot.Headers
import TransitLink.Proofs.Outcome
import TransitLink.Proofs.Snapshot.Canonical
import TransitLink.Proofs.Base64.Decoding
import TransitLink.Proofs.Base64.Standard
import TransitLink.Proofs.Snapshot.Blob
import TransitLink.Proofs.Json.Parts
import TransitLink.Proofs.Snapshot.Rendering
import TransitLink.Proofs.Snapshot.Recovery
import TransitLink.Proofs.Snapshot.SafeNumbers
import TransitLink.Proofs.Snapshot.TaggedMaps
import TransitLink.Probe.Visit
import TransitLink.Proofs.Probe.Overwriting
import TransitLink.Proofs.Frame.Limit
import TransitLink.Proofs.Message.RoundTrip
import TransitLink.Proofs.Link.Handshake
import TransitLink.Proofs.Link.Expiry
import TransitLink.Proofs.Link.Fatality
import TransitLink.Proofs.Client.Gate
import TransitLink.Proofs.Snapshot.Truncation
import TransitLink.Proofs.Snapshot.Compacted
import TransitLink.Proofs.Probe.Isolation
import TransitLink.Proofs.Probe.Confinement
import TransitLink.Proofs.Probe.Precedence
import TransitLink.Proofs.Snapshot.Placeholders
