import MicroXrceDds.Library.Prog
import MicroXrceDds.Library.LittleEndian
import MicroXrceDds.Library.Cdr
import MicroXrceDds.Library.Buffer
import MicroXrceDds.Library.Decoder
import MicroXrceDds.Library.Bounded
import MicroXrceDds.Library.Ledger
import MicroXrceDds.Library.Conversation
import MicroXrceDds.Library.Trace
import MicroXrceDds.Library.Position
import MicroXrceDds.Library.Simulation
import MicroXrceDds.Protocol
import MicroXrceDds.Target
import MicroXrceDds.CdrWriter
import MicroXrceDds.CdrReader
import MicroXrceDds.Message
import MicroXrceDds.Messages
import MicroXrceDds.MsgWriter
import MicroXrceDds.Transport
import MicroXrceDds.Subscription
import MicroXrceDds.Session
import MicroXrceDds.CdrLayout
import MicroXrceDds.MsgLayout
import MicroXrceDds.WireFormat
import MicroXrceDds.Suspension
import MicroXrceDds.Wire
import MicroXrceDds.Publish
import MicroXrceDds.CdrReading
import MicroXrceDds.ReaderSafety
import MicroXrceDds.CdrRoundTrip
import MicroXrceDds.Router
import MicroXrceDds.Dispatch
import MicroXrceDds.Refinement
import MicroXrceDds.Delivery
import MicroXrceDds.FrameStream
import MicroXrceDds.FrameReaders
import MicroXrceDds.Cancellation
import MicroXrceDds.Requests
import MicroXrceDds.Calls
import MicroXrceDds.Composition
import MicroXrceDds.Run
import MicroXrceDds.Creations
import MicroXrceDds.Registration
import MicroXrceDds.Numbering
import MicroXrceDds.Documents
import MicroXrceDds.Dependencies
import MicroXrceDds.Routing
import MicroXrceDds.Setup
import MicroXrceDds.FrameBounds
import MicroXrceDds.Atomicity
import MicroXrceDds.ObjectIds
import MicroXrceDds.Link
import MicroXrceDds.Conversing
import MicroXrceDds.Agreement
import MicroXrceDds.Reference
import MicroXrceDds.Decoding
import MicroXrceDds.MessageRoundTrip
import MicroXrceDds.Truncation
import MicroXrceDds.SerializedSize
import MicroXrceDds.EncoderOverflow
import MicroXrceDds.BoundedWriter
import MicroXrceDds.Incoming
import MicroXrceDds.Client
import MicroXrceDds.ClientRefinement
import MicroXrceDds.Connect
import MicroXrceDds.Spin
import MicroXrceDds.ClientWaits
import MicroXrceDds.Lag
import MicroXrceDds.Faults
import MicroXrceDds.Published
import MicroXrceDds.Relay
import MicroXrceDds.Republish
import MicroXrceDds.Errors
import MicroXrceDds.Agent
import MicroXrceDds.Panics
