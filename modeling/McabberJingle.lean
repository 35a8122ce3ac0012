import McabberJingle.Program.Outcome
import McabberJingle.Program.Pool
import McabberJingle.Program.Runs
import McabberJingle.Program.Links
import McabberJingle.Program.Base64
import McabberJingle.Program.Paths
import McabberJingle.Program.Choosing
import McabberJingle.Program.Loops
import McabberJingle.Program.Lists
import McabberJingle.Program.Sweeps
import McabberJingle.Jingle.Stanza
import McabberJingle.Jingle.Numbers
import McabberJingle.Jingle.Types
import McabberJingle.Jingle.Access
import McabberJingle.Jingle.Register
import McabberJingle.Jingle.Check
import McabberJingle.FileTransfer.Offer
import McabberJingle.FileTransfer.Data
import McabberJingle.FileTransfer.Flush
import McabberJingle.Ibb.Transport
import McabberJingle.S5b.Transport
import McabberJingle.S5b.Connecting
import McabberJingle.Jingle.Sessions
import McabberJingle.Jingle.Contents
import McabberJingle.Jingle.Acks
import McabberJingle.Jingle.Timeouts
import McabberJingle.Jingle.Identifiers
import McabberJingle.Transfer.Sender
import McabberJingle.Jingle.ActionHandlers
import McabberJingle.Jingle.Dispatch
import McabberJingle.Jingle.Invitation
import McabberJingle.Jingle.Requests
import McabberJingle.Jingle.Accepting
import McabberJingle.Jingle.Filling
import McabberJingle.Jingle.Opening
import McabberJingle.Jingle.Making
import McabberJingle.Jingle.Offers
import McabberJingle.Jingle.Wire
import McabberJingle.Transfer.Receiver
import McabberJingle.Transfer.Pump
import McabberJingle.Transfer.Turns
import McabberJingle.System.Machine
import McabberJingle.System.Execution
import McabberJingle.Transfer.Course
import McabberJingle.Transfer.Arrival
import McabberJingle.System.Instances
import McabberJingle.Transfer.Exchange
import McabberJingle.System.Modules
import McabberJingle.Effects.Effect
import McabberJingle.Effects.Layout
import McabberJingle.Effects.Storage
import McabberJingle.Effects.Sessions
import McabberJingle.Effects.Sender
import McabberJingle.Effects.Handlers
import McabberJingle.Effects.Stopping
import McabberJingle.Effects.Machine
import McabberJingle.Effects.Reach
import McabberJingle.Effects.Remaining
import McabberJingle.Effects.Speech
import McabberJingle.Effects.Dialogue
import McabberJingle.Transfer.Feeding
import McabberJingle.Guarantees.Identity
import McabberJingle.Guarantees.AckHandlers
import McabberJingle.Guarantees.Deferred
import McabberJingle.Guarantees.Termination
import McabberJingle.Guarantees.Addressing
import McabberJingle.Guarantees.Consent
import McabberJingle.Guarantees.WellFormed
import McabberJingle.Guarantees.Replies
import McabberJingle.Guarantees.Validation
import McabberJingle.Guarantees.Atomicity
import McabberJingle.Guarantees.Gate
import McabberJingle.Guarantees.Invitations
import McabberJingle.Guarantees.Callbacks
import McabberJingle.Guarantees.Delivery
import McabberJingle.Guarantees.StreamTable
import McabberJingle.Guarantees.Isolation
import McabberJingle.Guarantees.Registration
import McabberJingle.Guarantees.Acceptance
import McabberJingle.Guarantees.Verification
import McabberJingle.Guarantees.Confinement
import McabberJingle.Guarantees.RoundTrip
import McabberJingle.Guarantees.OfferParsing
import McabberJingle.Guarantees.Candidates
import McabberJingle.Guarantees.Selection
import McabberJingle.Guarantees.Offering
import McabberJingle.Guarantees.Retrying
import McabberJingle.Guarantees.Connecting
import McabberJingle.Guarantees.Sending
import McabberJingle.Guarantees.Ending
import McabberJingle.Guarantees.EndToEnd
import McabberJingle.Guarantees.Exchange
import McabberJingle.Guarantees.Understanding
import McabberJingle.Guarantees.MutualConsent
import McabberJingle.Program.Files
import McabberJingle.Program.Following
import McabberJingle.Effects.Filing
import McabberJingle.Effects.Aside
import McabberJingle.Guarantees.WholeTransfer
import McabberJingle.Guarantees.Filing
import McabberJingle.Program.RefCounts
import McabberJingle.System.Client
import McabberJingle.Effects.Wiring
import McabberJingle.Guarantees.Listening
import McabberJingle.Socks5.Messages
import McabberJingle.Socks5.Negotiation
import McabberJingle.Socks5.Streams
import McabberJingle.S5b.Interfaces
import McabberJingle.Guarantees.Buffers
import McabberJingle.Guarantees.Fragmentation
import McabberJingle.Guarantees.Handshake
import McabberJingle.Guarantees.Greeting
import McabberJingle.Guarantees.Admission
import McabberJingle.Guarantees.BlockSizes
import McabberJingle.Guarantees.Numbering
import McabberJingle.Guarantees.Timeouts
import McabberJingle.Guarantees.Flushing
import McabberJingle.Guarantees.OurCandidates
import McabberJingle.Guarantees.Identifiers
import McabberJingle.Guarantees.HangUp
import McabberJingle.Guarantees.Replying
import McabberJingle.Guarantees.Granting
