import PanelLink.Proofs.Handshake
import PanelLink.Proofs.Plain
import PanelLink.Proofs.Soundness
import PanelLink.Scene
import PanelLink.Store.Lawful
import PanelLink.Store.Recorded
import PanelLink.Proofs.Animation
import PanelLink.Proofs.Orderly
import PanelLink.Proofs.Teardown
import PanelLink.Proofs.Backed
import PanelLink.Proofs.Books
import PanelLink.Proofs.Contents
import PanelLink.Proofs.Steady
import PanelLink.Proofs.Frames
import PanelLink.Proofs.Projection
import PanelLink.Proofs.Custody
import PanelLink.Proofs.Append
import PanelLink.Proofs.Upload
import PanelLink.Proofs.Carrying
import PanelLink.Proofs.Integrity
import PanelLink.Proofs.Undisturbed
import PanelLink.Proofs.Sending
import PanelLink.Proofs.Answering
import PanelLink.Proofs.RoundTrip
import PanelLink.Proofs.Holding
import PanelLink.Proofs.Dismissal
import PanelLink.Proofs.Accounts
import PanelLink.Proofs.Ownership
import PanelLink.Proofs.Freshness
import PanelLink.Proofs.Alike
import PanelLink.Proofs.Tandem
import PanelLink.Proofs.Unison
import PanelLink.Proofs.Twins
import PanelLink.Proofs.Schedules
import PanelLink.Proofs.Reaching
import PanelLink.Proofs.Outcomes
import PanelLink.Proofs.Fairness
import PanelLink.Proofs.Discipline
import PanelLink.Proofs.Rejection
import PanelLink.Proofs.Unseen
import PanelLink.Proofs.Scripts
import PanelLink.Proofs.Severed
import PanelLink.Proofs.Clock
import PanelLink.Proofs.Drift
import PanelLink.Proofs.Lockstep
import PanelLink.Proofs.Partners
import PanelLink.Proofs.Reset
import PanelLink.Proofs.Codec
import PanelLink.Proofs.Trees
import PanelLink.Proofs.Calls
import PanelLink.Proofs.Room
import PanelLink.Proofs.Framing
import PanelLink.Proofs.Listings
import PanelLink.Proofs.Atomicity
import PanelLink.Proofs.Onscreen
import PanelLink.Proofs.Transfers
import PanelLink.Proofs.Pixels
import PanelLink.Proofs.Chunks
import PanelLink.Proofs.Sequence
import PanelLink.Proofs.Settings
import PanelLink.Proofs.Gathering
import PanelLink.Proofs.Loading
import PanelLink.Proofs.Layout
import PanelLink.Proofs.Reduction
import PanelLink.Proofs.Resolution
import PanelLink.Proofs.Spelling
import PanelLink.Proofs.Generations
import PanelLink.Proofs.Payloads
import PanelLink.Proofs.Images
import PanelLink.Proofs.WorkingDirectory
import PanelLink.Proofs.Sessions
import PanelLink.Proofs.Replies
import PanelLink.Proofs.Capacity
import PanelLink.Proofs.Streaming
