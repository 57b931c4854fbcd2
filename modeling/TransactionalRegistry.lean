import TransactionalRegistry.Script.Run
import TransactionalRegistry.Proofs.Ends
import TransactionalRegistry.Proofs.Looking
import TransactionalRegistry.Proofs.Timeless
import TransactionalRegistry.Proofs.Calls
import TransactionalRegistry.Proofs.Deciding
import TransactionalRegistry.Proofs.History
import TransactionalRegistry.Proofs.Snapshots
import TransactionalRegistry.Proofs.LiveTrees
import TransactionalRegistry.Proofs.Commits
import TransactionalRegistry.Proofs.Agreement
import TransactionalRegistry.Proofs.Mirror
import TransactionalRegistry.Proofs.SideBySide
import TransactionalRegistry.Proofs.Work
import TransactionalRegistry.Proofs.Operations
import TransactionalRegistry.Proofs.Programs
import TransactionalRegistry.Proofs.Finishing
import TransactionalRegistry.Proofs.Transparency
import TransactionalRegistry.Proofs.Isolation
import TransactionalRegistry.Proofs.Allotting
import TransactionalRegistry.Proofs.Acts
import TransactionalRegistry.Proofs.Entering
import TransactionalRegistry.Proofs.Finalizing
import TransactionalRegistry.Proofs.Routines
import TransactionalRegistry.Proofs.Sessions
import TransactionalRegistry.Proofs.Dialogues
import TransactionalRegistry.Proofs.Passages
import TransactionalRegistry.Proofs.AmbientStack
import TransactionalRegistry.Proofs.Courses
import TransactionalRegistry.Proofs.Finalization
import TransactionalRegistry.Proofs.Admission
import TransactionalRegistry.Proofs.Traffic
import TransactionalRegistry.Proofs.Clones
import TransactionalRegistry.Proofs.Counting
import TransactionalRegistry.Proofs.Closing
import TransactionalRegistry.Proofs.Timelines
import TransactionalRegistry.Proofs.Contributing
import TransactionalRegistry.Proofs.Fates
import TransactionalRegistry.Proofs.AllOrNothing
import TransactionalRegistry.Proofs.Deadlines
import TransactionalRegistry.Proofs.Verdicts
import TransactionalRegistry.Proofs.Turns
import TransactionalRegistry.Proofs.Lifetimes
import TransactionalRegistry.Proofs.Views
import TransactionalRegistry.Proofs.Stopped
import TransactionalRegistry.Proofs.Inside
import TransactionalRegistry.Proofs.Grafting
import TransactionalRegistry.Proofs.Flattening
import TransactionalRegistry.Proofs.FlatModel
import TransactionalRegistry.Proofs.Naming
import TransactionalRegistry.Proofs.WellNamed
import TransactionalRegistry.Proofs.Refusals
import TransactionalRegistry.Proofs.Releasing
import TransactionalRegistry.Proofs.Routes
import TransactionalRegistry.Proofs.Handles
import TransactionalRegistry.Proofs.RootHandles
import TransactionalRegistry.Proofs.ProtectedPlaces
import TransactionalRegistry.Proofs.Seeing
import TransactionalRegistry.Proofs.InScene
import TransactionalRegistry.Proofs.Answers
import TransactionalRegistry.Proofs.Existence
import TransactionalRegistry.Proofs.Destinations
import TransactionalRegistry.Proofs.Renaming
import TransactionalRegistry.Proofs.Codec
import TransactionalRegistry.Proofs.ReadingBack
import TransactionalRegistry.Proofs.Listings
import TransactionalRegistry.Proofs.Grammar
import TransactionalRegistry.Proofs.RoundTrip
import TransactionalRegistry.Proofs.Commuting
import TransactionalRegistry.Proofs.IndependentCommits
import TransactionalRegistry.Proofs.HeldKeys
import TransactionalRegistry.Proofs.Truthfulness
import TransactionalRegistry.Proofs.PathTexts
import TransactionalRegistry.Proofs.PathAlgebra
import TransactionalRegistry.Proofs.Creations
import TransactionalRegistry.Proofs.Timeouts
import TransactionalRegistry.Proofs.EqualKeys
import TransactionalRegistry.Proofs.StaleHandles
import TransactionalRegistry.Proofs.LastWrites
