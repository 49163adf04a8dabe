import CameraStream.Proofs.Negotiation.Failure
import CameraStream.Proofs.Negotiation.MostCapable
import CameraStream.Proofs.Negotiation.Shape
import CameraStream.Proofs.Negotiation.Soundness
import CameraStream.Proofs.Negotiation.Dependence
import CameraStream.Simulation.Rehearsal
import CameraStream.Proofs.Pipeline.Move
import CameraStream.Proofs.Pipeline.Scene
import CameraStream.Proofs.Chain
import CameraStream.Proofs.Validation
import CameraStream.Proofs.Pipeline.Beside
import CameraStream.Proofs.Pipeline.Contact
import CameraStream.Proofs.Pipeline.Roster
import CameraStream.Proofs.Pipeline.Standing
import CameraStream.Proofs.Pipeline.Readying
import CameraStream.Proofs.Pipeline.Outline
import CameraStream.Proofs.Pipeline.Representation
import CameraStream.Proofs.Pipeline.Command
import CameraStream.Proofs.Pipeline.Accounting
import CameraStream.Proofs.Library
import CameraStream.Proofs.Intersection
import CameraStream.Proofs.Expansion
import CameraStream.Proofs.Pipeline.Delivery
import CameraStream.Proofs.Pipeline.Figures
import CameraStream.Proofs.Pipeline.Balance
import CameraStream.Proofs.Realization
import CameraStream.Proofs.Processing
import CameraStream.Proofs.Queue
import CameraStream.Proofs.Ownership
import CameraStream.Proofs.Pipeline.Refusal
import CameraStream.Proofs.Session.Course
import CameraStream.Proofs.Session.Loss
import CameraStream.Proofs.Largest
import CameraStream.Proofs.Capability
import CameraStream.Proofs.Pipeline.Progress
import CameraStream.Proofs.Pipeline.Attempt
import CameraStream.Proofs.Pipeline.Rollback
import CameraStream.Proofs.Pixels.Layout
import CameraStream.Proofs.Pixels.Routes
import CameraStream.Proofs.Pixels.Cells
import CameraStream.Proofs.Pixels.Reading
import CameraStream.Proofs.Sorting
import CameraStream.Proofs.Rates
import CameraStream.Proofs.Pixels.Gains
import CameraStream.Proofs.Words
import CameraStream.Proofs.Pixels.Canvas
