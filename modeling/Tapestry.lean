import Tapestry.Main
import Tapestry.Proofs.Calls
import Tapestry.Proofs.Grouping
import Tapestry.Proofs.Handles
import Tapestry.Proofs.InRange
import Tapestry.Proofs.SizesOnly
import Tapestry.Proofs.UnknownCommands
import Tapestry.Proofs.Layers
import Tapestry.Proofs.Respacing
import Tapestry.Proofs.Numbering
import Tapestry.Proofs.Rejection
import Tapestry.Proofs.RoundTrip
import Tapestry.Proofs.Pipelines
import Tapestry.Proofs.Tiling
import Tapestry.Proofs.Concatenation
import Tapestry.Proofs.Splicing
import Tapestry.Proofs.Passing
import Tapestry.Proofs.OperandOrder
import Tapestry.Proofs.Pixelwise
import Tapestry.Proofs.ProgramSteps
import Tapestry.Proofs.Sessions
import Tapestry.Proofs.SavedOutput
import Tapestry.Proofs.Anonymous
import Tapestry.Proofs.Attribution
import Tapestry.Proofs.Filling
import Tapestry.Proofs.Saving
import Tapestry.Proofs.Containment
import Tapestry.Proofs.Batches
import Tapestry.Proofs.FlatStages
import Tapestry.Proofs.ReadBack
import Tapestry.Proofs.StageImages
import Tapestry.Proofs.Enlargements
import Tapestry.Proofs.Symmetries
import Tapestry.Proofs.Periodic
import Tapestry.Proofs.Exclusions
import Tapestry.Proofs.Trees
import Tapestry.Proofs.Discovery
import Tapestry.Proofs.RequestedScripts
import Tapestry.Proofs.Congruence
import Tapestry.Proofs.Locality
import Tapestry.Proofs.CommentLines
import Tapestry.Proofs.IgnoredNames
import Tapestry.Proofs.Relocation
import Tapestry.Proofs.Literals
import Tapestry.Proofs.SizeText
import Tapestry.Proofs.ColourText
import Tapestry.Proofs.JsonText
import Tapestry.Proofs.TreeJson
import Tapestry.Proofs.Separation
