import Reckon.Calculator
import Reckon.Log.Clock
import Reckon.Log.Logger
import Reckon.Log.Setup
import Reckon.PlainDisk
import Reckon.Session
import Reckon.Proofs.Lexeme
import Reckon.Proofs.Arguments
import Reckon.Proofs.Built
import Reckon.Proofs.Descent
import Reckon.Proofs.Rendering
import Reckon.Proofs.RoundTrip
import Reckon.Proofs.Acceptance
import Reckon.Proofs.Safety
import Reckon.Proofs.Grouping
import Reckon.Proofs.Rereading
import Reckon.Proofs.Misreading
import Reckon.Proofs.EntryPoints
import Reckon.Proofs.Brackets
import Reckon.Proofs.Snapshot
import Reckon.Proofs.Respelling
import Reckon.Proofs.Necessity
import Reckon.Proofs.Arity
import Reckon.Proofs.Layers
import Reckon.Proofs.Access
import Reckon.Proofs.Matching
import Reckon.Proofs.Partition
import Reckon.Proofs.Trace
import Reckon.Proofs.ZeroBand
import Reckon.Proofs.Merging
import Reckon.Proofs.Positional
import Reckon.Proofs.Rounding
import Reckon.Proofs.Packing
import Reckon.Proofs.Conversion
import Reckon.Proofs.Exactness
import Reckon.Proofs.Nearest
import Reckon.Proofs.Literal
