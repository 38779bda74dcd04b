import Registrar.Main
import Registrar.Proofs.Generation.Usage
import Registrar.Proofs.Generation.Faults
import Registrar.Proofs.Config.Nearest
import Registrar.Proofs.Markup.Completeness
import Registrar.Proofs.Markup.CursorDocument
import Registrar.Proofs.Markup.References
import Registrar.Proofs.Markup.Soundness
import Registrar.Proofs.Selection.Entries
import Registrar.Proofs.Selection.Spelling
import Registrar.Proofs.Registration.RoundTrip
import Registrar.Proofs.Registration.Bindings
import Registrar.Proofs.Registration.Directives
import Registrar.Proofs.Markup.Opaque
import Registrar.Proofs.Command.Output
import Registrar.Proofs.Markup.Concat
import Registrar.Proofs.Markup.Truncation
import Registrar.Proofs.Markup.Shape
import Registrar.Proofs.Markup.Culprit
import Registrar.Proofs.Config.Barrier
import Registrar.Proofs.Catalog.Declared
import Registrar.Proofs.Files.Scanned
import Registrar.Proofs.Markup.Content
import Registrar.Proofs.Config.Layout
import Registrar.Proofs.Naming.Cuts
import Registrar.Proofs.Settings.Precedence
