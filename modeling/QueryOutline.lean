import QueryOutline.Main
import QueryOutline.Node.Reading
import QueryOutline.Proofs.Display.Nesting
import QueryOutline.Proofs.Display.Parents
import QueryOutline.Proofs.Grammar.Provenance
import QueryOutline.Proofs.Grammar.Reports
import QueryOutline.Proofs.Grammar.Truncation
import QueryOutline.Proofs.Outline.EagerReset
import QueryOutline.Proofs.Outline.Highlights
import QueryOutline.Proofs.Outline.Searching
import QueryOutline.Proofs.Token.Cutting
import QueryOutline.Proofs.Written.Printing
import QueryOutline.Proofs.Token.EndState
import QueryOutline.Proofs.CommandLine.Excerpt
import QueryOutline.Proofs.Grammar.Captures
import QueryOutline.Proofs.Outline.Toggling
import QueryOutline.Proofs.CommandLine.Toggles
import QueryOutline.Proofs.Node.Rebuilding
import QueryOutline.Proofs.Settings.Refusals
import QueryOutline.Proofs.Outline.Painted
import QueryOutline.Proofs.Settings.Bounds
import QueryOutline.Proofs.Display.LineBreaks
import QueryOutline.Proofs.Written.Spacing
import QueryOutline.Proofs.CommandLine.PathArgument
import QueryOutline.Proofs.Outline.Gestures
