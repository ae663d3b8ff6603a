import Parlance.Main
import Parlance.Proofs.Grammar.Concatenation
import Parlance.Proofs.Grammar.EndToken
import Parlance.Proofs.Grammar.LineBreaks
import Parlance.Proofs.Grammar.Position
import Parlance.Proofs.Grammar.Progress
import Parlance.Proofs.Storage.Source
import Parlance.Proofs.Token.Boundary
import Parlance.Proofs.Token.Displayed
import Parlance.Proofs.Token.LineEnding
import Parlance.Proofs.Token.Numeral
import Parlance.Proofs.Token.Quoting
import Parlance.Proofs.Token.Stream
import Parlance.Proofs.Trace
import Parlance.Proofs.Tree.Operation
import Parlance.Proofs.Tree.RoundTrip
import Parlance.Proofs.Tree.Schema
