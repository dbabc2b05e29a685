import Bucket.Command.Log
import Bucket.Main
import Bucket.Proofs.BlankLines
import Bucket.Proofs.CommandLine
import Bucket.Proofs.Concatenation
import Bucket.Proofs.Descent.Termination
import Bucket.Proofs.Directory
import Bucket.Proofs.FaultPlaces
import Bucket.Proofs.Grammar.Precedence
import Bucket.Proofs.Grammar.Viable
import Bucket.Proofs.Layout
import Bucket.Proofs.Lexing.LongestMatch
import Bucket.Proofs.Lexing.Nesting
import Bucket.Proofs.Lexing.Progress
import Bucket.Proofs.Lexing.Quoted
import Bucket.Proofs.Lexing.Separator
import Bucket.Proofs.Listing.Distinct
import Bucket.Proofs.Parsing.FirstFault
import Bucket.Proofs.Parsing.Literals
import Bucket.Proofs.Parsing.Moving
import Bucket.Proofs.Places
import Bucket.Proofs.Printing.Compilation
import Bucket.Proofs.Printing.Headings
import Bucket.Proofs.Scoping.Acyclic
import Bucket.Proofs.Scoping.Exchange
import Bucket.Proofs.Scoping.Remains
import Bucket.Proofs.Scoping.Renumbering
import Bucket.Proofs.Spans.Exactness
import Bucket.Tree.Node
import Bucket.Tree.Spans
