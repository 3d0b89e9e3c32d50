import MiniC.Analysis
import MiniC.Collector
import MiniC.Diagnostic
import MiniC.Grammar.Complaint
import MiniC.Grammar.Expression
import MiniC.Grammar.Program
import MiniC.Grammar.Rule
import MiniC.Grammar.Statement
import MiniC.Keyword
import MiniC.Kind
import MiniC.Lexical.Chars
import MiniC.Lexical.Piece
import MiniC.Lexical.Scan
import MiniC.Log
import MiniC.Sentence
import MiniC.Sign
import MiniC.Token
import MiniC.Unicode.Alphabetic
import MiniC.Unicode.Numeric
import MiniC.Unicode.Ranges
import MiniC.Verdict
import MiniC.Proofs.Grammar.Judgment
import MiniC.Proofs.Grammar.Tree
import MiniC.Proofs.Grammar.Parts
import MiniC.Proofs.Grammar.Soundness
import MiniC.Proofs.Acceptance
import MiniC.Proofs.Grammar.Else
import MiniC.Proofs.Grammar.Locality
import MiniC.Proofs.Earliest
import MiniC.Proofs.Lexical.Munch
import MiniC.Proofs.Lexical.Split
import MiniC.Proofs.Lexical.Reading
import MiniC.Proofs.Blanking
import MiniC.Proofs.Lexical.Newline
import MiniC.Proofs.Grammar.Reach
import MiniC.Proofs.Quoting
import MiniC.Proofs.Prepending
import MiniC.Proofs.Cursors
import MiniC.Proofs.Grammar.Segment
import MiniC.Proofs.Neighbours
import MiniC.Proofs.Citation
import MiniC.Proofs.Printing
import MiniC.Proofs.Grammar.FollowUps
import MiniC.Proofs.Order
import MiniC.Proofs.Grammar.Moves
import MiniC.Proofs.Grammar.Walker
import MiniC.Proofs.Grammar.Yields
import MiniC.Proofs.Grammar.Walking
import MiniC.Proofs.Lexical.Head
import MiniC.Proofs.Narration
import MiniC.Proofs.Appending
import MiniC.Proofs.Trails
import MiniC.Proofs.Grammar.Footing
import MiniC.Proofs.Limit
import MiniC.Proofs.Standing
import MiniC.Proofs.Precedence
import MiniC.Proofs.Horizon
import MiniC.Proofs.Closing
import MiniC.Proofs.LineEndings
import MiniC.Proofs.Contract
import MiniC.Proofs.Grammar.Calls
import MiniC.Proofs.Termination
import MiniC.Proofs.Bounds
