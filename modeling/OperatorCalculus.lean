import OperatorCalculus.Main
import OperatorCalculus.CommandLine.Disk
import OperatorCalculus.Expression.Lexeme
import OperatorCalculus.Store.Script
import OperatorCalculus.Search.Script
import OperatorCalculus.Proofs.Search.Schedule
import OperatorCalculus.Proofs.Expression.Cover
import OperatorCalculus.Proofs.Expression.Scan
import OperatorCalculus.Proofs.Expression.Word
import OperatorCalculus.Proofs.Expression.Call
import OperatorCalculus.Proofs.Expression.Reading
import OperatorCalculus.Proofs.Expression.Reads
import OperatorCalculus.Proofs.Expression.Extraction
import OperatorCalculus.Proofs.Expression.Numbering
import OperatorCalculus.Proofs.Search.Verdict
import OperatorCalculus.Proofs.Expression.Renaming
import OperatorCalculus.Proofs.Search.Invariance
import OperatorCalculus.Proofs.Expression.Chunks
import OperatorCalculus.Proofs.Expression.Instance
import OperatorCalculus.Proofs.Inference.Replacement
import OperatorCalculus.Proofs.Expression.Exchange
import OperatorCalculus.Proofs.Inference.Acceptance
import OperatorCalculus.Proofs.Search.Soundness
import OperatorCalculus.Proofs.Search.Exchange
import OperatorCalculus.Proofs.Search.Act
import OperatorCalculus.Proofs.Search.Coherence
import OperatorCalculus.Proofs.Search.Cancellation
import OperatorCalculus.Proofs.Search.Completeness
import OperatorCalculus.Proofs.Search.Context
import OperatorCalculus.Proofs.Store.Verdict
import OperatorCalculus.Proofs.Search.Termination
import OperatorCalculus.Proofs.CommandLine.Extraction
import OperatorCalculus.Proofs.Expression.Reference
import OperatorCalculus.Proofs.Expression.LeftToRight
import OperatorCalculus.Proofs.Latex.DataModule
import OperatorCalculus.Proofs.CommandLine.Listing
import OperatorCalculus.Proofs.Expression.Faithful
import OperatorCalculus.Proofs.Inference.Reversal
import OperatorCalculus.Proofs.Expression.Lexemes
import OperatorCalculus.Proofs.Expression.Tokens
import OperatorCalculus.Proofs.Inference.ShapeGuard
import OperatorCalculus.Proofs.Expression.Escape
import OperatorCalculus.Proofs.Search.Pacing
import OperatorCalculus.Proofs.Latex.Comment
import OperatorCalculus.Proofs.Latex.Chapter
import OperatorCalculus.Proofs.Latex.Selection
import OperatorCalculus.Proofs.Latex.Repetition
import OperatorCalculus.Proofs.Expression.Greedy
import OperatorCalculus.Proofs.Latex.CleanLine
import OperatorCalculus.Proofs.Latex.Identifier
import OperatorCalculus.Proofs.CommandLine.Identifier
import OperatorCalculus.Proofs.Store.Search
import OperatorCalculus.Proofs.Latex.Automaton
import OperatorCalculus.Proofs.Rule.Grouping
