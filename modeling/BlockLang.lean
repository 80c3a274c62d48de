import BlockLang.Main
import BlockLang.Proofs.Checked
import BlockLang.Proofs.Diagnostics
import BlockLang.Proofs.Formatting
import BlockLang.Proofs.Grammar.Agreement
import BlockLang.Proofs.Machine.Capacity
import BlockLang.Proofs.Machine.Frames
import BlockLang.Proofs.Machine.Isolation
import BlockLang.Proofs.Typing.Incremental
import BlockLang.Proofs.Renaming
import BlockLang.Proofs.Token.Seams
import BlockLang.Proofs.Grammar.Concatenation
import BlockLang.Proofs.Grammar.Progress
import BlockLang.Proofs.Feedback
import BlockLang.Proofs.Annotations
import BlockLang.Proofs.Token.Matching
import BlockLang.Proofs.Token.Segments
import BlockLang.Proofs.Token.Spacing
import BlockLang.Proofs.Layout.Tidying
import BlockLang.Proofs.Layout.Phrases
import BlockLang.Proofs.Shortest
import BlockLang.Proofs.Grammar.Lookahead
import BlockLang.Proofs.Grammar.Shapes
import BlockLang.Proofs.Typing.ScopeFaults
import BlockLang.Proofs.Typing.Footprint
import BlockLang.Proofs.Typing.Context
import BlockLang.Proofs.Machine.FrameStack
import BlockLang.Proofs.Typing.SymbolStack
import BlockLang.Proofs.Machine.Integers
import BlockLang.Proofs.Machine.LoopFree
import BlockLang.Proofs.Grammar.Leaves
import BlockLang.Proofs.Grammar.Resumption
import BlockLang.Proofs.Layout.Nesting
import BlockLang.Proofs.Token.Constants
import BlockLang.Proofs.Decimal.Documented
import BlockLang.Proofs.Json.Texts
import BlockLang.Proofs.Json.Unambiguous
import BlockLang.Proofs.Json.Blanks
import BlockLang.Proofs.Documents
