import BlockLang.Machine.Execution
import BlockLang.Program.Layout
import BlockLang.Program.Parser
import BlockLang.Typing.TypeChecker

/-!
# From source text to results

What can be done with the text of a program: list its tokens, read it, check it, put it into its
canonical form, and run it.  Each step passes on the first fault that it meets.  Reading and
checking always come to an end, so only a run can be `Outcome.unfinished`.
-/

namespace BlockLang.Source

/-- The tokens of a source, up to and including the end of the input. -/
def tokens (source : String) : Except Fault (List Token) :=
  (Lexer.ofString source).tokenize.1

/-- The program of a source, whether or not its types are right. -/
def parse (source : String) : Outcome Fault Program := do
  let parser ← .ofExcept (Parser.ofLexer (.ofString source))
  (Parser.program.run parser).1

/-- The program of a source, if its types are right. -/
def check (source : String) : Outcome Fault Program := do
  let program ← parse source
  .ofExcept program.check
  return program

/-- The canonical form of a source. -/
def format (source : String) : Outcome Fault String := do
  let program ← parse source
  return program.format

/-- A limit on the repetitions of a loop that no run reaches in practice: `2 ^ 62`. -/
def loopBound : Nat := 4611686018427387904

/-- Run a program if there is one, and otherwise leave the sink as it is. -/
def runOn {σ : Type} [Sink σ] (program : Outcome Fault Program) (out : σ) :
    Outcome Fault Unit × σ :=
  match program with
  | .done program => program.run loopBound out
  | .failed fault => (.failed fault, out)
  | .unfinished => (.unfinished, out)

/-- Run a source.  Nothing runs if the types are not right. -/
def run {σ : Type} [Sink σ] (source : String) (out : σ) : Outcome Fault Unit × σ :=
  runOn (check source) out

/-- Run a source whether or not its types are right. -/
def runUnchecked {σ : Type} [Sink σ] (source : String) (out : σ) : Outcome Fault Unit × σ :=
  runOn (parse source) out

end BlockLang.Source
