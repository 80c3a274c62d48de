import BlockLang.Fault.Report
import BlockLang.Program.Document
import BlockLang.Source

/-!
# The command line

`Invocation.ofArgs` reads the arguments of the program and `Invocation.respond` says what the
program answers to them: an exit code and what it writes to its two outputs.  Reading a file is
left to the caller.

A source is a file or a text given with `-e`.  It can be run, checked, listed as tokens, put into
its canonical form, or written out as a tree.
-/

namespace BlockLang

/-- What is to be done with a source. -/
inductive Action
  | run
  | check
  | tokens
  | format
  | tree
  deriving DecidableEq, Repr, Inhabited

/-- The action that a command names. -/
def Action.ofCommand? : String → Option Action
  | "run" => some run
  | "check" => some check
  | "tokens" => some tokens
  | "fmt" => some format
  | "ast" => some tree
  | _ => none

/-- Where a source is from. -/
inductive Origin
  | file (path : String)
  | inline (source : String)
  deriving DecidableEq, Repr, Inhabited

/-- The name of a source in an answer. -/
def Origin.name : Origin → String
  | file path => path
  | inline _ => "<inline>"

/-- What the arguments ask for. -/
inductive Invocation
  /-- Do something with a source.  The feedback of a check can be asked for as a document. -/
  | perform (action : Action) (asDocument : Bool) (origin : Origin)
  | version
  | help
  /-- There are no arguments. -/
  | nothing
  /-- The arguments make no sense. -/
  | misuse
  deriving DecidableEq, Repr, Inhabited

/-! ## Reading arguments -/

/-- One argument. -/
inductive Argument
  /-- The mark behind which no argument is an option. -/
  | endOfOptions
  /-- The option for a source text, with the text if that is in the same argument. -/
  | inline (source : Option String)
  | json
  | help
  | version
  | unknown
  | plain (text : String)
  deriving DecidableEq, Repr, Inhabited

namespace Argument

/-- An option that consists of single letters, behind its dash.  Behind an `e` the rest is the
source text, with or without an equals sign before it. -/
def ofLetters : List Char → Argument
  | ['e'] => inline none
  | 'e' :: '=' :: source => inline (some (String.ofList source))
  | 'e' :: source => inline (some (String.ofList source))
  | 'h' :: _ => help
  | 'V' :: _ => version
  | _ => unknown

/-- An option that is a word, behind its two dashes. -/
def ofWord (word : List Char) : Argument :=
  match String.ofList (word.takeWhile (· ≠ '=')), word.dropWhile (· ≠ '=') with
  | "eval", [] => inline none
  | "eval", _ :: source => inline (some (String.ofList source))
  | "json", [] => json
  | "help", [] => help
  | "version", [] => version
  | _, _ => unknown

/-- Read an argument.  A dash alone is no option. -/
def ofString (text : String) : Argument :=
  match text.toList with
  | ['-', '-'] => endOfOptions
  | '-' :: '-' :: word => ofWord word
  | '-' :: c :: letters => ofLetters (c :: letters)
  | _ => plain text

end Argument

namespace Invocation

/-- What has been read behind a command. -/
structure Given where
  file : Option String
  inline : Option String
  json : Bool
  /-- Whether the next argument has to be a source text. -/
  waiting : Bool
  deriving DecidableEq, Repr

namespace Given

/-- Nothing has been read. -/
def nothing : Given :=
  ⟨none, none, false, false⟩

/-- A command with all its arguments, of which exactly one gives the source. -/
def finish (action : Action) : Given → Invocation
  | ⟨some path, none, json, false⟩ => perform action json (.file path)
  | ⟨none, some source, json, false⟩ => perform action json (.inline source)
  | _ => misuse

end Given

/-- The arguments of a command behind the mark that ends its options. -/
def ofPlainArgs (action : Action) (given : Given) : List String → Invocation
  | [] => given.finish action
  | path :: rest =>
    if path = "" ∨ given.file.isSome then misuse
    else ofPlainArgs action { given with file := some path } rest

/-- The arguments behind a command. -/
def ofCommandArgs (action : Action) (given : Given) : List String → Invocation
  | [] => given.finish action
  | arg :: rest =>
    match given.waiting, Argument.ofString arg with
    | true, .plain source =>
      ofCommandArgs action { given with inline := some source, waiting := false } rest
    | true, _ => misuse
    | false, .endOfOptions => ofPlainArgs action given rest
    | false, .help => help
    | false, .json =>
      if action = .check ∧ given.json = false then
        ofCommandArgs action { given with json := true } rest
      else misuse
    | false, .inline source =>
      if given.inline.isSome then misuse
      else ofCommandArgs action { given with inline := source, waiting := source.isNone } rest
    | false, .plain path =>
      if path = "" ∨ given.file.isSome then misuse
      else ofCommandArgs action { given with file := some path } rest
    | false, _ => misuse

/-- A file that is to be run because no command is given. -/
def ofFile : Option String → Invocation
  | none => nothing
  | some path => perform .run false (.file path)

/-- The arguments of the program.  `file` is the one before them, if there is one; a command
behind a file takes its place. -/
def ofArgsBehind (file : Option String) : List String → Invocation
  | [] => ofFile file
  | arg :: rest =>
    match Argument.ofString arg with
    | .version => version
    | .help => help
    | .endOfOptions =>
      match file, rest with
      | _, [] => ofFile file
      | none, [path] => if path = "" then misuse else ofFile (some path)
      | _, _ => misuse
    | .plain text =>
      match Action.ofCommand? text with
      | some action => ofCommandArgs action .nothing rest
      | none =>
        if text = "help" then help
        else if text = "" ∨ file.isSome then misuse
        else ofArgsBehind (some text) rest
    | _ => misuse

/-- The arguments of the program. -/
def ofArgs (args : List String) : Invocation :=
  ofArgsBehind none args

/-- The file that has to be read for an answer. -/
def path? : Invocation → Option String
  | perform _ _ (.file path) => some path
  | _ => none

end Invocation

/-! ## Answers -/

/-- Why a file cannot be read. -/
inductive ReadFault
  | missing
  | notText
  | other (reason : String)
  deriving DecidableEq, Repr, Inhabited

/-- The wording of the reason. -/
def ReadFault.message : ReadFault → String
  | missing => "No such file or directory (os error 2)"
  | notText => "stream did not contain valid UTF-8"
  | other reason => reason

/-- What the program answers. -/
structure Response where
  code : Nat
  stdout : String
  stderr : String
  deriving DecidableEq, Repr, Inhabited

namespace Response

/-- A line that reports an error. -/
def errorLine (message : String) : String :=
  "error: " ++ message ++ "\n"

/-- The lines that report a fault: one for each fault of a collection, and one for the whole. -/
def faultLines : Fault → String
  | .typeErrors faults =>
    String.join (faults.map fun fault => errorLine fault.message) ++
      errorLine (Fault.typeErrors faults).message
  | fault => errorLine fault.message

/-- The answer with what was written, if all went well, and with the fault otherwise. -/
def ofOutcome (stdout : String) : Outcome Fault Unit → Response
  | .done () => ⟨0, stdout, ""⟩
  | .failed fault => ⟨1, stdout, faultLines fault⟩
  | .unfinished => ⟨1, stdout, errorLine "the run was stopped"⟩

/-- The answer with a text, or with the fault for which there is none. -/
def ofText (text : Outcome Fault String) : Response :=
  match text with
  | .done text => ⟨0, text, ""⟩
  | .failed fault => ofOutcome "" (.failed fault)
  | .unfinished => ofOutcome "" .unfinished

/-- A line of a token listing: the line in four columns, the kind in ten, and the text. -/
def tokenLine (token : Token) : String :=
  let line := toString token.line
  let label := token.kind.label
  "".pushn ' ' (4 - line.length) ++ line ++ "  " ++ label.pushn ' ' (10 - label.length) ++ " " ++
    token.text ++ "\n"

/-- The answer to a check with the feedback as a document. -/
def ofFeedback (feedback : Feedback) : Response :=
  ⟨if feedback.success then 0 else 1, feedback.document.pretty ++ "\n", ""⟩

/-- The answer for a source, of which `name` is the name. -/
def ofSource (action : Action) (asDocument : Bool) (name source : String) : Response :=
  match action with
  | .run =>
    let (outcome, out) := Source.run source Buffer.unbounded
    ofOutcome out.text outcome
  | .check =>
    let checked := Source.check source
    if asDocument then
      match checked with
      | .done program => ofFeedback (.ofProgram name program)
      | .failed fault => ofFeedback (.ofFault name fault)
      | .unfinished => ofOutcome "" .unfinished
    else
      ofText (do
        let _ ← checked
        return "No errors found in " ++ name ++ "\n")
  | .tokens =>
    ofText (do
      let tokens ← Outcome.ofExcept (Source.tokens source)
      return String.join (tokens.map tokenLine))
  | .format => ofText (Source.format source)
  | .tree =>
    ofText (do
      let program ← Source.parse source
      return program.document.pretty ++ "\n")

/-- The usage of the program. -/
def usage : String :=
  "Usage: wabbit [FILE]\n" ++
  "       wabbit run|tokens|fmt|ast <FILE | -e SOURCE>\n" ++
  "       wabbit check [--json] <FILE | -e SOURCE>\n"

/-- What is answered when there are no arguments. -/
def noInput : String :=
  "Error: No input file specified\nUsage: wabbit <FILE> or wabbit run <FILE>\n"

end Response

/-- The answer to an invocation, with the content of its file if it has one. -/
def Invocation.respond (invocation : Invocation) (content : Except ReadFault String) : Response :=
  match invocation with
  | perform action asDocument (.inline source) =>
    .ofSource action asDocument (Origin.inline source).name source
  | perform action asDocument (.file path) =>
    match content with
    | .ok source => .ofSource action asDocument (Origin.file path).name source
    | .error fault =>
      ⟨1, "", Response.errorLine ("failed to read " ++ path ++ ": " ++ fault.message)⟩
  | version => ⟨0, "wabbit 0.1.0\n", ""⟩
  | help => ⟨0, Response.usage, ""⟩
  | nothing => ⟨1, "", Response.noInput⟩
  | misuse => ⟨2, "", Response.usage⟩

end BlockLang
