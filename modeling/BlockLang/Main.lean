import BlockLang.CommandLine

/-!
# The program

Reads the file that the arguments ask for, if there is one, and writes the answer of
`Invocation.respond` to the outputs.
-/

namespace BlockLang

/-- The content of a file. -/
def readSource (path : String) : IO (Except ReadFault String) := do
  try
    let bytes ← IO.FS.readBinFile path
    match String.fromUTF8? bytes with
    | some source => return .ok source
    | none => return .error .notText
  catch
    | .noFileOrDirectory .. => return .error .missing
    | reason => return .error (.other (toString reason))

end BlockLang

open BlockLang in
/-- Answer the arguments. -/
def main (args : List String) : IO UInt32 := do
  let invocation := Invocation.ofArgs args
  let content ← match invocation.path? with
    | some path => readSource path
    | none => pure (.error .missing)
  let response := invocation.respond content
  IO.print response.stdout
  IO.eprint response.stderr
  return response.code.toUInt32
