import Abacus.CommandLine.Options
import Abacus.Report
import Abacus.Run

/-!
# Sessions of the command line

A call ends at once, with the usage or an error in its arguments, or reads its input file. Its
answer to the file is what it prints and its exit status: the bindings and the result of the
program, or the report on its first fault. With the token trace, every token that was pulled is
printed before that.

How files are read is a parameter: `session` runs in any monad in which a path can be asked for its
text.
-/

namespace Abacus.CommandLine

/-- Why a file cannot be read as text. -/
inductive ReadFault where
  | notFound
  | notDirectory
  | isDirectory
  | invalidText
  | other (message : String)
deriving DecidableEq, Repr

/-- What is wrong, in one line. -/
def ReadFault.message : ReadFault → String
  | notFound => "No such file or directory (os error 2)"
  | notDirectory => "Not a directory (os error 20)"
  | isDirectory => "Is a directory (os error 21)"
  | invalidText => "stream did not contain valid UTF-8"
  | other message => message

/-- The text that the bytes of a file stand for. -/
def decode (content : ByteArray) : Except ReadFault String :=
  match String.fromUTF8? content with
  | some text => .ok text
  | none => .error .invalidText

/-- What a call leaves: its exit status and what it printed. -/
structure Outcome where
  status : UInt32
  stdout : String := ""
  stderr : String := ""
deriving DecidableEq, Repr

/-- Lines, each with its newline. -/
def unlines (lines : List String) : String := String.join (lines.map (· ++ "\n"))

/-- The lines for a finished run: the bindings in order, then the result. -/
def resultLines (e : Evaluation) : List String :=
  e.bindings.map (fun (name, value) => name ++ " = " ++ value.text) ++ [e.result.text]

/-- The answer to the text of the input file, which is read, checked and evaluated. The first of
the three that fails ends the call with its report. -/
def respondTo (options : Options) (text : String) : Outcome :=
  let file := options.fileName
  let (parsed, pulled) := Program.parseFrom (.ofText text (some file))
  let trace := if options.traceTokens then unlines (pulled.toList.map Token.traceLine) else ""
  let fail (d : Diagnostic) : Outcome :=
    { status := 1, stdout := trace, stderr := d.report text file }
  match parsed with
  | .error d => fail d
  | .ok program =>
    match program.check with
    | .error fault => fail (.unplaced fault)
    | .ok _ =>
      match program.evaluate with
      | .error fault => fail (.unplaced fault)
      | .ok e => { status := 0, stdout := trace ++ unlines (resultLines e) }

/-- The answer to the input file, which may not be readable. -/
def respond (options : Options) : Except ReadFault String → Outcome
  | .ok text => respondTo options text
  | .error fault =>
    { status := 1
      stderr := unlines ["Error: failed to read " ++ options.input ++ ": " ++ fault.message] }

/-- A whole call, with `read` to read the text at a path. Nothing is logged: the log filter is the
default one, which lets warnings through and no lines on progress. A filter set in the environment
would add such lines to the errors. -/
def session {m : Type → Type} [Monad m] (read : String → m (Except ReadFault String))
    (arguments : List String) : m Outcome :=
  match Options.parse arguments with
  | .error e => pure { status := 2, stderr := unlines ["Error: " ++ e.message, usage] }
  | .ok options =>
    if options.showHelp then pure { status := 0, stdout := unlines [usage] }
    else do
      let content ← read options.input
      return respond options content

end Abacus.CommandLine
