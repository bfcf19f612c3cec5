import Abacus.CommandLine.Path
import Abacus.Text.Quoted

/-!
# Command line options

At most one input file, a switch that prints every token, and a switch for help, in any order. The
first argument that does not fit is reported.
-/

namespace Abacus.CommandLine

open Abacus.Text (quote)

/-- What the command line asks for. -/
structure Options where
  input : String := "foobar.txt"
  traceTokens : Bool := false
  showHelp : Bool := false
deriving DecidableEq, Repr

/-- An argument that does not fit. -/
inductive UsageError where
  | unknownFlag (flag : String)
  | tooManyArguments (argument : String)
deriving DecidableEq, Repr

/-- What is wrong, in one line. -/
def UsageError.message : UsageError → String
  | unknownFlag flag => "unknown flag " ++ quote flag
  | tooManyArguments argument =>
    "unexpected argument " ++ quote argument ++ ", only one input file is accepted"

/-- The line that tells how to call the program. -/
def usage : String := "usage: minic [--tokens] [FILE]"

/-- Whether an argument has the form of a flag: a dash and more. -/
def isFlag (argument : String) : Bool :=
  match argument.toList with
  | '-' :: _ :: _ => true
  | _ => false

namespace Options

/-- Reads arguments on top of options; `path?` is the input file given before. -/
def parseFrom (options : Options) (path? : Option String) :
    List String → Except UsageError Options
  | [] => .ok { options with input := path?.getD options.input }
  | argument :: arguments =>
    if argument = "--tokens" then
      parseFrom { options with traceTokens := true } path? arguments
    else if argument = "-h" ∨ argument = "--help" then
      parseFrom { options with showHelp := true } path? arguments
    else if isFlag argument then .error (.unknownFlag argument)
    else
      match path? with
      | some _ => .error (.tooManyArguments argument)
      | none => parseFrom options (some argument) arguments

/-- Reads the arguments of a call. -/
def parse (arguments : List String) : Except UsageError Options := parseFrom {} none arguments

/-- The input file as reports name it: without its directories, if that leaves a name. -/
def fileName (options : Options) : String := (fileName? options.input).getD options.input

end Options

end Abacus.CommandLine
