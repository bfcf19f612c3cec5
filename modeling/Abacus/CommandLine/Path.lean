/-!
# Paths

A path is a text divided by slashes. Empty segments and the segment `.` lead nowhere.
-/

namespace Abacus.CommandLine

/-- The segments between the slashes of a path. -/
def segments : List Char → List (List Char)
  | [] => [[]]
  | c :: cs =>
    if c = '/' then [] :: segments cs
    else
      match segments cs with
      | [] => [[c]]
      | s :: ss => (c :: s) :: ss

/-- Whether a segment stays where it is. -/
def isIdle (segment : List Char) : Bool := segment == [] || segment == ['.']

/-- The last segment that leads somewhere, unless it leads up. -/
def fileName? (path : String) : Option String :=
  match ((segments path.toList).filter fun s => !isIdle s).getLast? with
  | none => none
  | some s => if s = ['.', '.'] then none else some (String.ofList s)

end Abacus.CommandLine
