import RuleScout.Failure
import RuleScout.Files.Tree
import RuleScout.Number.Word

/-!
# What a command leaves behind

A command changes nothing but the tree of files. Everything else that can be seen of it is
what it prints and the status that it ends with.
-/

set_option autoImplicit false

namespace RuleScout

/-- How a command ends. A command that finds errors ends with an error status as well, and one
in which a number is too large ends on the spot. -/
inductive Verdict where
  | passed
  | foundErrors
  | failed (f : Failure)
  | aborted (e : Word.Overflow)
  deriving DecidableEq, Repr

namespace Verdict

def status : Verdict → Nat
  | .passed => 0
  | .foundErrors | .failed _ => 1
  | .aborted _ => 101

def failure? : Verdict → Option Failure
  | .failed f => some f
  | .passed | .foundErrors | .aborted _ => none

end Verdict

/-- `tree` is the tree of files after the command. Notes are what is printed beside the
output proper. -/
structure Effect where
  tree : FileTree
  output : String := ""
  notes : String := ""
  verdict : Verdict := .passed

namespace Effect

def print (tree : FileTree) (output : String) : Effect := { tree, output }

def fail (tree : FileTree) (f : Failure) (output : String := "") : Effect :=
  { tree, output, verdict := .failed f }

def abort (tree : FileTree) (e : Word.Overflow) : Effect := { tree, verdict := .aborted e }

def ofExcept (tree : FileTree) : Except Failure String → Effect
  | .ok output => print tree output
  | .error f => fail tree f

end Effect

def linesText (lines : List String) : String := String.join (lines.map (· ++ "\n"))

end RuleScout
