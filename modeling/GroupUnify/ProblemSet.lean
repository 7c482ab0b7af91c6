/-!
# Built-in problem sets

A problem set is a named list of equations, one per line of input.
-/

namespace GroupUnify

/-- A named list of problems. -/
structure ProblemSet where
  name : String
  description : String
  problems : List String
deriving DecidableEq, Repr

namespace ProblemSet

/-- Problems without constants on one side or the other. -/
def basic : ProblemSet where
  name := "basic"
  description := "Commutativity, cancellation and torsion"
  problems := [
    -- equal by commutativity
    "x + y = y + x",
    -- equal by cancellation
    "x + -x = 0",
    -- no torsion: only the identity works
    "2x = 0",
    "x = y",
    "x + y = a",
    "2x + y = 3z",
    "-(x + y) = y - x",
    "3(x - y) = 0"]

/-- Problems that take several rounds. -/
def worked : ProblemSet where
  name := "worked"
  description := "Inhomogeneous problems needing Euclidean reduction"
  problems := [
    "64x - 41y = a",
    "64x = 41y + a",
    "2x = a",
    "2x = 2a",
    "6x + 10y = 4a + 8b",
    "2x + 4y = a"]

/-- Lines that cannot be read, and one that can. -/
def errors : ProblemSet where
  name := "errors"
  description := "Malformed lines mixed with a good one: the batch keeps going"
  problems := [
    "x + y",
    "x = ",
    "2 = x",
    "x = (y",
    "g1 = x",
    "x = y z",
    "x + y = y + x"]

/-- All problem sets, in the order in which they are listed. -/
def all : List ProblemSet := [basic, worked, errors]

/-- The problem set of a name. -/
def find? (name : String) : Option ProblemSet := all.find? fun s => s.name == name

end ProblemSet

end GroupUnify
