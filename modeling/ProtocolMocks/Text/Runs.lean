/-!
# Sets of code points as runs

A large set of code points is written as the lengths of the runs that lie outside and inside it in
turn, starting from zero with a run outside.
-/

namespace ProtocolMocks.Text

/-- Whether a number lies in a set given by its runs, the first of which lies inside if asked for.
What follows the last run is outside. -/
def inRunsFrom : Bool → List Nat → Nat → Bool
  | _, [], _ => false
  | inside, run :: runs, n => if n < run then inside else inRunsFrom (!inside) runs (n - run)

/-- Whether a character lies in a set given by its runs. -/
def inRuns (runs : List Nat) (c : Char) : Bool := inRunsFrom false runs c.toNat

end ProtocolMocks.Text
