/-!
# Policies

A policy says how well a text fits a mask and whether trailing literals are written unasked.
`Weights` holds the score of each event of a run.
-/

namespace TextMask

/-- The score of an event: a character that was consumed, a slot that was passed without consuming
one, and a character that was dropped. -/
structure Weights where
  consumed : Int := 1
  notConsumed : Int := -1
  dropped : Int := -1
  deriving DecidableEq, Repr

/-- How masks score and whether they complete literals by themselves. -/
structure Policy where
  weights : Weights := {}
  autocomplete : Bool := false
  deriving DecidableEq, Repr

/-- The policy that holds where none is given. -/
def Policy.standard : Policy := {}

end TextMask
