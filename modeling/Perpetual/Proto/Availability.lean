import Mathlib

/-!
# The availability of a provider

The state that the agents, and the accounts of the pool, are in towards their provider.
-/

namespace Perpetual

inductive AvailabilityState where
  | available
  | limited
  | unknown
deriving DecidableEq, Repr

end Perpetual
