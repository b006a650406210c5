/-!
# Stop flags

Flags that tell workers to stop.  Copies of a token share its flag.

**Results.**  Raising a flag shows on all copies of its token and on no other token.
-/

namespace GormForge

/-- Tokens, each of which stands for one of the flags. -/
structure StopTokens where
  flags : List Bool := [false]
  /-- The flag of each token. -/
  tokens : List Nat := [0]
  deriving Repr, DecidableEq

namespace StopTokens

/-- The flag of the token that an index means, counted round the tokens. -/
def flagOf (state : StopTokens) (index : Nat) : Nat :=
  state.tokens.getD (index % state.tokens.length) 0

/-- Add a copy of a token. -/
def clone (state : StopTokens) (index : Nat) : StopTokens :=
  { state with tokens := state.tokens ++ [state.flagOf index] }

/-- Add a token with a flag of its own. -/
def fresh (state : StopTokens) : StopTokens :=
  { flags := state.flags ++ [false], tokens := state.tokens ++ [state.flags.length] }

/-- Raise the flag of a token. -/
def cancel (state : StopTokens) (index : Nat) : StopTokens :=
  { state with flags := state.flags.set (state.flagOf index) true }

/-- Whether the flag of each token is raised. -/
def shown (state : StopTokens) : List Bool :=
  state.tokens.map fun flag => state.flags.getD flag false

end StopTokens
end GormForge
