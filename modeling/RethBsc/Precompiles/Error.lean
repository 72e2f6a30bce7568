/-!
# Precompile errors

`src/evm/precompiles/error.rs`: the errors of the BSC precompiles and the texts under which they
reach the interpreter.
-/

namespace RethBsc

/-- The two shapes of `revm`'s `PrecompileError` the BSC precompiles return. -/
inductive PrecompileError where
  | outOfGas
  | other (message : String)
  deriving DecidableEq

inductive BscPrecompileError where
  | invalidInput
  | cometBftApplyBlockFailed
  | cometBftEncodeConsensusStateFailed
  | doubleSignInvalidEvidence
  deriving DecidableEq

/-- `From<BscPrecompileError> for PrecompileError`. -/
def BscPrecompileError.into : BscPrecompileError → PrecompileError
  | .invalidInput => .other "invalid input"
  | .cometBftApplyBlockFailed => .other "apply block failed"
  | .cometBftEncodeConsensusStateFailed => .other "encode consensus state failed"
  | .doubleSignInvalidEvidence => .other "double sign invalid evidence"

end RethBsc
