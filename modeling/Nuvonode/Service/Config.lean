/-
  Service/Config.lean --- what the service is given from outside.

  `Platform` collects what is neither in the repository nor fixed by the language:
  the Unicode tables behind `strings.ToLower`, bcrypt, SHA-256, and what the
  processor makes of a float that does not fit `int64`.  Nothing is assumed of
  them.
-/
import Nuvonode.Foundation.Word
import Nuvonode.Foundation.Rounding

set_option autoImplicit false

namespace Nuvonode.Service

/-- The parts of the platform the service calls. -/
structure Platform where
  /-- `strings.ToLower`. -/
  toLower : String → String
  /-- `auth.HashPassword`, which refuses what bcrypt refuses. -/
  hashPassword : String → Option String
  /-- `auth.HashToken`, of a pepper and a token. -/
  hashToken : String → String → String
  /-- The conversion of a float outside the range of `int64`. -/
  outOfRangeInt64 : ℚ → Int64

/-- The settings that modelled code reads, from `config.Config`. -/
structure Config where
  appEnv : String
  apiKeyPepper : String
  providerTokenPepper : String
  startingFreeCredits : Int64
  providerHeartbeatTimeoutSeconds : Int
  jobTimeoutSeconds : Int
  externalConnectorsEnabled : Bool
  allowDevAutoApproveProvider : Bool
  bootstrapFirstUserAdmin : Bool
  deriving DecidableEq

/-- The errors that reach a caller.  The first five are the service's own values,
`noRows` is `pgx.ErrNoRows`, and the rest are PostgreSQL's. -/
inductive Err where
  | invalidInput
  | insufficientCredits
  | invalidCredentials
  | forbidden
  | notFound
  | noRows
  | duplicateKey
  | foreignKey
  | checkViolation
  | outOfRange
  | invalidText
  | hashing
  deriving DecidableEq

/-- `err.Error()`.  Of PostgreSQL's texts only the part that does not name the
constraint is kept. -/
def Err.text : Err → String
  | .invalidInput => "invalid input"
  | .insufficientCredits => "insufficient credits"
  | .invalidCredentials => "invalid credentials"
  | .forbidden => "forbidden"
  | .notFound => "not found"
  | .noRows => "no rows in result set"
  | .duplicateKey => "ERROR: duplicate key value violates unique constraint (SQLSTATE 23505)"
  | .foreignKey => "ERROR: violates foreign key constraint (SQLSTATE 23503)"
  | .checkViolation => "ERROR: violates check constraint (SQLSTATE 23514)"
  | .outOfRange => "ERROR: value out of range (SQLSTATE 22003)"
  | .invalidText => "ERROR: invalid byte sequence for encoding (SQLSTATE 22021)"
  | .hashing => "bcrypt: password length exceeds 72 bytes"

end Nuvonode.Service
