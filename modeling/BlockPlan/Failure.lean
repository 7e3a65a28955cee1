import BlockPlan.Record.Field

/-!
# Failures

Every operation of the library that can fail ends in a `Failure`: its kind, its message, and,
for records that do not fit their fields, the issues found. The kinds are the causes a caller can
tell apart: failures of the plan builder itself (converting, loading modules, writing the plan,
reading plan flags, configuration, the provider) and failures of the values it was given
(records that do not fit, values nested too deep, values of the wrong kind, bytes that are not
UTF-8, ...).
-/

namespace BlockPlan

/-- What kind of failure an operation ended in. -/
inductive FailureKind where
  /-- The conversion failed for a reason of its own. -/
  | conversion
  | moduleLoad
  | planSerialization
  | planFlags
  | config
  | provider
  /-- A record does not fit its fields. -/
  | validation
  /-- Values nested too deep. -/
  | recursion
  /-- A value of the wrong kind. -/
  | wrongType
  /-- A value of the right kind that is wrong. -/
  | wrongValue
  /-- A whole number too large to be a double. -/
  | overflow
  /-- A missing key. -/
  | missingKey
  /-- A value lacks the attribute asked for. -/
  | missingAttribute
  /-- Bytes that are not UTF-8. -/
  | undecodable
  /-- A position past the end of a sequence. -/
  | outOfRange
  /-- A file was to be opened where a directory stands. -/
  | isDirectory
  /-- A directory was to be made where a file stands. -/
  | fileExists
  /-- A path leads through a file. -/
  | notDirectory
  /-- Any other failure. -/
  | other
  deriving DecidableEq, Inhabited

/-- A failure: kind, message and the issues of records that do not fit. -/
structure Failure where
  kind : FailureKind
  message : Text
  issues : List Issue
  deriving Inhabited

/-- Whether a failure is one of the plan builder's own, rather than of the values it was given. -/
def FailureKind.isOwn : FailureKind → Bool
  | .conversion | .moduleLoad | .planSerialization | .planFlags | .config | .provider => true
  | _ => false

def Failure.of (kind : FailureKind) (message : Text) : Failure := ⟨kind, message, []⟩

end BlockPlan
