import SchemaBeans.Discovery
import SchemaBeans.Output
import SchemaBeans.Pool
import SchemaBeans.Setting

/-!
# Errors that stop a run

What goes beyond one schema document stops the run: a schema root that cannot be
walked, a source that cannot be written, settings that cannot be used, and
cancellation.
-/

namespace SchemaBeans

/-- What is said of a pool that ended without all results. -/
def Pool.Halt.message : Pool.Halt → String
  | cancelled => "generation cancelled"
  | crashed => "worker crashed"
  | workerCrashed => "worker thread panicked"

/-- Why a run ends without a report. -/
inductive RunError where
  | discovery (error : DiscoveryError)
  | write (error : WriteError)
  | settings (error : SettingsError)
  | halted (halt : Pool.Halt)
  deriving DecidableEq, Repr

/-- The wording of an error of a run. -/
def RunError.message : RunError → String
  | discovery error => error.message
  | write error => error.message
  | settings error => error.message
  | halted halt => halt.message

end SchemaBeans
