import LogForwarding.Settings.Basic
import LogForwarding.Text.Blank

/-!
Which settings a controller can work with.
-/

namespace LogForwarding

/-- Why a controller cannot work with its settings. -/
inductive SettingsError where
  /-- No tenant would ever be looked after. -/
  | noWork
  /-- An image without a repository or without a tag. -/
  | incompleteImage (name : String)
  | pollIntervalZero
  | pollIntervalTooLong
  | noApiServer
deriving DecidableEq, Repr, Inhabited

def SettingsError.message : SettingsError → String
  | .noWork => "controller.maxConcurrentReconciles must be at least 1"
  | .incompleteImage name =>
      "Image configuration for '" ++ name ++ "' must specify both repository and tag."
  | .pollIntervalZero => "cleanup.pollIntervalSeconds must be positive"
  | .pollIntervalTooLong => "cleanup.pollIntervalSeconds must not exceed the wait timeouts"
  | .noApiServer => "monitoring.apiServerAddress is required when monitoring is enabled"

/-- Whether an image has a repository and a tag. -/
def ImageSettings.isConfigured (image : ImageSettings) : Bool :=
  !Text.isBlankText image.repository && !Text.isBlankText image.tag

/-- The first reason for which a controller cannot work with its settings. -/
def Settings.error? (settings : Settings) : Option SettingsError :=
  let cleanup := settings.cleanup
  if settings.work.maxConcurrent = 0 then some .noWork
  else if ¬ settings.images.cleaner.isConfigured then some (.incompleteImage "cleaner")
  else if ¬ settings.images.pause.isConfigured then some (.incompleteImage "pause")
  else if cleanup.pollInterval = 0 then some .pollIntervalZero
  else if cleanup.healthyTimeout < cleanup.pollInterval
      ∨ cleanup.deletedTimeout < cleanup.pollInterval then some .pollIntervalTooLong
  else if settings.monitoring.enabled ∧ Text.isBlankText settings.monitoring.apiServerAddress then
    some .noApiServer
  else none

end LogForwarding
