/-!
The settings of the controller.  Everything has a value of its own, so a controller without a
settings file works.
-/

namespace LogForwarding

/-- How tenants are looked after. -/
structure WorkSettings where
  /-- How many tenants are looked after at the same time. -/
  maxConcurrent : UInt16
  /-- The only namespace that is looked at; without it all are. -/
  watchNamespace : Option String
deriving DecidableEq, Repr, Inhabited

/-- How long the cleanup of nodes is waited for, in seconds. -/
structure CleanupSettings where
  healthyTimeout : UInt64
  deletedTimeout : UInt64
  pollInterval : UInt64
deriving DecidableEq, Repr, Inhabited

/-- A container image. -/
structure ImageSettings where
  repository : String
  tag : String
deriving DecidableEq, Repr, Inhabited

/-- The images of the cleanup. -/
structure ImagesSettings where
  /-- Runs the cleanup program. -/
  cleaner : ImageSettings
  /-- Stays when the program is done. -/
  pause : ImageSettings
deriving DecidableEq, Repr, Inhabited

/-- How the forwarding of a tenant is observed. -/
structure MonitoringSettings where
  enabled : Bool
  apiServerAddress : String
  nodeExporterService : String
  nodeExporterPort : String
deriving DecidableEq, Repr, Inhabited

/-- When a tenant is looked at again, in seconds. -/
structure RequeueSettings where
  success : UInt64
  error : UInt64
deriving DecidableEq, Repr, Inhabited

/-- The settings of the controller. -/
structure Settings where
  work : WorkSettings
  cleanup : CleanupSettings
  images : ImagesSettings
  monitoring : MonitoringSettings
  requeue : RequeueSettings
deriving DecidableEq, Repr, Inhabited

/-- Five tenants of any namespace at a time. -/
def WorkSettings.standard : WorkSettings := ⟨5, none⟩

/-- Two minutes for either wait, with a look every five seconds. -/
def CleanupSettings.standard : CleanupSettings := ⟨120, 120, 5⟩

/-- The image that runs the cleanup program by default. -/
def ImagesSettings.standardCleaner : ImageSettings := ⟨"docker.io/library/alpine", "3.21"⟩

def ImagesSettings.standardPause : ImageSettings := ⟨"registry.k8s.io/pause", "3.10"⟩

def ImagesSettings.standard : ImagesSettings := ⟨standardCleaner, standardPause⟩

/-- Observation is on, by way of the addresses that every cluster has. -/
def MonitoringSettings.standard : MonitoringSettings :=
  ⟨true, "kube-apiserver:443", "node-exporter", "metrics"⟩

/-- Five minutes after a success and half a minute after a failure. -/
def RequeueSettings.standard : RequeueSettings := ⟨300, 30⟩

/-- The settings of a controller without a settings file. -/
def Settings.standard : Settings := ⟨.standard, .standard, .standard, .standard, .standard⟩

/-- The text by which an image is fetched. -/
def ImageSettings.reference (image : ImageSettings) : String :=
  image.repository ++ ":" ++ image.tag

end LogForwarding
