import LogForwarding.Schema.Decoder
import LogForwarding.Settings.Basic

/-!
Settings as JSON.  Every field but those of an image has a default; unknown fields are ignored.
-/

namespace LogForwarding

open Fields

namespace WorkSettings

def decode : Decoder WorkSettings :=
  Fields.decoder
    (WorkSettings.mk <$> withDefault "maxConcurrentReconciles" Decoder.word16 standard.maxConcurrent
      <*> optional "watchNamespace" Decoder.text)
    "ReconcilerConfig" false

def toJson (work : WorkSettings) : Json :=
  Json.object
    [("maxConcurrentReconciles", .int work.maxConcurrent.toNat),
     ("watchNamespace", Json.ofOption .str work.watchNamespace)]

end WorkSettings

namespace CleanupSettings

def decode : Decoder CleanupSettings :=
  Fields.decoder
    (CleanupSettings.mk
      <$> withDefault "healthyTimeoutSeconds" Decoder.word64 standard.healthyTimeout
      <*> withDefault "deletedTimeoutSeconds" Decoder.word64 standard.deletedTimeout
      <*> withDefault "pollIntervalSeconds" Decoder.word64 standard.pollInterval)
    "CleanupConfig" false

def toJson (cleanup : CleanupSettings) : Json :=
  Json.object
    [("healthyTimeoutSeconds", .int cleanup.healthyTimeout.toNat),
     ("deletedTimeoutSeconds", .int cleanup.deletedTimeout.toNat),
     ("pollIntervalSeconds", .int cleanup.pollInterval.toNat)]

end CleanupSettings

namespace ImageSettings

def decode : Decoder ImageSettings :=
  Fields.decoder
    (ImageSettings.mk <$> required "repository" Decoder.text <*> required "tag" Decoder.text)
    "ImageConfig" false

def toJson (image : ImageSettings) : Json :=
  Json.object [("repository", .str image.repository), ("tag", .str image.tag)]

end ImageSettings

namespace ImagesSettings

def decode : Decoder ImagesSettings :=
  Fields.decoder
    (ImagesSettings.mk <$> withDefault "cleaner" ImageSettings.decode standardCleaner
      <*> withDefault "pause" ImageSettings.decode standardPause)
    "ImagesConfig" false

def toJson (images : ImagesSettings) : Json :=
  Json.object [("cleaner", images.cleaner.toJson), ("pause", images.pause.toJson)]

end ImagesSettings

namespace MonitoringSettings

def decode : Decoder MonitoringSettings :=
  Fields.decoder
    (MonitoringSettings.mk <$> withDefault "enabled" Decoder.boolean standard.enabled
      <*> withDefault "apiServerAddress" Decoder.text standard.apiServerAddress
      <*> withDefault "nodeExporterService" Decoder.text standard.nodeExporterService
      <*> withDefault "nodeExporterPort" Decoder.text standard.nodeExporterPort)
    "MonitoringConfig" false

def toJson (monitoring : MonitoringSettings) : Json :=
  Json.object
    [("enabled", .bool monitoring.enabled),
     ("apiServerAddress", .str monitoring.apiServerAddress),
     ("nodeExporterService", .str monitoring.nodeExporterService),
     ("nodeExporterPort", .str monitoring.nodeExporterPort)]

end MonitoringSettings

namespace RequeueSettings

/-- Reads when a tenant is looked at again. -/
def decode : Decoder RequeueSettings :=
  Fields.decoder
    (RequeueSettings.mk <$> withDefault "successSeconds" Decoder.word64 standard.success
      <*> withDefault "errorSeconds" Decoder.word64 standard.error)
    "RequeueConfig" false

/-- Writes when a tenant is looked at again. -/
def toJson (requeue : RequeueSettings) : Json :=
  Json.object
    [("successSeconds", .int requeue.success.toNat), ("errorSeconds", .int requeue.error.toNat)]

end RequeueSettings

namespace Settings

def decode : Decoder Settings :=
  Fields.decoder
    (Settings.mk <$> withDefault "controller" WorkSettings.decode .standard
      <*> withDefault "cleanup" CleanupSettings.decode .standard
      <*> withDefault "images" ImagesSettings.decode .standard
      <*> withDefault "monitoring" MonitoringSettings.decode .standard
      <*> withDefault "requeue" RequeueSettings.decode .standard)
    "ControllerConfig" false

def toJson (settings : Settings) : Json :=
  Json.object
    [("controller", settings.work.toJson), ("cleanup", settings.cleanup.toJson),
     ("images", settings.images.toJson), ("monitoring", settings.monitoring.toJson),
     ("requeue", settings.requeue.toJson)]

end Settings

end LogForwarding
