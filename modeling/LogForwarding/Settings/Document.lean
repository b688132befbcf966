import LogForwarding.Settings.Validation
import LogForwarding.Yaml.Node
import LogForwarding.Yaml.Scalar

/-!
The settings file.  It is a YAML document that is read by what each field wants: a text takes the
text of any scalar, a number or a truth value has to be spelled plainly, and a known name may not
stand twice in a section.  Unknown names are passed over.
-/

namespace LogForwarding

open Yaml (Node)

namespace Settings

/-- The entries of a section by their names.  A section that is left empty has none. -/
private def entries? : Node → Option (List (String × Node))
  | .mapping entries _ =>
      entries.mapM fun (key, value) =>
        match key with
        | .scalar name _ _ => some (name, value)
        | _ => none
  | .scalar "" .plain _ => some []
  | _ => none

/-- The value of a name; `absent` is its value when it does not stand in the section. -/
private def entry? {α : Type} (entries : List (String × Node)) (name : String)
    (read : Node → Option α) (absent : Option α) : Option α :=
  match entries.filter fun entry => entry.1 = name with
  | [] => absent
  | [(_, value)] => read value
  | _ => none

private def text? : Node → Option String
  | .scalar text _ _ => some text
  | _ => none

private def optionalText? : Node → Option (Option String)
  | .scalar text .plain none =>
      some (if text = "" ∨ Yaml.isNullWord text then none else some text)
  | .scalar text .plain (some tag) =>
      if tag = Yaml.standardTag "null" then
        if Yaml.isNullWord text then some none else none
      else some (if text = "" then none else some text)
  | .scalar text _ _ => some (some text)
  | _ => none

/-- The text of a scalar that is spelled plainly, or as a block under a tag. -/
private def spelled? (tag : String) : Node → Option String
  | .scalar text .plain _ => some text
  | .scalar text .literal (some found) => if found = Yaml.standardTag tag then some text else none
  | _ => none

private def boolean? (node : Node) : Option Bool :=
  (spelled? "bool" node).bind Yaml.boolOfWord

/-- A natural number below a bound, spelled without a minus sign. -/
private def below? (bound : Nat) (node : Node) : Option Nat := do
  let text ← spelled? "int" node
  if text.toList.head? = some '-' then none
  let n ← Yaml.intOfText text
  if n < bound then some n.toNat else none

private def word64? (node : Node) : Option UInt64 :=
  (below? UInt64.size node).map UInt64.ofNat

private def word16? (node : Node) : Option UInt16 :=
  (below? UInt16.size node).map UInt16.ofNat

private def work? (node : Node) : Option WorkSettings := do
  let entries ← entries? node
  return ⟨← entry? entries "maxConcurrentReconciles" word16?
      (some WorkSettings.standard.maxConcurrent),
    ← entry? entries "watchNamespace" optionalText? (some none)⟩

private def cleanup? (node : Node) : Option CleanupSettings := do
  let entries ← entries? node
  return ⟨← entry? entries "healthyTimeoutSeconds" word64?
      (some CleanupSettings.standard.healthyTimeout),
    ← entry? entries "deletedTimeoutSeconds" word64?
      (some CleanupSettings.standard.deletedTimeout),
    ← entry? entries "pollIntervalSeconds" word64? (some CleanupSettings.standard.pollInterval)⟩

/-- An image; both of its names have to be there. -/
private def image? (node : Node) : Option ImageSettings := do
  let entries ← entries? node
  return ⟨← entry? entries "repository" text? none, ← entry? entries "tag" text? none⟩

private def images? (node : Node) : Option ImagesSettings := do
  let entries ← entries? node
  return ⟨← entry? entries "cleaner" image? (some ImagesSettings.standardCleaner),
    ← entry? entries "pause" image? (some ImagesSettings.standardPause)⟩

private def monitoring? (node : Node) : Option MonitoringSettings := do
  let entries ← entries? node
  let standard := MonitoringSettings.standard
  return ⟨← entry? entries "enabled" boolean? (some standard.enabled),
    ← entry? entries "apiServerAddress" text? (some standard.apiServerAddress),
    ← entry? entries "nodeExporterService" text? (some standard.nodeExporterService),
    ← entry? entries "nodeExporterPort" text? (some standard.nodeExporterPort)⟩

private def requeue? (node : Node) : Option RequeueSettings := do
  let entries ← entries? node
  return ⟨← entry? entries "successSeconds" word64? (some RequeueSettings.standard.success),
    ← entry? entries "errorSeconds" word64? (some RequeueSettings.standard.error)⟩

def ofNode? (node : Node) : Option Settings := do
  let entries ← entries? node
  return ⟨← entry? entries "controller" work? (some .standard),
    ← entry? entries "cleanup" cleanup? (some .standard),
    ← entry? entries "images" images? (some .standard),
    ← entry? entries "monitoring" monitoring? (some .standard),
    ← entry? entries "requeue" requeue? (some .standard)⟩

/-- The settings of a file; a file without a document leaves everything as it is by default. -/
def ofBytes? (bytes : Bytes) : Option Settings :=
  match Node.ofBytes? bytes with
  | none => none
  | some none => some .standard
  | some (some node) => ofNode? node

/-- The settings with which a controller begins.  Without a file, and with one that cannot be read,
these are the standard ones. -/
def load (file : Option Bytes) : Except SettingsError Settings :=
  let settings := (file.bind ofBytes?).getD .standard
  match settings.error? with
  | none => .ok settings
  | some error => .error error

end Settings

end LogForwarding
