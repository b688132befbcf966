import LogForwarding.Api.Resource
import LogForwarding.Monitoring.AlertRule
import LogForwarding.Monitoring.DashboardText
import LogForwarding.Monitoring.Scrape

/-!
The objects by which the forwarding of a tenant is observed: a group of alert rules, a description
of what is scraped, and a dashboard.
-/

namespace LogForwarding

/-- An object that is written as a whole. -/
structure ManagedObject where
  kind : ResourceKind
  name : String
  body : Json
deriving DecidableEq, Inhabited

/-- The kind and the name of an object. -/
def ManagedObject.describe (object : ManagedObject) : String :=
  object.kind.kind ++ "/" ++ object.name

def fieldManager : String := "relp-controller"

/-- The label of the objects that this controller writes. -/
def managedByLabel : String × Json :=
  ("app.kubernetes.io/managed-by", .str fieldManager)

namespace Monitoring

/-- The name of the rules and of the scrape description. -/
def objectName : String := "rsyslog-relp"

def dashboardName : String := "rsyslog-relp-dashboard"

/-- An object with its metadata and what else belongs to it. -/
private def object (kind : ResourceKind) (name ns : String) (label : String × Json)
    (content : String × Json) : ManagedObject :=
  ⟨kind, name, Json.object
    [("apiVersion", .str kind.apiVersion), ("kind", .str kind.kind),
     ("metadata", Json.object
       [("name", .str name), ("namespace", .str ns),
        ("labels", Json.object [managedByLabel, label])]),
     content]⟩

/-- The label by which the tenant's collector finds its objects. -/
private def tenantLabel : String × Json := ("prometheus", .str "tenant")

def ruleObject (ns : String) (audit : Bool) : ManagedObject :=
  object .prometheusRule objectName ns tenantLabel
    ("spec", Json.object
      [("groups", .arr
        [Json.object
          [("name", .str "rsyslog-relp.rules"),
           ("rules", .arr ((alertRules audit).map AlertRule.toRule))]])])

def scrapeObject (ns : String) (settings : MonitoringSettings) : ManagedObject :=
  object .scrapeConfig objectName ns tenantLabel ("spec", scrapeSpec settings)

def dashboardObject (ns : String) : ManagedObject :=
  object .configMap dashboardName ns ("dashboard.monitoring.platform/tenant", .str "true")
    ("data", Json.object [("rsyslog-relp.json", .str dashboardText)])

/-- The objects of a tenant in the order in which they are written. -/
def objects (ns : String) (audit : Bool) (settings : MonitoringSettings) : List ManagedObject :=
  [ruleObject ns audit, scrapeObject ns settings, dashboardObject ns]

/-- Every object that may ever have been written for a tenant, in the order of removal. -/
def objectNames : List (ResourceKind × String) :=
  [(.prometheusRule, objectName), (.scrapeConfig, objectName), (.configMap, dashboardName)]

end Monitoring

end LogForwarding
