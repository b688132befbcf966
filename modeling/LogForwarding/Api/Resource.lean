/-!
The kinds of objects that an API server keeps, and where their objects are found.
-/

namespace LogForwarding

/-- A kind of objects. -/
structure ResourceKind where
  /-- The group and the version; the core group has no name. -/
  apiVersion : String
  kind : String
  plural : String
deriving DecidableEq, Repr, Inhabited

namespace ResourceKind

def forwardingApi : String := "extensions.relp.platform/v1alpha1"

def record : ResourceKind := ⟨forwardingApi, "RsyslogRelp", "rsyslogrelps"⟩

/-- Descriptions of clusters; they stand outside of namespaces. -/
def cluster : ResourceKind := ⟨forwardingApi, "Cluster", "clusters"⟩

def bundle : ResourceKind := ⟨forwardingApi, "NodeBundle", "nodebundles"⟩

def secret : ResourceKind := ⟨"v1", "Secret", "secrets"⟩

def configMap : ResourceKind := ⟨"v1", "ConfigMap", "configmaps"⟩

def prometheusRule : ResourceKind :=
  ⟨"monitoring.coreos.com/v1", "PrometheusRule", "prometheusrules"⟩

def scrapeConfig : ResourceKind :=
  ⟨"monitoring.coreos.com/v1alpha1", "ScrapeConfig", "scrapeconfigs"⟩

/-- Where the objects of a kind are found; those of the core group stand apart. -/
def root (kind : ResourceKind) : String :=
  (if '/' ∈ kind.apiVersion.toList then "/apis/" else "/api/") ++ kind.apiVersion ++ "/"

/-- Where the objects of a kind in a namespace are found, or those of all namespaces. -/
def collection (kind : ResourceKind) (ns : Option String) : String :=
  match ns with
  | some ns => kind.root ++ "namespaces/" ++ ns ++ "/" ++ kind.plural
  | none => kind.root ++ kind.plural

end ResourceKind

/-- Which object it is. -/
structure ObjectKey where
  kind : ResourceKind
  ns : Option String
  name : String
deriving DecidableEq, Repr, Inhabited

def ObjectKey.path (key : ObjectKey) : String :=
  key.kind.collection key.ns ++ "/" ++ key.name

end LogForwarding
