import LogForwarding.Json.Basic
import LogForwarding.Settings.Basic

/-!
How the figures of a tenant's nodes are collected.  The collector does not reach the nodes; it asks
the API server of the cluster to fetch the figures from the node exporter of each node.
-/

namespace LogForwarding.Monitoring

/-- The beginning of the names of all series that are kept. -/
def seriesStart : String := "rsyslog_"

/-- The namespace of the node exporter in the tenant's cluster. -/
def exporterNamespace : String := "kube-system"

/-- What proves that the API server is the right one. -/
private def serverTrust : String × Json :=
  ("tlsConfig", Json.object
    [("ca", Json.object
      [("secret", Json.object [("name", .str "ca"), ("key", .str "bundle.crt")])])])

/-- What proves to the API server who asks. -/
private def credentials : String × Json :=
  ("authorization", Json.object
    [("type", .str "Bearer"),
     ("credentials", Json.object
       [("name", .str "shoot-access-prometheus-shoot"), ("key", .str "token")])])

/-- The nodes are those of the node exporter's endpoints. -/
private def discovery (settings : MonitoringSettings) : Json :=
  Json.object
    [("role", .str "Endpoints"),
     ("apiServer", .str ("https://" ++ settings.apiServerAddress)),
     ("namespaces", Json.object [("names", Json.texts [exporterNamespace])]),
     serverTrust, credentials]

private def relabelings (settings : MonitoringSettings) : List Json :=
  [Json.object
    [("sourceLabels", Json.texts
       ["__meta_kubernetes_service_name", "__meta_kubernetes_endpoint_port_name"]),
     ("regex", .str (settings.nodeExporterService ++ ";" ++ settings.nodeExporterPort)),
     ("action", .str "keep")],
   Json.object
    [("sourceLabels", Json.texts ["__meta_kubernetes_pod_node_name"]),
     ("targetLabel", .str "node")],
   Json.object
    [("targetLabel", .str "__address__"), ("replacement", .str settings.apiServerAddress)],
   Json.object
    [("sourceLabels", Json.texts
       ["__meta_kubernetes_pod_name", "__meta_kubernetes_endpoint_port_number"]),
     ("regex", .str "(.+);(.+)"),
     ("targetLabel", .str "__metrics_path__"),
     ("replacement", .str ("/api/v1/namespaces/" ++ exporterNamespace
       ++ "/pods/$\x7b1\x7d:$\x7b2\x7d/proxy/metrics"))]]

/-- What the collector is told about a tenant. -/
def scrapeSpec (settings : MonitoringSettings) : Json :=
  Json.object
    [("honorLabels", .bool false), ("scheme", .str "HTTPS"), serverTrust, credentials,
     ("kubernetesSDConfigs", .arr [discovery settings]),
     ("relabelings", .arr (relabelings settings)),
     ("metricRelabelings", .arr
       [Json.object
         [("sourceLabels", Json.texts ["__name__"]), ("regex", .str (seriesStart ++ ".*")),
          ("action", .str "keep")]])]

end LogForwarding.Monitoring
