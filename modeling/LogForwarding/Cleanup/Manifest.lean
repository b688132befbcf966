import LogForwarding.Bytes.Sha256
import LogForwarding.Cleanup.Script
import LogForwarding.Json.Basic
import LogForwarding.Settings.Basic

/-!
The objects that clean every node of a cluster.  A pod on each node first runs the cleanup program
on the file system of its host and then stays, so a pod that is ready stands on a clean node.
-/

namespace LogForwarding.Cleanup

/-- The name of the cleanup and of everything that belongs to it. -/
def cleanerName : String := "rsyslog-relp-configuration-cleaner"

/-- The namespace of the cleanup in the tenant's cluster. -/
def cleanerNamespace : String := "kube-system"

def scriptKey : String := "clean-rsyslog-relp.sh"

def scriptsMount : String := "/scripts"

/-- Where the pod finds the file system of its host. -/
def hostMount : String := "/host"

private def nameLabel : String × Json := ("app.kubernetes.io/name", .str cleanerName)

/-- The labels of everything that belongs to the cleanup. -/
private def cleanerLabels : String × Json :=
  ("labels", Json.object [nameLabel, ("app.kubernetes.io/managed-by", .str "relp-controller")])

private def cleanerMetadata : String × Json :=
  ("metadata", Json.object
    [("name", .str cleanerName), ("namespace", .str cleanerNamespace), cleanerLabels])

def scriptObject : Json :=
  Json.object
    [("apiVersion", .str "v1"), ("kind", .str "ConfigMap"), cleanerMetadata,
     ("data", Json.object [(scriptKey, .str script)])]

/-- How much of a node a container asks for and how much it may take. -/
private def resources (cpu memory limit : String) : String × Json :=
  ("resources", Json.object
    [("requests", Json.object [("cpu", .str cpu), ("memory", .str memory)]),
     ("limits", Json.object [("memory", .str limit)])])

/-- The command that runs the program on the host. -/
def command : String :=
  "chroot " ++ hostMount ++ " /bin/sh < " ++ scriptsMount ++ "/" ++ scriptKey

private def cleanerContainer (image : ImageSettings) : Json :=
  Json.object
    [("name", .str cleanerName), ("image", .str image.reference),
     ("imagePullPolicy", .str "IfNotPresent"),
     ("command", Json.texts ["sh", "-c", command]),
     ("securityContext", Json.object [("privileged", .bool true)]),
     resources "10m" "16Mi" "64Mi",
     ("volumeMounts", .arr
       [Json.object [("name", .str "host-root-volume"), ("mountPath", .str hostMount)],
        Json.object
          [("name", .str "scripts"), ("mountPath", .str scriptsMount),
           ("readOnly", .bool true)]])]

private def pauseContainer (image : ImageSettings) : Json :=
  Json.object
    [("name", .str "pause"), ("image", .str image.reference),
     ("imagePullPolicy", .str "IfNotPresent"), resources "1m" "4Mi" "16Mi",
     ("securityContext", Json.object [("allowPrivilegeEscalation", .bool false)])]

private def volumes : Json :=
  .arr
    [Json.object
      [("name", .str "host-root-volume"), ("hostPath", Json.object [("path", .str "/")])],
     Json.object
      [("name", .str "scripts"),
       ("configMap", Json.object [("name", .str cleanerName), ("defaultMode", .int 0o744)])]]

/-- The pod.  It changes with the program, so a new program runs anew. -/
private def pod (images : ImagesSettings) : Json :=
  Json.object
    [("metadata", Json.object
       [cleanerLabels,
        ("annotations", Json.object
          [("checksum/script", .str (Sha256.hexDigest (Bytes.ofText script)))])]),
     ("spec", Json.object
       [("hostPID", .bool true), ("priorityClassName", .str "system-node-critical"),
        ("tolerations", .arr [Json.object [("operator", .str "Exists")]]),
        ("initContainers", .arr [cleanerContainer images.cleaner]),
        ("containers", .arr [pauseContainer images.pause]),
        ("volumes", volumes)])]

/-- The object that puts a pod on every node. -/
def daemonObject (images : ImagesSettings) : Json :=
  Json.object
    [("apiVersion", .str "apps/v1"), ("kind", .str "DaemonSet"), cleanerMetadata,
     ("spec", Json.object
       [("selector", Json.object [("matchLabels", Json.object [nameLabel])]),
        ("updateStrategy", Json.object [("type", .str "RollingUpdate")]),
        ("template", pod images)])]

/-- The objects of the cleanup in the order in which they are put into the cluster. -/
def manifests (images : ImagesSettings) : List Json :=
  [scriptObject, daemonObject images]

end LogForwarding.Cleanup
