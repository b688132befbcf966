/-!
Where things are on a node.
-/

namespace LogForwarding.Node

def stagedConfig : String := "/var/lib/rsyslog-relp-configurator/rsyslog.d/60-audit.conf"

def stagedAuditRules : String := "/var/lib/rsyslog-relp-configurator/audit/rules.d"

def applyProgram : String := "/var/lib/rsyslog-relp-configurator/configure-rsyslog.sh"

def statsProgramPath : String := "/var/lib/rsyslog-relp-configurator/process_rsyslog_pstats.sh"

def tlsCaCert : String := "/etc/ssl/rsyslog/ca.crt"

def tlsCert : String := "/etc/ssl/rsyslog/tls.crt"

def tlsKey : String := "/etc/ssl/rsyslog/tls.key"

/-- The directory in which the forwarder keeps its queues. -/
def spoolDirectory : String := "/var/log/rsyslog"

def memoryLimitsPath : String :=
  "/etc/systemd/system/rsyslog.service.d/10-rsyslog-relp-memory-limits.conf"

end LogForwarding.Node
