import LogForwarding.Template.Basic

/-!
The program that installs the staged configuration on a node.  It only depends on whether audit
rules are installed.
-/

namespace LogForwarding.Node

/-- The program in front of the line that says whether audit rules are installed. -/
def applyHead : List String :=
  ["#!/bin/sh",
   "# Converges rsyslog RELP forwarding and audit rules from the files staged by",
   "# the distribution agent. Runs once per start of rsyslog-configurator.service;",
   "# systemd restarts it after every exit, so each run is one tick.",
   "# Failures are logged and left for the next tick.",
   "",
   "ROOT=\"$\x7bNODE_ROOT:-\x7d\"",
   ""]

/-- The program behind the line that says whether audit rules are installed. -/
def applyBody : List String :=
  ["",
   "STAGING_DIR=\"$ROOT/var/lib/rsyslog-relp-configurator\"",
   "STAGED_CONFIG=\"$STAGING_DIR/rsyslog.d/60-audit.conf\"",
   "STAGED_AUDIT_RULES_DIR=\"$STAGING_DIR/audit/rules.d\"",
   "AUGENRULES_STATE_FILE=\"$STAGING_DIR/augenrules-load-success\"",
   "TLS_CHECKSUM_FILE=\"$STAGING_DIR/tls.cksum\"",
   "MEMORY_LIMITS_CHECKSUM_FILE=\"$STAGING_DIR/memory-limits.cksum\"",
   "",
   "LIVE_CONFIG=\"$ROOT/etc/rsyslog.d/60-audit.conf\"",
   "MEMORY_LIMITS_DROP_IN=\"$ROOT/etc/systemd/system/rsyslog.service.d/10-rsyslog-relp-memory-limits.conf\"",
   "TLS_DIR=\"$ROOT/etc/ssl/rsyslog\"",
   "AUDIT_RULES_DIR=\"$ROOT/etc/audit/rules.d\"",
   "AUDIT_RULES_BACKUP_DIR=\"$ROOT/etc/audit/rules.d.original\"",
   "AUDIT_SYSLOG_PLUGINS=\"$ROOT/etc/audit/plugins.d/syslog.conf $ROOT/etc/audisp/plugins.d/syslog.conf\"",
   "SPOOL_DIR=\"$ROOT/var/log/rsyslog\"",
   "TEXTFILE_DIR=\"$ROOT/var/lib/node-exporter/textfile-collector\"",
   "METRICS_FILE=\"$TEXTFILE_DIR/rsyslog_augenrules.prom\"",
   "",
   "JOURNALD_AUDIT_SOCKET=\"systemd-journald-audit.socket\"",
   "",
   "restart_rsyslog=false",
   "restart_auditd=false",
   "",
   "log() \x7b",
   "  echo \"rsyslog-configurator: $*\"",
   "\x7d",
   "",
   "configure_forwarder() \x7b",
   "  if [ ! -f \"$STAGED_CONFIG\" ]; then",
   "    log \"no staged forwarder configuration yet\"",
   "    return 0",
   "  fi",
   "  mkdir -p \"$SPOOL_DIR\" || log \"could not create $SPOOL_DIR\"",
   "  if cmp -s \"$STAGED_CONFIG\" \"$LIVE_CONFIG\"; then",
   "    return 0",
   "  fi",
   "  mkdir -p \"$(dirname \"$LIVE_CONFIG\")\" &&",
   "    cp \"$STAGED_CONFIG\" \"$LIVE_CONFIG\" &&",
   "    restart_rsyslog=true &&",
   "    log \"installed $LIVE_CONFIG\"",
   "\x7d",
   "",
   "configure_tls() \x7b",
   "  if [ ! -f \"$TLS_DIR/ca.crt\" ] || [ ! -f \"$TLS_DIR/tls.crt\" ] || [ ! -f \"$TLS_DIR/tls.key\" ]; then",
   "    rm -f \"$TLS_CHECKSUM_FILE\"",
   "    return 0",
   "  fi",
   "  chmod 0700 \"$TLS_DIR\"",
   "  chmod 0600 \"$TLS_DIR/ca.crt\" \"$TLS_DIR/tls.crt\" \"$TLS_DIR/tls.key\"",
   "",
   "  checksum=\"$(cat \"$TLS_DIR/ca.crt\" \"$TLS_DIR/tls.crt\" \"$TLS_DIR/tls.key\" | cksum)\"",
   "  if [ -f \"$TLS_CHECKSUM_FILE\" ] && [ \"$(cat \"$TLS_CHECKSUM_FILE\")\" = \"$checksum\" ]; then",
   "    return 0",
   "  fi",
   "  echo \"$checksum\" > \"$TLS_CHECKSUM_FILE\" &&",
   "    restart_rsyslog=true &&",
   "    log \"TLS material changed\"",
   "\x7d",
   "",
   "# systemd only reads drop-ins on daemon-reload; a restart alone keeps the old limits.",
   "configure_memory_limits() \x7b",
   "  if [ ! -f \"$MEMORY_LIMITS_DROP_IN\" ]; then",
   "    rm -f \"$MEMORY_LIMITS_CHECKSUM_FILE\"",
   "    return 0",
   "  fi",
   "  checksum=\"$(cksum < \"$MEMORY_LIMITS_DROP_IN\")\"",
   "  if [ -f \"$MEMORY_LIMITS_CHECKSUM_FILE\" ] && [ \"$(cat \"$MEMORY_LIMITS_CHECKSUM_FILE\")\" = \"$checksum\" ]; then",
   "    return 0",
   "  fi",
   "  if ! systemctl daemon-reload; then",
   "    log \"systemctl daemon-reload failed\"",
   "    return 0",
   "  fi",
   "  echo \"$checksum\" > \"$MEMORY_LIMITS_CHECKSUM_FILE\" &&",
   "    restart_rsyslog=true &&",
   "    log \"rsyslog memory limits changed\"",
   "\x7d",
   "",
   "# The backup directory doubles as the \"original rules captured\" marker: it is",
   "# created exactly once and only consumed by the cleanup job.",
   "backup_audit_rules() \x7b",
   "  if [ -d \"$AUDIT_RULES_BACKUP_DIR\" ]; then",
   "    return 0",
   "  fi",
   "  if [ -d \"$AUDIT_RULES_DIR\" ]; then",
   "    mv \"$AUDIT_RULES_DIR\" \"$AUDIT_RULES_BACKUP_DIR\"",
   "  else",
   "    mkdir -p \"$AUDIT_RULES_BACKUP_DIR\"",
   "  fi",
   "\x7d",
   "",
   "load_audit_rules() \x7b",
   "  if augenrules --load; then",
   "    echo 1 > \"$AUGENRULES_STATE_FILE\"",
   "  else",
   "    log \"augenrules --load failed\"",
   "    echo 0 > \"$AUGENRULES_STATE_FILE\"",
   "  fi",
   "  restart_auditd=true",
   "\x7d",
   "",
   "configure_audit_rules() \x7b",
   "  if [ ! -d \"$STAGED_AUDIT_RULES_DIR\" ]; then",
   "    return 0",
   "  fi",
   "  if ! backup_audit_rules; then",
   "    log \"could not back up $AUDIT_RULES_DIR, leaving audit rules untouched\"",
   "    return 0",
   "  fi",
   "  if [ -d \"$AUDIT_RULES_DIR\" ] && diff -r \"$STAGED_AUDIT_RULES_DIR\" \"$AUDIT_RULES_DIR\" > /dev/null 2>&1; then",
   "    return 0",
   "  fi",
   "  rm -rf \"$AUDIT_RULES_DIR\" &&",
   "    mkdir -p \"$AUDIT_RULES_DIR\" &&",
   "    cp -R \"$STAGED_AUDIT_RULES_DIR/.\" \"$AUDIT_RULES_DIR/\" &&",
   "    log \"installed audit rules\" &&",
   "    load_audit_rules",
   "\x7d",
   "",
   "restore_audit_rules() \x7b",
   "  rm -f \"$AUGENRULES_STATE_FILE\"",
   "  if [ ! -d \"$AUDIT_RULES_BACKUP_DIR\" ]; then",
   "    return 0",
   "  fi",
   "  rm -rf \"$AUDIT_RULES_DIR\" &&",
   "    mv \"$AUDIT_RULES_BACKUP_DIR\" \"$AUDIT_RULES_DIR\" &&",
   "    log \"restored original audit rules\" &&",
   "    augenrules --load",
   "  restart_auditd=true",
   "\x7d",
   "",
   "enable_audit_syslog_plugin() \x7b",
   "  for plugin in $AUDIT_SYSLOG_PLUGINS; do",
   "    if [ -f \"$plugin\" ] && grep -q '^active = no' \"$plugin\"; then",
   "      sed -i 's/^active = no/active = yes/' \"$plugin\" &&",
   "        restart_auditd=true &&",
   "        log \"enabled $plugin\"",
   "    fi",
   "  done",
   "\x7d",
   "",
   "journald_audit_socket_present() \x7b",
   "  for dir in \"$ROOT/etc/systemd/system\" \"$ROOT/lib/systemd/system\" \"$ROOT/usr/lib/systemd/system\"; do",
   "    if [ -e \"$dir/$JOURNALD_AUDIT_SOCKET\" ]; then",
   "      return 0",
   "    fi",
   "  done",
   "  return 1",
   "\x7d",
   "",
   "disable_journald_audit_socket() \x7b",
   "  if ! journald_audit_socket_present; then",
   "    return 0",
   "  fi",
   "  if [ \"$(systemctl is-enabled \"$JOURNALD_AUDIT_SOCKET\" 2> /dev/null)\" = \"masked\" ]; then",
   "    return 0",
   "  fi",
   "  systemctl disable --now \"$JOURNALD_AUDIT_SOCKET\"",
   "  systemctl mask \"$JOURNALD_AUDIT_SOCKET\"",
   "  systemctl restart systemd-journald",
   "  log \"disabled $JOURNALD_AUDIT_SOCKET\"",
   "\x7d",
   "",
   "write_metrics() \x7b",
   "  if [ \"$AUDIT_ENABLED\" != \"true\" ] || [ ! -f \"$AUGENRULES_STATE_FILE\" ]; then",
   "    rm -f \"$METRICS_FILE\"",
   "    return 0",
   "  fi",
   "  mkdir -p \"$TEXTFILE_DIR\" || return 0",
   "  \x7b",
   "    echo \"# HELP rsyslog_augenrules_load_success Whether the last 'augenrules --load' succeeded (1) or failed (0).\"",
   "    echo \"# TYPE rsyslog_augenrules_load_success gauge\"",
   "    echo \"rsyslog_augenrules_load_success $(cat \"$AUGENRULES_STATE_FILE\")\"",
   "  \x7d > \"$METRICS_FILE.tmp\" && mv \"$METRICS_FILE.tmp\" \"$METRICS_FILE\"",
   "\x7d",
   "",
   "configure_forwarder",
   "configure_tls",
   "configure_memory_limits",
   "",
   "if [ \"$AUDIT_ENABLED\" = \"true\" ]; then",
   "  configure_audit_rules",
   "else",
   "  restore_audit_rules",
   "fi",
   "",
   "enable_audit_syslog_plugin",
   "disable_journald_audit_socket",
   "",
   "if [ \"$restart_auditd\" = \"true\" ]; then",
   "  systemctl restart auditd || log \"restarting auditd failed\"",
   "fi",
   "if [ \"$restart_rsyslog\" = \"true\" ]; then",
   "  systemctl restart rsyslog || log \"restarting rsyslog failed\"",
   "fi",
   "",
   "write_metrics",
   "",
   "exit 0"]

def applyTemplate : Template :=
  ⟨"apply_script",
    [.text (Template.unlines applyHead ++ "AUDIT_ENABLED=\""),
     .slot "audit_enabled" 9 16,
     .text ("\"" ++ "\n" ++ Template.unlines applyBody)]⟩

end LogForwarding.Node
