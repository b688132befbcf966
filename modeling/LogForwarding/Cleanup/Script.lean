import LogForwarding.Template.Basic

/-!
The program that removes everything from a node which forwarding has put there.
-/

namespace LogForwarding.Cleanup

def scriptLines : List String :=
  ["#!/bin/sh",
   "# Removes everything the rsyslog RELP extension installed on this node and",
   "# restores the audit configuration captured before the first apply.",
   "# Each step only acts when its target exists, so a second run, or a run on a",
   "# node that was never configured, changes nothing.",
   "",
   "set -u",
   "",
   "ROOT=\"$\x7bNODE_ROOT:-\x7d\"",
   "",
   "CONFIGURATOR_UNIT=\"rsyslog-configurator.service\"",
   "CONFIGURATOR_UNIT_FILE=\"$ROOT/etc/systemd/system/$CONFIGURATOR_UNIT\"",
   "MEMORY_DROP_IN=\"$ROOT/etc/systemd/system/rsyslog.service.d/10-rsyslog-relp-memory-limits.conf\"",
   "STAGING_DIR=\"$ROOT/var/lib/rsyslog-relp-configurator\"",
   "LIVE_CONFIG=\"$ROOT/etc/rsyslog.d/60-audit.conf\"",
   "TLS_DIR=\"$ROOT/etc/ssl/rsyslog\"",
   "AUDIT_RULES_DIR=\"$ROOT/etc/audit/rules.d\"",
   "AUDIT_RULES_BACKUP_DIR=\"$ROOT/etc/audit/rules.d.original\"",
   "AUDIT_SYSLOG_PLUGINS=\"$ROOT/etc/audit/plugins.d/syslog.conf $ROOT/etc/audisp/plugins.d/syslog.conf\"",
   "SPOOL_DIR=\"$ROOT/var/log/rsyslog\"",
   "TEXTFILE_DIR=\"$ROOT/var/lib/node-exporter/textfile-collector\"",
   "METRICS_FILES=\"$TEXTFILE_DIR/rsyslog_augenrules.prom $TEXTFILE_DIR/rsyslog_pstats.prom\"",
   "",
   "JOURNALD_AUDIT_SOCKET=\"systemd-journald-audit.socket\"",
   "",
   "daemon_reload=false",
   "restart_auditd=false",
   "",
   "log() \x7b",
   "  echo \"rsyslog-relp-cleaner: $*\"",
   "\x7d",
   "",
   "# 1. Stop the configurator so it cannot reinstall anything.",
   "if [ -e \"$CONFIGURATOR_UNIT_FILE\" ]; then",
   "  systemctl disable --now \"$CONFIGURATOR_UNIT\" || log \"disabling $CONFIGURATOR_UNIT failed\"",
   "  rm -f \"$CONFIGURATOR_UNIT_FILE\"",
   "  daemon_reload=true",
   "  log \"removed $CONFIGURATOR_UNIT\"",
   "fi",
   "",
   "# 2. Forwarder spool.",
   "if [ -d \"$SPOOL_DIR\" ]; then",
   "  rm -rf \"$SPOOL_DIR\"",
   "  log \"removed $SPOOL_DIR\"",
   "fi",
   "",
   "# 3. Stop routing audit events into syslog.",
   "for plugin in $AUDIT_SYSLOG_PLUGINS; do",
   "  if [ -f \"$plugin\" ] && grep -q '^active = yes' \"$plugin\"; then",
   "    sed -i 's/^active = yes/active = no/' \"$plugin\"",
   "    restart_auditd=true",
   "    log \"disabled $plugin\"",
   "  fi",
   "done",
   "",
   "# 4. Give audit events back to journald.",
   "for dir in \"$ROOT/etc/systemd/system\" \"$ROOT/lib/systemd/system\" \"$ROOT/usr/lib/systemd/system\"; do",
   "  if [ -e \"$dir/$JOURNALD_AUDIT_SOCKET\" ]; then",
   "    if [ \"$(systemctl is-enabled \"$JOURNALD_AUDIT_SOCKET\" 2> /dev/null)\" = \"masked\" ]; then",
   "      systemctl unmask \"$JOURNALD_AUDIT_SOCKET\"",
   "      systemctl enable --now \"$JOURNALD_AUDIT_SOCKET\"",
   "      systemctl restart systemd-journald",
   "      log \"re-enabled $JOURNALD_AUDIT_SOCKET\"",
   "    fi",
   "    break",
   "  fi",
   "done",
   "",
   "# 5. Original audit rules.",
   "if [ -d \"$AUDIT_RULES_BACKUP_DIR\" ]; then",
   "  rm -rf \"$AUDIT_RULES_DIR\"",
   "  mv \"$AUDIT_RULES_BACKUP_DIR\" \"$AUDIT_RULES_DIR\"",
   "  augenrules --load || log \"augenrules --load failed\"",
   "  restart_auditd=true",
   "  log \"restored $AUDIT_RULES_DIR\"",
   "fi",
   "if [ \"$restart_auditd\" = \"true\" ]; then",
   "  systemctl restart auditd || log \"restarting auditd failed\"",
   "fi",
   "",
   "# 6. Forwarder configuration.",
   "if [ -f \"$LIVE_CONFIG\" ]; then",
   "  rm -f \"$LIVE_CONFIG\"",
   "  if [ -f \"$MEMORY_DROP_IN\" ]; then",
   "    rm -f \"$MEMORY_DROP_IN\"",
   "    daemon_reload=true",
   "  fi",
   "  if [ \"$daemon_reload\" = \"true\" ]; then",
   "    systemctl daemon-reload",
   "    daemon_reload=false",
   "  fi",
   "  systemctl restart rsyslog || log \"restarting rsyslog failed\"",
   "  log \"removed $LIVE_CONFIG\"",
   "fi",
   "",
   "# 7. TLS material, staging directory and metrics.",
   "if [ -d \"$TLS_DIR\" ]; then",
   "  rm -rf \"$TLS_DIR\"",
   "  log \"removed $TLS_DIR\"",
   "fi",
   "if [ -d \"$STAGING_DIR\" ]; then",
   "  rm -rf \"$STAGING_DIR\"",
   "  log \"removed $STAGING_DIR\"",
   "fi",
   "if [ -f \"$MEMORY_DROP_IN\" ]; then",
   "  rm -f \"$MEMORY_DROP_IN\"",
   "  daemon_reload=true",
   "fi",
   "for metrics in $METRICS_FILES; do",
   "  if [ -f \"$metrics\" ]; then",
   "    rm -f \"$metrics\"",
   "  fi",
   "done",
   "if [ \"$daemon_reload\" = \"true\" ]; then",
   "  systemctl daemon-reload",
   "fi",
   "",
   "log \"node is clean\"",
   "exit 0"]

def script : String := Template.unlines scriptLines

end LogForwarding.Cleanup
