import LogForwarding.Template.Basic

/-!
The statistics program of a node, its memory limits, and the unit that runs the program which
installs the configuration.
-/

namespace LogForwarding.Node

/-- Turns the statistics of the forwarder into metrics. -/
def statsProgram : List String :=
  ["#!/bin/sh",
   "# Receives impstats JSON records from rsyslog's omprog action on stdin and",
   "# exposes the processed and failed counters of every action to the",
   "# node-exporter textfile collector.",
   "",
   "ROOT=\"$\x7bNODE_ROOT:-\x7d\"",
   "",
   "TEXTFILE_DIR=\"$ROOT/var/lib/node-exporter/textfile-collector\"",
   "METRICS_FILE=\"$TEXTFILE_DIR/rsyslog_pstats.prom\"",
   "STATE_DIR=\"$ROOT/var/lib/rsyslog-relp-configurator/pstats\"",
   "",
   "mkdir -p \"$TEXTFILE_DIR\" \"$STATE_DIR\" || exit 1",
   "",
   "field() \x7b",
   "  printf '%s\\n' \"$1\" | sed -n \"s/.*\\\"$2\\\": *\\\"\\\x7b0,1\\\x7d\\([^\\\",\x7d]*\\)\\\"\\\x7b0,1\\\x7d.*/\\1/p\"",
   "\x7d",
   "",
   "write_metrics() \x7b",
   "  \x7b",
   "    echo \"# HELP rsyslog_pstat_processed Messages processed by an rsyslog action.\"",
   "    echo \"# TYPE rsyslog_pstat_processed counter\"",
   "    cat \"$STATE_DIR\"/*.processed 2> /dev/null",
   "    echo \"# HELP rsyslog_pstat_failed Messages an rsyslog action failed to process.\"",
   "    echo \"# TYPE rsyslog_pstat_failed counter\"",
   "    cat \"$STATE_DIR\"/*.failed 2> /dev/null",
   "  \x7d > \"$METRICS_FILE.tmp\" && mv \"$METRICS_FILE.tmp\" \"$METRICS_FILE\"",
   "\x7d",
   "",
   "while IFS= read -r line; do",
   "  origin=\"$(field \"$line\" origin)\"",
   "  name=\"$(field \"$line\" name)\"",
   "  processed=\"$(field \"$line\" processed)\"",
   "  failed=\"$(field \"$line\" failed)\"",
   "  if [ -z \"$origin\" ] || [ -z \"$name\" ] || [ -z \"$processed\" ] || [ -z \"$failed\" ]; then",
   "    continue",
   "  fi",
   "  key=\"$(printf '%s_%s' \"$origin\" \"$name\" | tr -c 'A-Za-z0-9_.\\n-' '_')\"",
   "  labels=\"origin=\\\"$origin\\\",name=\\\"$name\\\"\"",
   "  echo \"rsyslog_pstat_processed\x7b$labels\x7d $processed\" > \"$STATE_DIR/$key.processed\"",
   "  echo \"rsyslog_pstat_failed\x7b$labels\x7d $failed\" > \"$STATE_DIR/$key.failed\"",
   "  write_metrics",
   "done"]

def memoryLimits : List String :=
  ["[Service]",
   "MemoryMin=15M",
   "MemoryHigh=150M",
   "MemoryMax=300M",
   "MemorySwapMax=0"]

/-- The unit in front of the path of the program. -/
def unitHead : List String :=
  ["[Unit]",
   "Description=rsyslog RELP configurator daemon",
   "Documentation=https://www.rsyslog.com/doc/configuration/modules/omrelp.html",
   "After=network-online.target",
   "",
   "[Service]",
   "Type=simple",
   "Restart=always",
   "RestartSec=15"]

/-- The unit behind the path of the program. -/
def unitTail : List String :=
  ["",
   "[Install]",
   "WantedBy=multi-user.target"]

def unitTemplate : Template :=
  ⟨"configurator_unit",
    [.text (Template.unlines unitHead ++ "ExecStart="),
     .slot "apply_script" 10 11,
     .text ("\n" ++ Template.unlines unitTail)]⟩

end LogForwarding.Node
