import LogForwarding.Template.Basic

/-!
The dashboard that shows how forwarding is doing.
-/

namespace LogForwarding.Monitoring

def dashboardLines : List String :=
  ["\x7b",
   "  \"title\": \"Rsyslog RELP Forwarding\",",
   "  \"uid\": \"rsyslog-relp\",",
   "  \"editable\": false,",
   "  \"schemaVersion\": 39,",
   "  \"time\": \x7b \"from\": \"now-6h\", \"to\": \"now\" \x7d,",
   "  \"refresh\": \"1m\",",
   "  \"tags\": [\"logging\", \"rsyslog\", \"relp\"],",
   "  \"templating\": \x7b",
   "    \"list\": [",
   "      \x7b",
   "        \"name\": \"node\",",
   "        \"type\": \"query\",",
   "        \"datasource\": \x7b \"type\": \"prometheus\", \"uid\": \"prometheus\" \x7d,",
   "        \"query\": \"label_values(rsyslog_pstat_processed, node)\",",
   "        \"includeAll\": true,",
   "        \"multi\": true",
   "      \x7d",
   "    ]",
   "  \x7d,",
   "  \"panels\": [",
   "    \x7b",
   "      \"id\": 1,",
   "      \"type\": \"timeseries\",",
   "      \"title\": \"Messages forwarded per second\",",
   "      \"gridPos\": \x7b \"h\": 8, \"w\": 12, \"x\": 0, \"y\": 0 \x7d,",
   "      \"datasource\": \x7b \"type\": \"prometheus\", \"uid\": \"prometheus\" \x7d,",
   "      \"targets\": [",
   "        \x7b",
   "          \"expr\": \"sum by (node) (rate(rsyslog_pstat_processed\x7borigin=\\\"core.action\\\",name=\\\"rsyslog-relp\\\",node=~\\\"$node\\\"\x7d[5m]))\",",
   "          \"legendFormat\": \"\x7b\x7bnode\x7d\x7d\"",
   "        \x7d",
   "      ]",
   "    \x7d,",
   "    \x7b",
   "      \"id\": 2,",
   "      \"type\": \"timeseries\",",
   "      \"title\": \"Failed messages per second\",",
   "      \"gridPos\": \x7b \"h\": 8, \"w\": 12, \"x\": 12, \"y\": 0 \x7d,",
   "      \"datasource\": \x7b \"type\": \"prometheus\", \"uid\": \"prometheus\" \x7d,",
   "      \"targets\": [",
   "        \x7b",
   "          \"expr\": \"sum by (node) (rate(rsyslog_pstat_failed\x7borigin=\\\"core.action\\\",name=\\\"rsyslog-relp\\\",node=~\\\"$node\\\"\x7d[5m]))\",",
   "          \"legendFormat\": \"\x7b\x7bnode\x7d\x7d\"",
   "        \x7d",
   "      ]",
   "    \x7d,",
   "    \x7b",
   "      \"id\": 3,",
   "      \"type\": \"stat\",",
   "      \"title\": \"Audit rules loaded\",",
   "      \"gridPos\": \x7b \"h\": 6, \"w\": 24, \"x\": 0, \"y\": 8 \x7d,",
   "      \"datasource\": \x7b \"type\": \"prometheus\", \"uid\": \"prometheus\" \x7d,",
   "      \"targets\": [",
   "        \x7b",
   "          \"expr\": \"rsyslog_augenrules_load_success\x7bnode=~\\\"$node\\\"\x7d\",",
   "          \"legendFormat\": \"\x7b\x7bnode\x7d\x7d\"",
   "        \x7d",
   "      ]",
   "    \x7d",
   "  ]",
   "\x7d"]

def dashboardText : String := Template.unlines dashboardLines

end LogForwarding.Monitoring
