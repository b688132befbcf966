import LogForwarding.Forwarder.Literal
import LogForwarding.Tenant.Config

/-!
The filter expression of a rule: one clause for each constraint, all of which must hold.
-/

namespace LogForwarding.Forwarder

def clauses (rule : LoggingRule) : List String :=
  (if rule.programNames = [] then []
    else ["$programname == " ++ literalList rule.programNames]) ++
  (rule.severity.toList.map fun n => "$syslogseverity <= " ++ toString n.toInt) ++
  (rule.messageContent.toList.flatMap fun content =>
    (content.regex.toList.map fun r => "re_match($msg, " ++ literal r ++ ") == 1") ++
    (content.exclude.toList.map fun x => "re_match($msg, " ++ literal x ++ ") == 0"))

def filterExpression (rule : LoggingRule) : String :=
  " and ".intercalate (clauses rule)

end LogForwarding.Forwarder
