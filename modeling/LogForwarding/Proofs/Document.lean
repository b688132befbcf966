import LogForwarding.Proofs.Run
import LogForwarding.Proofs.Yaml.Reading

/-!
How the document of a record is read.  It is stored as a value and printed before it is read, so
what the reader refuses or folds is lost on the way.
-/

namespace LogForwarding

open Yaml

namespace Actuator

end Actuator

end LogForwarding
