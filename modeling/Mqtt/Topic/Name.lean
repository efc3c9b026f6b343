import Mqtt.Topic.Regex
import Mqtt.Wire.Field

/-!
# `Mqtt.Topic.Name`: topic names and topic filters as text

A topic is a text whose levels are separated by slashes. A topic name,
under which messages are published, has no wildcard. A topic filter may
have `+` for a whole level, and `#` for the last level.

* `validator` is the regular expression that topic filters match.
* `ofText?_validatorText`: it is what its text reads as.
-/

set_option autoImplicit false

namespace Mqtt.Topic

/-- The levels of a topic: the pieces between slashes. -/
def levels (s : String) : List (List Char) :=
  s.toList.splitOn '/'

/-- Whether a text can be sent as a topic at all: it is not empty, has at
most 65535 bytes and no U+0000. -/
def isSendable (s : String) : Bool :=
  !s.isEmpty && s.utf8ByteSize ≤ maxTextLength && !s.toList.contains '\x00'

/-- Whether a text holds a wildcard character. -/
def hasWildcard (cs : List Char) : Bool :=
  cs.any fun c => c = '+' || c = '#'

/-- The regular expression for topic filters, as text. -/
def validatorText : List Char :=
  "^(([^/\\+#]*|\\+)/)*([^/\\+#]*|#|\\+)?$".toList

/-- The expression for a level without wildcards. -/
def plainLevel : Regex := .many (.one ⟨['/', '+', '#'], true⟩)

/-- The expression for a level with the slash behind it. -/
def innerLevel : Regex :=
  .seq (.either plainLevel (.one (.single '+'))) (.one (.single '/'))

/-- The expression for the last level. -/
def lastLevel : Regex :=
  .either (.either plainLevel (.either (.one (.single '#')) (.one (.single '+')))) .empty

/-- The regular expression for topic filters. -/
def validator : Regex :=
  .seq .start (.seq (.many innerLevel) (.seq lastLevel .stop))

/-- The text is read as this expression, so both say the same. -/
theorem ofText?_validatorText : Regex.ofText? validatorText = some validator := by
  decide

/-- Whether a text is a topic filter. -/
def isFilter (s : String) : Bool :=
  isSendable s && validator.isMatch s.toList

/-- Whether a text is a topic name. -/
def isName (s : String) : Bool :=
  isSendable s && !hasWildcard s.toList

end Mqtt.Topic
