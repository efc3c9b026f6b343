import Mqtt.Topic.Name

/-!
# `Mqtt.Topic.Filter`: matching topics against a filter

A `TopicFilter` matches topics by a regular expression that is made of the
levels of the filter. `+` becomes an expression for any level, and every
other level one for its own text. A final `#` becomes an expression for
any further levels, whose text has no line feed. A filter that starts with
a wildcard does not match the topics of the server itself, which start
with `$`.

* `TopicFilter.ofString` reads a filter.
* `TopicFilter.accepts` matches a topic.
-/

set_option autoImplicit false

namespace Mqtt

/-- Why a text is refused as a filter. -/
inductive FilterError where
  | empty
  | invalid (text : String)
  /-- The expression for the filter cannot be read. -/
  | unreadable (text : String)
  /-- There are more `+` levels than a matcher can hold (`TopicFilter.maxWildcards`). -/
  | tooManyWildcards (text : String)
  deriving DecidableEq, Repr

/-- The sentence that describes an error. What is wrong with an expression is
told by the engine that reads it, in its own words. So only the front of the
last two sentences is fixed; `syntax error.` and `too many wildcard levels.`
stand in for what such an engine says. -/
def FilterError.message : FilterError → String
  | empty => "Topic filter cannot be empty."
  | invalid text => "Invalid topic filter '" ++ text ++ "'."
  | unreadable text => "Unable to compile topic filter '" ++ text ++ "': syntax error."
  | tooManyWildcards text =>
      "Unable to compile topic filter '" ++ text ++ "': too many wildcard levels."

/-- A filter that is ready to be matched. -/
structure TopicFilter where
  text : String
  /-- The expression that topics match. -/
  matcher : Regex
  deriving DecidableEq, Repr

namespace TopicFilter

/-- The most `+` levels that a filter can have.

A matcher is limited by its size. The bound is exact for the filters that are
made of `+` levels only. The characters of other levels take some of the space
too, and are not counted: a filter with thousands of `+` levels, and with tens
of thousands of other characters in between, is read here although its matcher
would be too large. -/
def maxWildcards : Nat := 9781

/-- The expression for any level. -/
def anyLevel : List Char := "([^/]*)".toList

/-- The expression for any further levels. -/
def anyFurther : List Char := "(/.*)?".toList

/-- The expression for a level of a filter. -/
def levelPattern (level : List Char) : List Char :=
  if level = ['+'] then anyLevel else Regex.escape level

/-- The expression for the levels of a filter, without a final `#`. -/
def levelsPattern (levels : List (List Char)) : List Char :=
  ['/'].intercalate (levels.map levelPattern)

/-- The expression for a filter with the given levels, and with a final `#`
or without one. -/
def pattern (levels : List (List Char)) (trailing : Bool) : List Char :=
  match trailing, levels with
  | true, [] => "^.*$".toList
  | true, _ => '^' :: levelsPattern levels ++ anyFurther ++ ['$']
  | false, _ => '^' :: levelsPattern levels ++ ['$']

/-- Whether the last level is `#`. -/
def isTrailing (texts : List (List Char)) : Bool :=
  texts.getLast? = some ['#']

/-- The levels of a filter without a final `#`. -/
def leading (texts : List (List Char)) : List (List Char) :=
  if isTrailing texts then texts.dropLast else texts

/-- Reads a filter. Whether the matcher is too large is decided by the number
of `+` levels alone (see `maxWildcards`). -/
def ofString (s : String) : Except FilterError TopicFilter :=
  if s.isEmpty then .error .empty
  else if !Topic.isFilter s then .error (.invalid s)
  else
    let texts := Topic.levels s
    match Regex.ofText? (pattern (leading texts) (isTrailing texts)) with
    | none => .error (.unreadable s)
    | some matcher =>
        if maxWildcards < (leading texts).count ['+'] then .error (.tooManyWildcards s)
        else .ok ⟨s, matcher⟩

/-- Whether the filter starts with a wildcard. -/
def startsWithWildcard (f : TopicFilter) : Bool :=
  f.text.toList.head?.any fun c => c = '+' || c = '#'

/-- Whether the filter matches a topic. -/
def accepts (f : TopicFilter) (topic : String) : Bool :=
  if topic.toList.head? = some '$' ∧ f.startsWithWildcard then false
  else f.matcher.isMatch topic.toList

end TopicFilter

end Mqtt
