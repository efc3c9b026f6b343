/-!
# `Mqtt.Topic.Regex`: regular expressions

Topic filters are checked and matched by regular expressions. This is the
part of their usual syntax that filters need: literal characters and
escapes, sets of characters, groups, alternatives, repetition, and the two
ends of the text. A text matches if any piece of it does; the ends tie an
expression to the whole text.

* `Regex.Matches` is what an expression means.
* `Regex.isMatch` decides it, character by character: `Regex.after` is what
  is left of an expression once a character was matched.
* `Regex.ofText?` reads an expression, and `Regex.escape` writes a text as
  an expression that matches this text only.
-/

set_option autoImplicit false

namespace Mqtt

/-- A set of characters: those that are listed, or all others. -/
structure CharSet where
  listed : List Char
  inverted : Bool
  deriving DecidableEq, Repr

namespace CharSet

/-- Whether a character belongs to the set. -/
def contains (s : CharSet) (c : Char) : Bool :=
  s.listed.contains c != s.inverted

/-- The set of one character. -/
def single (c : Char) : CharSet := ⟨[c], false⟩

/-- Every character. -/
def all : CharSet := ⟨[], true⟩

/-- Every character but a line feed. -/
def dot : CharSet := ⟨['\n'], true⟩

end CharSet

/-- A regular expression. -/
inductive Regex where
  /-- Matches no text. -/
  | nothing
  /-- Matches the empty text. -/
  | empty
  /-- Matches one character of a set. -/
  | one (set : CharSet)
  /-- Matches where the text starts. -/
  | start
  /-- Matches where the text stops. -/
  | stop
  | seq (first second : Regex)
  | either (first second : Regex)
  /-- Matches any number of texts in a row, also none. -/
  | many (body : Regex)
  deriving DecidableEq, Repr

namespace Regex

/-! ### Meaning -/

/-- Whether a text is cut into pieces that `P` accepts, each between what is
before it and what is after it. -/
inductive Repeats (P : List Char → List Char → List Char → Prop) :
    List Char → List Char → List Char → Prop where
  | done {before after : List Char} : Repeats P before [] after
  | more {before piece rest after : List Char} (hpiece : P before piece (rest ++ after))
      (hrest : Repeats P (before ++ piece) rest after) : Repeats P before (piece ++ rest) after

/-- Whether an expression matches `text` where it stands between `before`
and `after`. -/
def Matches : Regex → (before text after : List Char) → Prop
  | nothing, _, _, _ => False
  | empty, _, text, _ => text = []
  | one set, _, text, _ => ∃ c, text = [c] ∧ set.contains c
  | start, before, text, _ => before = [] ∧ text = []
  | stop, _, text, after => text = [] ∧ after = []
  | seq r s, before, text, after => ∃ u v, text = u ++ v ∧
      r.Matches before u (v ++ after) ∧ s.Matches (before ++ u) v after
  | either r s, before, text, after => r.Matches before text after ∨ s.Matches before text after
  | many r, before, text, after => Repeats r.Matches before text after

/-! ### Matching -/

/-- Puts an expression in front of another. -/
def andThen : Regex → Regex → Regex
  | nothing, _ => nothing
  | empty, s => s
  | r, empty => r
  | r, s => seq r s

/-- Expressions in a row. -/
def sequence (parts : List Regex) : Regex :=
  parts.foldr andThen empty

/-- An expression or another. -/
def orElse : Regex → Regex → Regex
  | nothing, s => s
  | r, nothing => r
  | r, s => either r s

/-- Whether an expression matches the empty text, which stands where the
text starts or not, and where it stops or not. -/
def acceptsEmpty : Regex → (atStart atStop : Bool) → Bool
  | nothing, _, _ | one _, _, _ => false
  | empty, _, _ | many _, _, _ => true
  | start, atStart, _ => atStart
  | stop, _, atStop => atStop
  | seq r s, atStart, atStop => r.acceptsEmpty atStart atStop && s.acceptsEmpty atStart atStop
  | either r s, atStart, atStop => r.acceptsEmpty atStart atStop || s.acceptsEmpty atStart atStop

/-- What is left to match of an expression that begins with `c`. -/
def after (c : Char) : Regex → (atStart : Bool) → Regex
  | nothing, _ | empty, _ | start, _ | stop, _ => nothing
  | one set, _ => if set.contains c then empty else nothing
  | seq r s, atStart =>
      let later := if r.acceptsEmpty atStart false then after c s atStart else nothing
      ((after c r atStart).andThen s).orElse later
  | either r s, atStart => (after c r atStart).orElse (after c s atStart)
  | many r, atStart => (after c r atStart).andThen (many r)

/-- Whether an expression matches all that is left of a text. -/
def matchesRest : Regex → (atStart : Bool) → List Char → Bool
  | r, atStart, [] => r.acceptsEmpty atStart true
  | r, atStart, c :: cs => (after c r atStart).matchesRest false cs

/-- Whether an expression matches a piece of a text. -/
def isMatch (r : Regex) (text : List Char) : Bool :=
  let anything := many (one .all)
  (seq anything (seq r anything)).matchesRest true text

/-! ### Reading -/

/-- The characters that mean something in an expression. -/
def special : List Char :=
  ['\\', '.', '+', '*', '?', '(', ')', '|', '[', ']', '\x7b', '\x7d', '^', '$', '#', '&', '-', '~']

/-- The expression that matches a text and nothing else. -/
def escape (text : List Char) : List Char :=
  text.flatMap fun c => if special.contains c then ['\\', c] else [c]

/-- A group that is being read. Both lists have the latest element first. -/
structure Group where
  /-- The alternatives that are complete. -/
  choices : List Regex
  /-- The parts of the one that is not. -/
  parts : List Regex

namespace Group

/-- Nothing of the group was read. -/
def new : Group := ⟨[], []⟩

/-- The alternative that is being read. -/
def choice (g : Group) : Regex :=
  sequence g.parts.reverse

/-- The whole group. -/
def regex (g : Group) : Regex :=
  g.choices.foldl (fun rest choice => either choice rest) g.choice

end Group

/-- What a reader is in the middle of. -/
inductive Reading where
  | plain
  /-- The next character stands for itself. -/
  | escaped
  /-- A set has been opened. -/
  | setOpened
  | set (s : CharSet)
  /-- The next character belongs to the set. -/
  | setEscaped (s : CharSet)

/-- A part of an expression that was read. -/
structure Draft where
  reading : Reading
  group : Group
  /-- The groups around it, the innermost one first. -/
  outer : List Group

namespace Draft

/-- Nothing was read. -/
def new : Draft := ⟨.plain, .new, []⟩

/-- Adds a part. -/
def push (d : Draft) (r : Regex) : Draft :=
  { d with reading := .plain, group := { d.group with parts := r :: d.group.parts } }

/-- Repeats the last part. -/
def onLast (d : Draft) (f : Regex → Regex) : Option Draft :=
  match d.group.parts with
  | [] => none
  | r :: parts => some { d with group := { d.group with parts := f r :: parts } }

/-- Ends the innermost group, which is a part of the group around it. -/
def close (d : Draft) : Option Draft :=
  match d.outer with
  | [] => none
  | g :: outer => some (({ d with group := g, outer } : Draft).push d.group.regex)

/-- Reads a character outside of a set. Counted repetition is not known. -/
def readPlain (d : Draft) (c : Char) : Option Draft :=
  match c with
  | '\\' => some { d with reading := .escaped }
  | '[' => some { d with reading := .setOpened }
  | '(' => some { d with group := .new, outer := d.group :: d.outer }
  | ')' => d.close
  | '|' => some { d with group := ⟨d.group.choice :: d.group.choices, []⟩ }
  | '*' => d.onLast many
  | '+' => d.onLast fun r => seq r (many r)
  | '?' => d.onLast fun r => either r empty
  | '.' => some (d.push (one .dot))
  | '^' => some (d.push start)
  | '$' => some (d.push stop)
  | '\x7b' => none
  | _ => some (d.push (one (.single c)))

/-- Reads a character of a set. Ranges and sets in sets are not known. -/
def readSet (d : Draft) (s : CharSet) (c : Char) : Option Draft :=
  match c with
  | '\\' => some { d with reading := .setEscaped s }
  | ']' => if s.listed = [] then none else some (d.push (one s))
  | '[' | '-' | '&' | '~' => none
  | _ => some { d with reading := .set { s with listed := s.listed ++ [c] } }

/-- Reads a character. -/
def read (d : Draft) (c : Char) : Option Draft :=
  match d.reading with
  | .plain => d.readPlain c
  | .escaped => if special.contains c then some (d.push (one (.single c))) else none
  | .setOpened =>
      if c = '^' then some { d with reading := .set ⟨[], true⟩ } else d.readSet ⟨[], false⟩ c
  | .set s => d.readSet s c
  | .setEscaped s =>
      if special.contains c then
        some { d with reading := .set { s with listed := s.listed ++ [c] } }
      else none

/-- The expression that was read, if it is complete. -/
def regex? (d : Draft) : Option Regex :=
  match d.reading, d.outer with
  | .plain, [] => some d.group.regex
  | _, _ => none

end Draft

/-- Reads a regular expression. -/
def ofText? (text : List Char) : Option Regex := do
  let d ← text.foldlM Draft.read Draft.new
  d.regex?

end Regex

end Mqtt
