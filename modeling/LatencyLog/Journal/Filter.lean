import LatencyLog.Decimal.Literal
import LatencyLog.Journal.Event
import LatencyLog.Regex.Reader
import LatencyLog.Text.Characters
import LatencyLog.Text.Slice

/-!
# Which events are written

A rule lets events through up to a level. It is about the events whose source begins with a text; it
may be about those only that have a field, or about those only that lie in a span. Spans are what
events of other programs lie in, so a rule for a span is about no event here. A rule is written as
one of

```
level
source [ "=" [ level ] ]
[ source ] "[" scope "]" [ "=" [ level ] ]
```

and the scope is the name of a span, or a field in braces, or both of them in this order. A field is
a name, or a name and a value with an equals sign between them. A rule without a level lets
everything through. A value is a number or a regular expression; only fields of spans have values to
compare it with.

White space at the ends is left away to find the parts of a rule, but the parts are then cut out of
the text as it was given, at the offsets in bytes that were found. So white space at the end belongs
to the last part, and white space in front moves every part. It may move an offset into a character,
and then the text cannot be cut at all.

A filter is a list of rules, written with commas between them; between two commas there may be
nothing. Of the rules for an event, the one with the longest source decides; of several such one
with a field, the last in the order of the alphabet; and of several such the last in the list. An
event without a rule is not written.

A filter that cannot be read is as good as none, and then the level is `info`. Only a text that
cannot be cut into the parts of rules is no filter at all; it does not matter what stands behind a
rule that cannot be read.
-/

namespace LatencyLog.Journal

/-! ## Rules -/

/-- What an event must have besides its source. -/
inductive Scope where
  | anywhere
  | withField (name : String)
  | inSpan
deriving DecidableEq

namespace Scope

/-- An event is in the scope. No event lies in a span. -/
def covers : Scope → Event → Bool
  | anywhere, _ => true
  | withField name, e => e.fieldNames.contains name
  | inSpan, _ => false

/-- The field that an event must have; no text if it needs none. -/
def field : Scope → String
  | withField name => name
  | _ => ""

end Scope

/-- Lets through events up to a rank, if their source begins with a text and the scope is theirs. -/
structure Rule where
  source : List Char
  scope : Scope
  rank : Nat
deriving DecidableEq

namespace Rule

/-- The rule is about the event. -/
def covers (r : Rule) (e : Event) : Bool :=
  r.source.isPrefixOf e.source.toList && r.scope.covers e

/-- Of two rules about an event, the first gives way to the second, which stands behind it. -/
def yieldsTo (a b : Rule) : Bool :=
  decide (a.source.length < b.source.length ∨
    a.source.length = b.source.length ∧ ¬ b.scope.field < a.scope.field)

end Rule

/-! ## Rules as text -/

/-- Why a text is no rule. -/
inductive RuleFault where
  | unreadable
  /-- An offset lies within a character. -/
  | uncuttable
deriving DecidableEq

/-- The number that digits write, with a plus in front or without. -/
def number? (cs : List Char) : Option Nat :=
  let digits := if cs.head? = some '+' then cs.tail else cs
  if digits.isEmpty then none else Text.natOf? 10 digits

/-- The rank that a level names, as a word in either case or as a number; `off` is rank 0. -/
def rank? (cs : List Char) : Option Nat :=
  match (["off", "error", "warn", "info", "debug", "trace"].map String.toList).idxOf?
      (cs.map Char.toLower) with
  | some rank => some rank
  | none => (number? cs).filter fun rank => decide (rank ≤ Level.trace.rank)

/-- The rank behind an equals sign. -/
def rankOf (level : List Char) : Except RuleFault Nat :=
  if level.isEmpty then .ok Level.trace.rank
  else
    match rank? level with
    | some rank => .ok rank
    | none => .error .unreadable

/-- What stands between two offsets. -/
def cut (cs : List Char) (start stop : Nat) : Except RuleFault (List Char) :=
  match Text.slice? start stop cs with
  | some part => .ok part
  | none => .error .uncuttable

/-- What stands behind an offset. -/
def cutFrom (cs : List Char) (start : Nat) : Except RuleFault (List Char) :=
  cut cs start (Text.byteSize cs)

/-- A source may begin with this character. -/
def startsSource (c : Char) : Bool := c = '-' || c = ':' || c = '_' || Text.isAlphanumeric c

/-- The value of a field can be compared with something. -/
def isValue (cs : List Char) : Bool := (Decimal.literal? cs).isSome || Regex.isPattern cs

/-- The scope of a span's name and a field. What is behind a second equals sign is left away. -/
def scopeOf (span field : List Char) : Except RuleFault Scope :=
  match field.splitOn '=' with
  | _ :: value :: _ => if isValue value then .ok .inSpan else .error .unreadable
  | _ =>
    if field.isEmpty then .error .unreadable
    else .ok (if span.isEmpty then .withField (String.ofList field) else .inSpan)

/-- The rank at the end of a rule, given what is left of its text and the offset of that. -/
def rankAt (cs rest : List Char) (offset : Nat) : Except RuleFault Nat :=
  match rest with
  | [] => .ok Level.trace.rank
  | '=' :: _ => (cutFrom cs (offset + 1)).bind rankOf
  | _ => .error .unreadable

/-- The scope and the rank of a rule, given what follows an opening bracket and the offset of
that. -/
def scopeAndRank (cs rest : List Char) (offset : Nat) : Except RuleFault (Scope × Nat) := do
  let (span, rest) := rest.span fun c => decide (c ≠ ']' ∧ c ≠ '\x7b')
  let spanEnd := offset + Text.byteSize span
  match rest with
  | ']' :: rest =>
    let _ ← cut cs offset spanEnd
    return (.inSpan, ← rankAt cs rest (spanEnd + 1))
  | '\x7b' :: rest =>
    let span ← cut cs offset spanEnd
    let (field, rest) := rest.span fun c => decide (c ≠ '\x7d')
    let fieldEnd := spanEnd + 1 + Text.byteSize field
    match rest with
    | '\x7d' :: rest =>
      let scope ← scopeOf span (← cut cs (spanEnd + 1) fieldEnd)
      match rest with
      | ']' :: rest => return (scope, ← rankAt cs rest (fieldEnd + 2))
      | _ => .error .unreadable
    | _ => .error .unreadable
  | _ => .error .unreadable

/-- Reads a rule. What looks like a source but is a level, is a level. -/
def Rule.read (cs : List Char) : Except RuleFault Rule := do
  let text := Text.trim cs
  let (source, rest) := text.span fun c => decide (c ≠ '=' ∧ c ≠ '[')
  if !(text.head?.any fun c => c = '[' || startsSource c) then .error .unreadable
  else
    let sourceEnd := Text.byteSize source
    match rest with
    | [] =>
      match rank? cs with
      | some rank => return ⟨[], .anywhere, rank⟩
      | none => return ⟨cs, .anywhere, Level.trace.rank⟩
    | '[' :: rest =>
      let source ← cut cs 0 sourceEnd
      let (scope, rank) ← scopeAndRank cs rest (sourceEnd + 1)
      return ⟨source, scope, rank⟩
    | rest =>
      let source ← cut cs 0 sourceEnd
      return ⟨source, .anywhere, ← rankAt cs rest sourceEnd⟩

/-! ## Filters -/

abbrev Filter := List Rule

namespace Filter

/-- Events up to `info`. -/
def default : Filter := [⟨[], .anywhere, Level.info.rank⟩]

/-- The filter that a text writes. -/
def read (text : String) : Except RuleFault Filter :=
  ((text.toList.splitOn ',').filter fun cs => !cs.isEmpty).mapM Rule.read

/-- The filter of a run, which may have been given as text. There is none if the text cannot be
cut. -/
def ofText? : (text : Option String) → Option Filter
  | none => some default
  | some text =>
    match read text with
    | .ok filter => some filter
    | .error .unreadable => some default
    | .error .uncuttable => none

/-- Of two rules about an event, the one that decides; the second stands behind the first. -/
def stronger (a : Option Rule) (b : Rule) : Option Rule :=
  match a with
  | some a => if a.yieldsTo b then some b else some a
  | none => some b

/-- The rule that decides on an event. -/
def ruleFor? (filter : Filter) (e : Event) : Option Rule :=
  (filter.filter fun r => r.covers e).foldl stronger none

/-- The event is written. -/
def passes (filter : Filter) (e : Event) : Bool :=
  (filter.ruleFor? e).any fun r => decide (e.level.rank ≤ r.rank)

end Filter

end LatencyLog.Journal
