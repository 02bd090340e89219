import ListingFilter.Condition.Reading
import ListingFilter.Segments
import ListingFilter.Settings
import ListingFilter.Tree.Basic

/-!
# Tree reading — from a filter text to a tree

An expression is a chain of terms, and a term is a group in parentheses or one condition:

* expression: term, or term connective expression
* term: `(` expression `)`, or condition

Each level of parentheses uses up one unit of an allowance. A filter without a limit on nesting gets
as much as it has characters, which is more than it can use.
-/

namespace ListingFilter

namespace Tree

/-- Reads a term, with `readGroup` for what stands in parentheses: it is given the term and the text
between them. -/
def readTerm (readGroup : Text → Text → Except Fault Tree) (term : Text) : Except Fault Tree :=
  match term.enclosed? with
  | some inner => readGroup term inner
  | none => .leaf <$> Condition.read term

/-- Reads an expression, with `readGroup` for what stands in parentheses. -/
def readExpression (spelling : Spelling) (readGroup : Text → Text → Except Fault Tree)
    (text : Text) : Except Fault Tree := do
  let terms ← text.segments spelling
  return ofChain (← terms.traverse (readTerm readGroup))

/-- Reads what stands between the parentheses of a group, where groups may be nested as deep as the
allowance, and `limit` is reported if they are nested deeper. -/
def readGroup (spelling : Spelling) (limit : Nat) : Nat → Text → Text → Except Fault Tree
  | 0, _, _ => .error (.tooDeep limit)
  | allowance + 1, term, inner =>
    if inner.isBlank then .error (.malformed term .emptyGroup)
    else readExpression spelling (readGroup spelling limit allowance) inner

end Tree

namespace Settings

/-- The levels of parentheses that a text may use. -/
def allowance (settings : Settings) (text : Text) : Nat :=
  settings.maxDepth.getD text.length

/-- The fault of a text that cannot be read at all: too long, or blank. -/
def refusal? (settings : Settings) (text : Text) : Option Fault :=
  match settings.maxLength with
  | some limit =>
    if text.utf8Size > limit then some (.tooLong text.utf8Size limit)
    else if text.isBlank then some .empty
    else none
  | none => if text.isBlank then some .empty else none

/-- Reads a filter. -/
def parse (settings : Settings) (text : Text) : Except Fault Tree :=
  match settings.refusal? text with
  | some fault => .error fault
  | none =>
    let allowance := settings.allowance text.trim
    Tree.readExpression settings.spelling (Tree.readGroup settings.spelling allowance allowance)
      text.trim

/-- The name of the request parameter that carries a filter. -/
def parameter : Text :=
  "filter".toList

/-- Reads the filter among the parameters of a request. Without one, or with a blank one, nothing is
filtered. -/
def parseParameters (settings : Settings) (parameters : List (Text × Text)) :
    Except Fault (Option Tree) :=
  match parameters.lookup parameter with
  | none => .ok none
  | some text => if text.isBlank then .ok none else some <$> settings.parse text

end Settings

end ListingFilter
