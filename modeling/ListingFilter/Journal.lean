import ListingFilter.Tree.Reading

/-!
# Journal — what the reading of a filter did

The reading of a filter visits its expressions and conditions from left to right, going into a group
before what follows it. `visits` lists all of them, faults included, as if a fault did not end the
reading; the journal holds those before the first fault, between a line for the start and one for
success.
-/

namespace ListingFilter

/-- One step of the reading. -/
inductive Visit where
  /-- An expression was cut into so many items and connectives. -/
  | cut (text : Text) (size : Nat)
  /-- A condition was read. -/
  | read (text : Text) (condition : Condition)
  /-- A text was refused. -/
  | refused (fault : Fault)

namespace Visit

/-- The steps at a term, with `group` for what stands in parentheses. -/
def ofTerm (group : Text → Text → List Visit) (term : Text) : List Visit :=
  match term.enclosed? with
  | some inner => group term inner
  | none =>
    match Condition.read term with
    | .ok condition => [.read term condition]
    | .error fault => [.refused fault]

/-- The steps at an expression, with `group` for what stands in parentheses. -/
def ofExpression (spelling : Spelling) (group : Text → Text → List Visit) (text : Text) :
    List Visit :=
  match text.segments spelling with
  | .error fault => [.refused fault]
  | .ok terms => .cut text terms.size :: terms.items.flatMap (ofTerm group)

/-- The steps between the parentheses of a group. -/
def ofGroup (spelling : Spelling) (limit : Nat) : Nat → Text → Text → List Visit
  | 0, _, _ => [.refused (.tooDeep limit)]
  | allowance + 1, term, inner =>
    if inner.isBlank then [.refused (.malformed term .emptyGroup)]
    else ofExpression spelling (ofGroup spelling limit allowance) inner

/-- The step went well. -/
def isDone : Visit → Bool
  | .refused _ => false
  | _ => true

end Visit

/-- How much a line of the journal matters. -/
inductive Level where
  | debug
  | trace
deriving DecidableEq, Repr

/-- A line of the journal. -/
structure Entry where
  level : Level
  message : Text
deriving DecidableEq, Repr

/-- The lines for a step. -/
def Visit.entries : Visit → List Entry
  | .cut text size =>
    [⟨.trace, "split '".toList ++ text ++ "' into ".toList ++ Text.ofNat size ++ " parts".toList⟩]
  | .read text condition =>
    [⟨.trace, "compiled '".toList ++ text ++ "' as ".toList ++ condition.field.kind.name ++
      " condition on ".toList ++ condition.field.token⟩]
  | .refused _ => []

namespace Settings

/-- The steps of reading a filter that is neither blank nor too long. -/
def visits (settings : Settings) (text : Text) : List Visit :=
  let allowance := settings.allowance text
  Visit.ofExpression settings.spelling (Visit.ofGroup settings.spelling allowance allowance) text

/-- The last line of the journal, after success. -/
def conclusion : Except Fault Tree → List Entry
  | .ok tree =>
    [⟨.debug, "parsed ".toList ++ Text.ofNat tree.leafCount ++ " conditions: ".toList ++
      tree.written⟩]
  | .error _ => []

/-- The journal of reading a filter. -/
def journal (settings : Settings) (text : Text) : List Entry :=
  match settings.refusal? text with
  | some _ => []
  | none =>
    ⟨.debug, "parsing filter: ".toList ++ text.trim⟩ ::
      ((settings.visits text.trim).takeWhile Visit.isDone).flatMap Visit.entries ++
        conclusion (settings.parse text)

end Settings

end ListingFilter
