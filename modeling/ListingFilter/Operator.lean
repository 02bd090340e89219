import ListingFilter.Text.Alphanumeric

/-!
# Operator — the tests a condition can make

Six operators are written with symbols and five with words. An operator counts in a condition only
where it stands alone. A symbol must make up a whole run of symbol characters, so `>=` holds neither
`=` nor `>`; a word must not touch a letter, a digit, an underscore or a colon.
-/

namespace ListingFilter

/-- The operator of a condition. -/
inductive Operator where
  | equal
  | notEqual
  | greater
  | less
  | greaterOrEqual
  | lessOrEqual
  | like
  | isIn
  | hasAny
  | isAny
  | exists
deriving DecidableEq, Repr

namespace Operator

/-- How the operator is written. -/
def symbol : Operator → Text
  | .equal => "=".toList
  | .notEqual => "!=".toList
  | .greater => ">".toList
  | .less => "<".toList
  | .greaterOrEqual => ">=".toList
  | .lessOrEqual => "<=".toList
  | .like => "LIKE".toList
  | .isIn => "IN".toList
  | .hasAny => "HAS_ANY".toList
  | .isAny => "IS_ANY".toList
  | .exists => "EXISTS".toList

/-- Written as a word. -/
def isWord : Operator → Bool
  | .like | .isIn | .hasAny | .isAny | .exists => true
  | _ => false

/-- Asks for greater or less. -/
def isOrdering : Operator → Bool
  | .greater | .less | .greaterOrEqual | .lessOrEqual => true
  | _ => false

/-- Compares with a list of values. -/
def expectsList : Operator → Bool
  | .isIn | .hasAny | .isAny => true
  | _ => false

/-- Every operator, in the order in which a condition is searched for them. -/
def searchOrder : List Operator :=
  [.notEqual, .greaterOrEqual, .lessOrEqual, .equal, .greater, .less,
    .hasAny, .isAny, .exists, .like, .isIn]

/-- A character that symbols are made of. -/
def isSymbolChar (c : Char) : Bool :=
  c == '!' || c == '<' || c == '>' || c == '='

/-- A character that a word operator must not touch. -/
def isWordChar (c : Char) : Bool :=
  isAlphanumeric c || c == '_' || c == ':'

/-- The characters that must not touch this operator. -/
def clings (operator : Operator) (c : Char) : Bool :=
  if operator.isWord then isWordChar c else isSymbolChar c

/-- What follows the operator, when the text begins with it and it stands alone there; `previous`
is the character before the text. -/
def after? (operator : Operator) (previous : Option Char) (text : Text) : Option Text :=
  match operator.symbol.afterStart? text with
  | none => none
  | some after =>
    if previous.any operator.clings || after.head?.any operator.clings then none else some after

/-- The texts before and after the first place in `text` where the operator stands alone. -/
def cutAfter? (operator : Operator) (previous : Option Char) (text : Text) : Option (Text × Text) :=
  match operator.after? previous text with
  | some after => some ([], after)
  | none =>
    match text with
    | [] => none
    | c :: rest =>
      (operator.cutAfter? (some c) rest).map fun (before, after) => (c :: before, after)

/-- The texts before and after the first standalone occurrence of the operator. -/
def cut? (operator : Operator) (text : Text) : Option (Text × Text) :=
  operator.cutAfter? none text

theorem eq_symbol_append_of_after? {operator : Operator} {previous : Option Char}
    {text after : Text} (found : operator.after? previous text = some after) :
    text = operator.symbol ++ after := by
  simp only [after?] at found
  split at found
  · cases found
  · rename_i rest opened
    split at found
    · cases found
    · cases found
      exact Text.afterStart?_eq_some_iff.1 opened

theorem eq_append_of_cutAfter? {operator : Operator} {previous : Option Char}
    {text before after : Text} (found : operator.cutAfter? previous text = some (before, after)) :
    text = before ++ operator.symbol ++ after := by
  induction text generalizing previous before after with
  | nil =>
    rw [cutAfter?] at found
    split at found
    · rename_i rest opened
      cases found
      exact eq_symbol_append_of_after? opened
    · cases found
  | cons c rest ih =>
    rw [cutAfter?] at found
    split at found
    · rename_i tail opened
      cases found
      exact eq_symbol_append_of_after? opened
    · obtain ⟨⟨head, tail⟩, deeper, same⟩ := Option.map_eq_some_iff.1 found
      cases same
      rw [List.cons_append, List.cons_append, ← ih deeper]

/-- A cut loses nothing but the operator. -/
theorem eq_append_of_cut? {operator : Operator} {text before after : Text}
    (found : operator.cut? text = some (before, after)) :
    text = before ++ operator.symbol ++ after :=
  eq_append_of_cutAfter? found

/-- The place of a run of symbol characters that has ended, if the run is the symbol. -/
def runOffset? (symbol : Text) : Option (Nat × Text) → Option Nat
  | some (start, run) => if run = symbol then some start else none
  | none => none

/-- The place of the first whole run of symbol characters that is the symbol. `offset` octets have
been gone through; a run that may go on is kept with the octets in front of it. -/
def symbolOffset? (symbol : Text) (offset : Nat) (run : Option (Nat × Text)) : Text → Option Nat
  | [] => runOffset? symbol run
  | c :: rest =>
    if isSymbolChar c then
      let (start, characters) := run.getD (offset, [])
      symbolOffset? symbol (offset + c.utf8Size) (some (start, characters ++ [c])) rest
    else
      match runOffset? symbol run with
      | some start => some start
      | none => symbolOffset? symbol (offset + c.utf8Size) none rest

/-- The place of the first occurrence of the word that no word character touches. `offset` octets have
been gone through, the last of them those of `previous`. The search goes on behind an occurrence that
is touched, so the next `skip` characters may be passed over. -/
def wordOffset? (word : Text) (previous : Option Char) (offset skip : Nat) : Text → Option Nat
  | [] => none
  | c :: rest =>
    match skip with
    | skip + 1 => wordOffset? word (some c) (offset + c.utf8Size) skip rest
    | 0 =>
      match word.afterStart? (c :: rest) with
      | none => wordOffset? word (some c) (offset + c.utf8Size) 0 rest
      | some after =>
        if previous.any isWordChar || after.head?.any isWordChar then
          wordOffset? word (some c) (offset + c.utf8Size) (word.length - 1) rest
        else some offset

/-- The place of the first standalone occurrence, in octets from the start of the text. -/
def offset? (operator : Operator) (text : Text) : Option Nat :=
  if operator.isWord then wordOffset? operator.symbol none 0 0 text
  else symbolOffset? operator.symbol 0 none text

/-- The operator of a condition: the first in the order of search that stands alone in it. -/
def find? (text : Text) : Option Operator :=
  searchOrder.find? fun operator => (operator.cut? text).isSome

end Operator

end ListingFilter
