import GraphQuery.Value.Basic

/-!
# Why an evaluation fails

The causes of failure, and `Error.message`, which words them.
-/

namespace GraphQuery

/-- Why a call is refused before it starts. -/
inductive CallFault where
  /-- The function needs more arguments. -/
  | tooFew (function : String) (least got : Nat)
  /-- The function takes fewer arguments. -/
  | tooMany (function : String) (most got : Nat)
  /-- A closure takes one argument at most. -/
  | closureArguments (got : Nat)
  /-- The function asks for a parameter that is not there. -/
  | missingParameter
  /-- A parameter is left over. -/
  | extraParameter
  deriving DecidableEq, Repr

/-- The fault in words. -/
def CallFault.message : CallFault → String
  | .tooFew f least got =>
    "'" ++ f ++ "' needs at least " ++ toString least ++ " args but got " ++ toString got
  | .tooMany f most got =>
    "'" ++ f ++ "' needs at most " ++ toString most ++ " args but got " ++ toString got
  | .closureArguments got => "closures take at most 1 argument but got " ++ toString got
  | .missingParameter => "expected more parameters"
  | .extraParameter => "unexpected extra parameter"

/-- Why an evaluation fails. -/
inductive Error where
  /-- A check asked for the evaluation to stop. -/
  | cancelled (check : String)
  /-- The results of an iteration cannot be combined. -/
  | cannotAccumulate
  /-- The value is no collection. -/
  | cannotIterate (kind : Kind)
  /-- The values cannot be compared. -/
  | incomparable (left right : Kind)
  /-- The second value cannot be added to the first. -/
  | incompatible (left right : Kind)
  /-- The argument of a method is no predicate. -/
  | invalidPredicate (method : String) (kind : Kind)
  /-- The argument of a match is no pattern. -/
  | invalidPattern (pattern : String)
  /-- The call does not fit the function. -/
  | invalidCall (fault : CallFault)
  /-- One edge is needed and there are several. -/
  | multipleEdges
  /-- One node is needed and there are several. -/
  | multipleNodes
  /-- One edge is needed and there is none. -/
  | noEdges
  /-- One node is needed and there is none. -/
  | noNodes
  /-- The text, or a value of the kind it names, is no number. -/
  | notANumber (text : String)
  /-- The value has no text. -/
  | notAString (kind : Kind)
  /-- The value cannot be called. -/
  | notCallable (kind : Kind)
  /-- The value has no elements to pick. -/
  | notIndexable (kind : Kind)
  /-- The value cannot be assigned to. -/
  | notATarget (kind : Kind)
  /-- No variable has the name. -/
  | unknownIdentifier (name : String)
  /-- The value has no field or method of the name. -/
  | unknownSelector (selector : String) (kind : Kind)
  deriving DecidableEq, Repr

/-- The error in words. -/
def Error.message : Error → String
  | .cancelled check => "Cancelled at \"" ++ check ++ "\""
  | .cannotAccumulate => "Cannot accumulate collection of values"
  | .cannotIterate k => "Cannot iterate over " ++ k.name
  | .incomparable l r => "Incomparable values: " ++ l.name ++ " and " ++ r.name
  | .incompatible l r => "Incompatible value: cannot add " ++ r.name ++ " to " ++ l.name
  | .invalidPredicate m k => "Invalid argument to '" ++ m ++
      "': expected a closure, string, or bool predicate, got " ++ k.name
  | .invalidPattern p => "Invalid argument to 'matches': not a pattern: " ++ p
  | .invalidCall fault => "Invalid function call: " ++ fault.message
  | .multipleEdges => "Multiple edges in result"
  | .multipleNodes => "Multiple nodes in result"
  | .noEdges => "No edges in result"
  | .noNodes => "No nodes in result"
  | .notANumber text => "Not a number: " ++ text
  | .notAString k => "Not a string: " ++ k.name
  | .notCallable k => "Not callable: " ++ k.name
  | .notIndexable k => "Not indexable: " ++ k.name
  | .notATarget k => "Not an lvalue: " ++ k.name
  | .unknownIdentifier name => "Unknown identifier '" ++ name ++ "'"
  | .unknownSelector s k => "Unknown selector '" ++ s ++ "' on " ++ k.name

end GraphQuery
