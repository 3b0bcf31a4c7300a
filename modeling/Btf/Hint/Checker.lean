import Btf.Hint

/-!
# Checking values against hints

A value is checked by a checker that is given from outside and that knows what hints mean. What is asked
of it is settled here: a collection of hints is taken for their union, a hint with parts is not taken
apart, and all elements of lists and mappings count.

* `Failure`: how something that is given from outside fails;
* `TypeChecker`, `CheckFault`: checkers, with the strategies that they can be asked to follow;
* `Expected`, `Expected.hint?`: what a value can be checked against, and the hint that says it;
* `TypeChecker.checkType`: **a value is checked**;
* `TypeChecker.isInstance`: the same as a question.
-/

namespace Btf

/-! ## Failures -/

/-- The classes that failures are told apart by. -/
inductive FailureSort
  | type
  | value
  | lookup
  | other
  deriving DecidableEq, Repr

/-- How something that is given from outside fails: the name of the class of the failure, the class that
it is told apart by, and what it says. -/
structure Failure where
  name : String
  sort : FailureSort
  message : Text
  deriving DecidableEq, Repr

/-- A value has the wrong type. -/
def Failure.ofType (message : Text) : Failure := { name := "TypeError", sort := .type, message }

/-! ## Checkers -/

/-- What a checker does about the name of a type that it does not know. -/
inductive ReferencePolicy
  | error
  | warn
  | ignore
  deriving DecidableEq, Repr

/-- Which elements of a list, and which entries of a mapping, a checker looks at. -/
inductive CheckStrategy
  | firstItem
  | allItems
  deriving DecidableEq, Repr

def CheckStrategy.items {α : Type} : CheckStrategy → List α → List α
  | firstItem, as => as.take 1
  | allItems, as => as

/-- How a checker fails: the value does not match the hint, or nothing can be said of it. -/
inductive CheckFault
  | mismatch (message : Text)
  | other (failure : Failure)
  deriving Repr

/-- What a checker knows of values and hints. -/
structure TypeChecker where
  check : Value → Hint → ReferencePolicy → CheckStrategy → Except CheckFault Unit

/-! ## What is expected -/

/-- The collections that hints can stand in. -/
inductive HintCollection
  | list
  | tuple
  | set
  | frozenset
  deriving DecidableEq, Repr

/-- What a value can be checked against: a hint, or some hint of a collection. A set gives its hints in
an order of its own. -/
inductive Expected
  | one (h : Hint)
  | anyOf (collection : HintCollection) (hints : List Hint)
  deriving Repr

/-- The hint that says what is expected. Null in a collection stands for its type; a hint that is not in
one is what it is, also if it has parts. -/
def Expected.hint? : Expected → Except Hint.UnionFault Hint
  | one h => .ok h
  | anyOf _ hs => Hint.union? (hs.map Hint.inner)

namespace TypeChecker

/-- How a fault of a checker is passed on: a value that does not match has the wrong type. -/
def failureOf : CheckFault → Failure
  | .mismatch message => .ofType message
  | .other failure => failure

/-- **A value is checked** against what is expected, and all its elements with it. -/
def checkType (checker : TypeChecker) (v : Value) (e : Expected) : Except Failure Unit := do
  let h ← e.hint?.mapError fun fault => .ofType fault.message
  (checker.check v h .error .allItems).mapError failureOf

/-- A value is what is expected, and a value of the wrong type is not; any other failure is passed on. -/
def isInstance (checker : TypeChecker) (v : Value) (e : Expected) : Except Failure Bool :=
  match checker.checkType v e with
  | .ok () => .ok true
  | .error failure => if failure.sort = .type then .ok false else .error failure

end TypeChecker

end Btf
