import Guidebook.Text.Utf8

/-!
# Problems of templates

Why a template has no result. What is wrong with a template is told apart from an operation that
its values do not allow.
-/

namespace Guidebook.Template

/-- The ways in which an operation is not possible. -/
inductive Breakage where
  /-- Values of these kinds do not take part in it. -/
  | kind
  /-- A value is not one of those it is defined for. -/
  | value
  /-- A number is divided by zero. -/
  | division
  /-- A number gets too large. -/
  | overflow
  /-- There is no such key. -/
  | key
  /-- There is no such place. -/
  | place
  /-- There is no such attribute. -/
  | attribute
  /-- A condition on arguments does not hold. -/
  | condition
  /-- It has nothing to work on. -/
  | use
  /-- It goes too deep. -/
  | depth
  deriving Repr, DecidableEq

/-- Why a template has no result. -/
inductive Problem where
  /-- Something is wrong with a template. -/
  | complaint (text : String)
  /-- An operation is not possible. -/
  | broken (breakage : Breakage) (text : String)
  /-- A template is not text. -/
  | notText (fault : Utf8.Fault)
  deriving Repr, DecidableEq

end Guidebook.Template
