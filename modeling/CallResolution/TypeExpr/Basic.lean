/-!
# Type expressions

A type as it is written in a document, before its names are looked up: a dotted name with type
arguments, array dimensions and possibly the three dots of a variable-arity parameter. The
printer gives the canonical text.
-/

namespace CallResolution

/-- How a type argument bounds the type it stands for. -/
inductive Wildcard where
  /-- The argument is the type itself. -/
  | none
  /-- Any type. -/
  | unbounded
  /-- Any subtype of the bound. -/
  | extends
  /-- Any supertype of the bound. -/
  | super
  deriving DecidableEq, Repr, Inhabited

/-- The name of a kind of type argument. -/
def Wildcard.name : Wildcard → String
  | .none => "none"
  | .unbounded => "unbounded"
  | .extends => "extends"
  | .super => "super"

mutual

/-- A type as it is written. -/
inductive TypeExpr where
  /-- A name with optional type arguments, a number of array dimensions and a mark for
  variable arity. -/
  | mk (name : String) (args : Option (List TypeArgExpr)) (dims : Nat) (variadic : Bool)

/-- A type argument as it is written. -/
inductive TypeArgExpr where
  /-- A type. -/
  | exact (t : TypeExpr)
  /-- A wildcard without a bound. -/
  | unbounded
  /-- A wildcard with an upper bound. -/
  | extends (t : TypeExpr)
  /-- A wildcard with a lower bound. -/
  | super (t : TypeExpr)

end

deriving instance Repr, Inhabited for TypeExpr, TypeArgExpr

namespace TypeArgExpr

/-- The kind of an argument. -/
def wildcard : TypeArgExpr → Wildcard
  | .exact _ => .none
  | .unbounded => .unbounded
  | .extends _ => .extends
  | .super _ => .super

/-- The type of an argument, or the bound of a wildcard that has one. -/
def bound? : TypeArgExpr → Option TypeExpr
  | .exact t | .extends t | .super t => some t
  | .unbounded => none

end TypeArgExpr

namespace TypeExpr

/-- The dotted name. -/
def name : TypeExpr → String
  | .mk n _ _ _ => n

/-- The arguments, when there is a pair of angle brackets. -/
def args? : TypeExpr → Option (List TypeArgExpr)
  | .mk _ a _ _ => a

/-- The number of pairs of square brackets. -/
def dims : TypeExpr → Nat
  | .mk _ _ d _ => d

/-- Whether three dots follow. -/
def isVariadic : TypeExpr → Bool
  | .mk _ _ _ v => v

/-- The same type with three dots. -/
def variadic : TypeExpr → TypeExpr
  | .mk n a d _ => .mk n a d true

/-- The brackets of a number of array dimensions. -/
def brackets (dims : Nat) : String :=
  String.join (List.replicate dims "[]")

end TypeExpr

mutual

/-- The canonical text of a type. -/
def TypeExpr.text : TypeExpr → String
  | .mk name args dims variadic =>
    name ++ (match args with
      | none => ""
      | some as => "<" ++ ", ".intercalate (argTexts as) ++ ">")
      ++ TypeExpr.brackets dims ++ (if variadic then "..." else "")

/-- The canonical text of a type argument. -/
def TypeArgExpr.text : TypeArgExpr → String
  | .exact t => t.text
  | .unbounded => "?"
  | .extends t => "? extends " ++ t.text
  | .super t => "? super " ++ t.text

/-- The canonical texts of type arguments. -/
def argTexts : List TypeArgExpr → List String
  | [] => []
  | a :: as => a.text :: argTexts as

end

/-- A declared type parameter with its bounds. -/
structure TypeParamExpr where
  /-- The name. -/
  name : String
  /-- The bounds, in order. -/
  bounds : List TypeExpr
  deriving Repr, Inhabited

/-- A declared local variable. -/
structure LocalExpr where
  /-- The type. -/
  type : TypeExpr
  /-- The name. -/
  name : String
  deriving Repr, Inhabited

end CallResolution
