import CallResolution.Members.Basic

/-!
# Calls

Call expressions and what surrounds them: arguments and receivers with their static types, the
chain of enclosing classes, the call itself, and the program that the calls of a document
form.
-/

namespace CallResolution

open Source

/-- The number of a call site; 0 is no site. -/
abbrev SiteId := Nat

/-- The form of an argument, receiver or enclosing instance. -/
inductive ExprForm where
  /-- Any expression with a known type. -/
  | value
  /-- A constant. -/
  | literal
  /-- The null literal. -/
  | null
  /-- A class literal of a type. -/
  | classLiteral (denoted : TypeId)
  /-- The creation of an instance of a class. -/
  | creation (denoted : TypeId)
  /-- The current instance, or one around it, reached through the listed classes. -/
  | this (via : List TypeId)
  /-- The current instance as one of its superclass. -/
  | super
  /-- A type used as a qualifier. -/
  | typeName (denoted : TypeId)
  /-- A local variable, reached through the listed classes. -/
  | localVar (name : String) (via : List TypeId)
  /-- A field, reached through the listed classes. -/
  | field (name : String) (field : FieldId) (via : List TypeId)
  /-- The value of another call site. -/
  | call (site : SiteId)
  /-- The last argument of a constructor accessor. -/
  | placeholder
  deriving DecidableEq, Repr, Inhabited

/-- An argument, receiver or enclosing instance. -/
structure Expr where
  /-- Its form. -/
  form : ExprForm
  /-- Its static type; none for the value of a call site. -/
  type : TypeId
  /-- Where it stands. -/
  span : Span := .none
  deriving DecidableEq, Repr, Inhabited

namespace ExprForm

/-- The name of a form. -/
def name : ExprForm → String
  | .value => "value"
  | .literal => "literal"
  | .null => "null"
  | .classLiteral _ => "class-literal"
  | .creation _ => "new"
  | .this _ => "this"
  | .super => "super"
  | .typeName _ => "type"
  | .localVar _ _ => "local"
  | .field _ _ _ => "field"
  | .call _ => "call"
  | .placeholder => "null-placeholder"

/-- The type that a class literal, creation or type name is about. -/
def denoted : ExprForm → TypeId
  | .classLiteral t | .creation t | .typeName t => t
  | _ => .none

/-- The name of a local variable or field. -/
def variableName : ExprForm → String
  | .localVar n _ | .field n _ _ => n
  | _ => ""

/-- The classes through which a variable or instance is reached. -/
def via : ExprForm → List TypeId
  | .this v | .localVar _ v | .field _ _ v => v
  | _ => []

/-- Whether this is the current instance as one of its superclass. -/
def isSuper : ExprForm → Bool
  | .super => true
  | _ => false

/-- Whether this is a type used as a qualifier. -/
def isTypeName : ExprForm → Bool
  | .typeName _ => true
  | _ => false

end ExprForm

/-- A local variable in view. -/
structure Local where
  /-- The name. -/
  name : String
  /-- The type. -/
  type : TypeId
  deriving DecidableEq, Repr, Inhabited

/-- One class around a call, with what the code between this class and the next inner one
brings along. -/
structure Frame where
  /-- The class. -/
  type : TypeId
  /-- Whether the code is static. -/
  isStatic : Bool := false
  /-- Whether the code is an argument of an explicit constructor call. -/
  inExplicitCtor : Bool := false
  /-- Whether the code is deprecated. -/
  isDeprecated : Bool := false
  /-- The exceptions that are caught or declared. -/
  handled : List TypeId := []
  /-- The local variables. -/
  locals : List Local := []
  deriving DecidableEq, Repr, Inhabited

/-- Whether a local variable of a name is in view. -/
def Frame.hasLocal (f : Frame) (name : String) : Bool :=
  f.locals.any (·.name = name)

/-- The classes around a call, from the inside out. -/
structure Env where
  /-- The frames. -/
  frames : List Frame
  deriving DecidableEq, Repr, Inhabited

namespace Env

/-- The innermost class. -/
def this (e : Env) : TypeId :=
  (e.frames.head?).elim .none (·.type)

/-- Whether the call stands in deprecated code. -/
def isDeprecated (e : Env) : Bool :=
  e.frames.any (·.isDeprecated)

/-- The frame with a number. -/
def frame (e : Env) (i : Nat) : Frame :=
  e.frames.getD i { type := .none }

/-- The classes from the innermost one up to a frame. -/
def via (e : Env) (i : Nat) : List TypeId :=
  (e.frames.take (i + 1)).map (·.type)

end Env

/-- The body of an anonymous class. -/
structure AnonymousBody where
  /-- Where it stands. -/
  span : Span
  /-- The local variables it uses. -/
  captures : List String
  deriving DecidableEq, Repr, Inhabited

/-- What is called. -/
inductive Call where
  /-- A method, of a receiver or by its name alone. -/
  | method (name : String) (receiver : Option Expr)
  /-- A constructor in a creation, possibly with an enclosing instance and the body of an
  anonymous class. -/
  | new (cls : TypeId) (outer : Option Expr) (body : Option AnonymousBody)
  /-- Another constructor of the same class. -/
  | this
  /-- A constructor of the superclass, possibly with an enclosing instance. -/
  | super (outer : Option Expr)
  deriving DecidableEq, Repr, Inhabited

/-- How far a call site got. -/
inductive ResolutionState where
  /-- It has not been looked at. -/
  | unresolved
  /-- It is bound. -/
  | resolved
  /-- It is bound and waits for its local class to be complete. -/
  | deferred
  /-- It could not be bound. -/
  | failed
  deriving DecidableEq, Repr, Inhabited

/-- The name of a state. -/
def ResolutionState.name : ResolutionState → String
  | .unresolved => "unresolved"
  | .resolved => "resolved"
  | .deferred => "deferred"
  | .failed => "failed"

/-- A round of the applicability test. -/
inductive Phase where
  /-- No round. -/
  | none
  /-- Exact arity, and widening only. -/
  | strict
  /-- Exact arity, with boxing and unboxing. -/
  | loose
  /-- Trailing arguments may fill an array. -/
  | variadic
  deriving DecidableEq, Repr, Inhabited

namespace Phase

/-- The name of a phase. -/
def name : Phase → String
  | .none => "none"
  | .strict => "strict"
  | .loose => "loose"
  | .variadic => "varargs"

/-- The phase with a number. -/
def ofNumber? : Nat → Option Phase
  | 0 => some .none
  | 1 => some .strict
  | 2 => some .loose
  | 3 => some .variadic
  | _ => Option.none

/-- The name of the phase with a number. -/
def nameOf (n : Nat) : String :=
  (ofNumber? n).elim "phase?" name

end Phase

/-- A call that takes the place of another one. -/
structure LoweredCall where
  /-- What is called instead. -/
  callable : MethodId
  /-- With which arguments. -/
  args : List Expr
  deriving DecidableEq, Repr, Inhabited

/-- What became of a call site. -/
structure Resolution where
  /-- How far it got. -/
  state : ResolutionState := .unresolved
  /-- The callable it is bound to. -/
  callable : MethodId := .none
  /-- The static type of the call. -/
  type : TypeId := .none
  /-- The phase in which the callable applied. -/
  phase : Phase := .none
  /-- Whether trailing arguments are packed into an array. -/
  wrapped : Bool := false
  /-- The call that takes its place. -/
  lowered : Option LoweredCall := none
  /-- The anonymous class made for a creation. -/
  anonymous : TypeId := .none
  /-- The superclass constructor call inside the constructor of the anonymous class. -/
  superInvocation : Option LoweredCall := none
  /-- The arguments for the captures of a local class. -/
  localArgs : List Expr := []
  /-- The exceptions that the call can raise. -/
  throws : List TypeId := []
  deriving DecidableEq, Repr, Inhabited

/-- A site that could not be bound. -/
def Resolution.ofFailure : Resolution :=
  { state := .failed, type := .bad }

/-- Whether a site ended with the bad type. -/
def Resolution.isBad (r : Resolution) (s : TypeStore) : Bool :=
  r.state = .failed || s.isBad r.type

/-- A call site. -/
structure Site where
  /-- The number. -/
  id : SiteId
  /-- The name in the document, blank for none. -/
  label : String
  /-- What is called. -/
  call : Call
  /-- The explicit type arguments. -/
  typeArgs : List TypeId := []
  /-- The arguments. -/
  args : List Expr := []
  /-- Where it stands. -/
  span : Span := .none
  /-- What became of it. -/
  result : Resolution := {}
  deriving DecidableEq, Repr, Inhabited

namespace Site

/-- The name of the called method, or that of constructors. -/
def name (s : Site) : String :=
  match s.call with
  | .method n _ => n
  | _ => constructorName

/-- The called method in messages. -/
def calledName (s : Site) : String :=
  match s.call with
  | .method n _ => n
  | _ => "constructor"

/-- The name of the site in messages. -/
def shownLabel (s : Site) : String :=
  if s.label = "" then toString s.id else s.label

end Site

/-- One step of a program. -/
inductive Step where
  /-- A call. -/
  | call (site : SiteId) (env : Env)
  /-- The body of a local class is finished. -/
  | complete (cls : TypeId) (span : Span)
  deriving DecidableEq, Repr, Inhabited

/-- An import of one static member, or of all when the name is blank. -/
structure StaticImport where
  /-- The class. -/
  type : TypeId
  /-- The member. -/
  name : String := ""
  deriving DecidableEq, Repr, Inhabited

/-- The calls and imports of a document. -/
structure Program where
  /-- The path of the document. -/
  path : String
  /-- The call sites; the first one has the number 1. -/
  sites : Array Site := #[]
  /-- The steps in order. -/
  steps : List Step := []
  /-- The imports of single static members. -/
  singleImports : List StaticImport := []
  /-- The imports of all static members of a class. -/
  classImports : List StaticImport := []
  deriving Repr, Inhabited

namespace Program

/-- The site with a number. -/
def site? (p : Program) (id : SiteId) : Option Site :=
  if id = 0 then none else p.sites[id - 1]?

/-- The site with a label. -/
def labelled? (p : Program) (label : String) : Option Site :=
  p.sites.find? fun s => label ≠ "" && s.label = label

/-- Adds a site and the step that looks at it. -/
def addSite (p : Program) (env : Env) (make : SiteId → Site) : Program :=
  let id := p.sites.size + 1
  { p with sites := p.sites.push (make id), steps := p.steps ++ [.call id env] }

/-- Adds the completion of a local class. -/
def addComplete (p : Program) (cls : TypeId) (span : Span) : Program :=
  { p with steps := p.steps ++ [.complete cls span] }

/-- Records what became of a site. -/
def setResult (p : Program) (id : SiteId) (r : Resolution) : Program :=
  { p with sites := p.sites.modify (id - 1) ({ · with result := r }) }

end Program

end CallResolution
