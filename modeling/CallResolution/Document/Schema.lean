import CallResolution.Yaml.Decode

/-!
# Documents

What a document says: options, class declarations, static imports and the program. Everything
is still text here, with the place at which it stands.
-/

namespace CallResolution

open Yaml

/-- Where something stands in a document; lines and columns count from 1. -/
structure Place where
  /-- The line. -/
  line : Nat := 0
  /-- The column. -/
  col : Nat := 0
  deriving DecidableEq, Repr, Inhabited

/-- The place of a node. -/
def Place.ofNode (n : Node) : Place :=
  ⟨n.mark.line + 1, n.mark.col + 1⟩

/-- The options of a document. -/
structure OptionsDecl where
  /-- The language level. -/
  source : Option String := none
  /-- Whether the use of deprecated callables is reported. -/
  deprecation : Option Bool := none
  /-- Whether confusing calls are reported. -/
  pedantic : Option Bool := none
  /-- The place. -/
  place : Place := {}
  deriving DecidableEq, Repr, Inhabited

/-- A field declaration. -/
structure FieldDecl where
  /-- The name. -/
  name : String := ""
  /-- The type. -/
  type : String := ""
  /-- The access. -/
  access : String := ""
  /-- Whether it is static. -/
  isStatic : Bool := false
  /-- Whether it is final. -/
  isFinal : Bool := false
  /-- The place. -/
  place : Place := {}
  deriving DecidableEq, Repr, Inhabited

/-- The declaration of a method or constructor. -/
structure MethodDecl where
  /-- The name. -/
  name : String := ""
  /-- The parameter types. -/
  params : List String := []
  /-- The result type. -/
  returns : String := ""
  /-- The type parameters. -/
  typeParams : List String := []
  /-- The access. -/
  access : String := ""
  /-- The marks. -/
  flags : List String := []
  /-- The exceptions. -/
  throws : List String := []
  /-- The place. -/
  place : Place := {}
  deriving DecidableEq, Repr, Inhabited

/-- A class declaration without its member classes. -/
structure ClassBody where
  /-- The name. -/
  name : String := ""
  /-- Class, interface or enumeration. -/
  kind : String := ""
  /-- The access. -/
  access : String := ""
  /-- The marks. -/
  flags : List String := []
  /-- The type parameters. -/
  typeParams : List String := []
  /-- The superclass. -/
  super : String := ""
  /-- The interfaces. -/
  interfaces : List String := []
  /-- The captured local variables. -/
  captures : List String := []
  /-- The fields. -/
  fields : List FieldDecl := []
  /-- The methods. -/
  methods : List MethodDecl := []
  /-- The constructors. -/
  constructors : List MethodDecl := []
  /-- The place. -/
  place : Place := {}
  deriving DecidableEq, Repr, Inhabited

/-- A class declaration. -/
inductive ClassDecl where
  /-- A class with its member classes. -/
  | mk (body : ClassBody) (classes : List ClassDecl)
  deriving Repr, Inhabited

/-- The class itself. -/
def ClassDecl.body : ClassDecl → ClassBody
  | .mk b _ => b

/-- Changes the class itself. -/
def ClassDecl.mapBody (f : ClassBody → ClassBody) : ClassDecl → ClassDecl
  | .mk b cs => .mk (f b) cs

/-- The static imports. -/
structure ImportDecls where
  /-- The imports of single members. -/
  single : List String := []
  /-- The imports of all members of a class. -/
  onDemand : List String := []
  /-- The place. -/
  place : Place := {}
  deriving DecidableEq, Repr, Inhabited

/-- An argument, receiver or enclosing instance. -/
structure ExprDecl where
  /-- The type of any expression. -/
  type : String := ""
  /-- Whether it is a constant. -/
  isConst : Bool := false
  /-- Whether it is the null literal. -/
  isNull : Bool := false
  /-- The type of a class literal. -/
  classLiteral : String := ""
  /-- The class of a creation. -/
  new : String := ""
  /-- The name of another call site. -/
  call : String := ""
  /-- The type of a type name. -/
  typeName : String := ""
  /-- The name of a local variable. -/
  localName : String := ""
  /-- Whether it is the current instance. -/
  isThis : Bool := false
  /-- Whether it is the current instance as one of its superclass. -/
  isSuper : Bool := false
  /-- The place. -/
  place : Place := {}
  deriving DecidableEq, Repr, Inhabited

/-- The body of an anonymous class. -/
structure BodyDecl where
  /-- The local variables it uses. -/
  captures : List String := []
  /-- The place. -/
  place : Place := {}
  deriving DecidableEq, Repr, Inhabited

/-- The local variables around a call, in a class around it. -/
structure FrameLocals where
  /-- The class. -/
  frame : String
  /-- The declarations. -/
  decls : List String
  /-- The place. -/
  place : Place
  deriving DecidableEq, Repr, Inhabited

/-- The local variables around a call. -/
inductive LocalDecls where
  /-- Those of the innermost class. -/
  | innermost (decls : List String)
  /-- Those of several classes. -/
  | byFrame (frames : List FrameLocals)
  deriving DecidableEq, Repr

instance : Inhabited LocalDecls := ⟨.innermost []⟩

/-- A step of the program: a call, or the completion of a local class. -/
structure StepDecl where
  /-- The name of the call site. -/
  id : String := ""
  /-- The innermost class. -/
  cls : String := ""
  /-- Whether the code is static. -/
  isStatic : Bool := false
  /-- Whether the code is an argument of an explicit constructor call. -/
  inExplicitCtor : Bool := false
  /-- Whether the code is deprecated. -/
  isDeprecated : Bool := false
  /-- The exceptions that are caught or declared. -/
  handled : List String := []
  /-- The local variables. -/
  locals : LocalDecls := .innermost []
  /-- The called method. -/
  call : String := ""
  /-- The created class. -/
  new : String := ""
  /-- Whether another constructor of the class is called. -/
  isThis : Bool := false
  /-- Whether a constructor of the superclass is called. -/
  isSuper : Bool := false
  /-- The enclosing instance. -/
  outer : Option ExprDecl := none
  /-- The receiver. -/
  receiver : Option ExprDecl := none
  /-- The explicit type arguments. -/
  typeArgs : List String := []
  /-- The arguments. -/
  args : List ExprDecl := []
  /-- The body of an anonymous class. -/
  body : Option BodyDecl := none
  /-- The local class that is complete. -/
  complete : String := ""
  /-- The place. -/
  place : Place := {}
  deriving DecidableEq, Repr, Inhabited

/-- A document. -/
structure Document where
  /-- The options. -/
  options : Option OptionsDecl := none
  /-- The classes. -/
  classes : List ClassDecl := []
  /-- The static imports. -/
  imports : ImportDecls := {}
  /-- The program. -/
  program : List StepDecl := []
  deriving Repr, Inhabited

/-- Why a text is no document. -/
inductive DocumentFault where
  /-- It is no tree of texts, lists and mappings. -/
  | malformed (f : Fault)
  /-- Some nodes are not of the kind that stands at their place. -/
  | misfits (ms : List Misfit)
  /-- The local variables at a line are neither a list nor a mapping. -/
  | locals (line : Nat)
  deriving Repr, Inhabited

/-- What is said of local variables that are neither a list nor a mapping. -/
def localsMessage (line : Nat) : String :=
  s!"line {line}: locals must be a list or a mapping"

/-- What a fault says. -/
def DocumentFault.message : DocumentFault → String
  | .malformed f => "yaml: " ++ f.message
  | .misfits ms => "yaml: unmarshal errors:\n  " ++ "\n  ".intercalate (ms.map (·.message))
  | .locals line => localsMessage line

namespace Document

open Decode

/-- A step of reading a document, which is broken off at a line with faulty local variables.
-/
abbrev ReadM := DecodeM Nat

/-- Reads the options. -/
def readOptions (n : Node) : ReadM OptionsDecl := do
  let o ← record "fixture.plain" false (fun key v (o : OptionsDecl) =>
    match key with
    | "source" => return { o with source := ← optional text v }
    | "deprecation" => return { o with deprecation := ← optional truth v }
    | "pedantic" => return { o with pedantic := ← optional truth v }
    | _ => return o) {} n
  return { o with place := .ofNode n }

/-- Reads a field declaration. -/
def readField (n : Node) : ReadM FieldDecl := do
  let f ← record "fixture.plain" false (fun key v (f : FieldDecl) =>
    match key with
    | "name" => return { f with name := ← text v }
    | "type" => return { f with type := ← text v }
    | "access" => return { f with access := ← text v }
    | "static" => return { f with isStatic := ← truth v }
    | "final" => return { f with isFinal := ← truth v }
    | _ => return f) {} n
  return { f with place := .ofNode n }

/-- Reads the declaration of a method or constructor. -/
def readMethod (n : Node) : ReadM MethodDecl := do
  let m ← record "fixture.plain" false (fun key v (m : MethodDecl) =>
    match key with
    | "name" => return { m with name := ← text v }
    | "params" => return { m with params := ← texts v }
    | "returns" => return { m with returns := ← text v }
    | "type_params" => return { m with typeParams := ← texts v }
    | "access" => return { m with access := ← text v }
    | "flags" => return { m with flags := ← texts v }
    | "throws" => return { m with throws := ← texts v }
    | _ => return m) {} n
  return { m with place := .ofNode n }

/-- Reads one entry of a class declaration, with `readClasses` for its member classes. -/
def readClassEntry (readClasses : Node → ReadM (List ClassDecl)) (key : String) (v : Node) :
    ClassDecl → ReadM ClassDecl
  | .mk b cs =>
    match key with
    | "name" => return .mk { b with name := ← text v } cs
    | "kind" => return .mk { b with kind := ← text v } cs
    | "access" => return .mk { b with access := ← text v } cs
    | "flags" => return .mk { b with flags := ← texts v } cs
    | "type_params" => return .mk { b with typeParams := ← texts v } cs
    | "super" => return .mk { b with super := ← text v } cs
    | "interfaces" => return .mk { b with interfaces := ← texts v } cs
    | "captures" => return .mk { b with captures := ← texts v } cs
    | "fields" => return .mk { b with fields := ← list "[]fixture.fieldDoc" readField v } cs
    | "methods" => return .mk { b with methods := ← list "[]fixture.methodDoc" readMethod v } cs
    | "constructors" => return .mk { b with constructors := ← list "[]fixture.methodDoc" readMethod v } cs
    | "classes" => return .mk b (← readClasses v)
    | _ => return .mk b cs

/-- Reads a class declaration, with member classes down to a depth. -/
def readClass : Nat → Node → ReadM ClassDecl
  | 0, n => return .mk { place := .ofNode n } []
  | depth + 1, n => do
    let c ← record "fixture.plain" false
      (readClassEntry (list "[]fixture.classDoc" (readClass depth))) (.mk {} []) n
    return c.mapBody ({ · with place := .ofNode n })

/-- Reads the static imports. -/
def readImports (n : Node) : ReadM ImportDecls := do
  if ← isNothing n then return {}
  let i ← record "fixture.plain" false (fun key v (i : ImportDecls) =>
    match key with
    | "single_static" => return { i with single := ← texts v }
    | "on_demand_static" => return { i with onDemand := ← texts v }
    | _ => return i) {} n
  return { i with place := .ofNode n }

/-- Reads an argument, receiver or enclosing instance. The bare word for nothing is a key
here. -/
def readExpr (n : Node) : ReadM ExprDecl := do
  let e ← record "fixture.plain" true (fun key v (e : ExprDecl) =>
    match key with
    | "type" => return { e with type := ← text v }
    | "const" => return { e with isConst := ← truth v }
    | "null" => return { e with isNull := ← truth v }
    | "class_literal" => return { e with classLiteral := ← text v }
    | "new" => return { e with new := ← text v }
    | "call" => return { e with call := ← text v }
    | "type_name" => return { e with typeName := ← text v }
    | "local" => return { e with localName := ← text v }
    | "this" => return { e with isThis := ← truth v }
    | "super" => return { e with isSuper := ← truth v }
    | _ => return e) {} n
  return { e with place := .ofNode n }

/-- Reads the body of an anonymous class. -/
def readBody (n : Node) : ReadM BodyDecl := do
  let b ← record "fixture.plain" false (fun key v (b : BodyDecl) =>
    match key with
    | "captures" => return { b with captures := ← texts v }
    | _ => return b) {} n
  return { b with place := .ofNode n }

/-- Reads the local variables of several classes, up to the first class of which they do not
fit. -/
def readFrames : List (Node × Node) → ReadM (List FrameLocals)
  | [] => return []
  | (k, v) :: rest => do
    let noted := (← get).length
    let decls ← texts (← resolved v)
    if noted < (← get).length then return []
    return ⟨k.text, decls, .ofNode k⟩ :: (← readFrames rest)

/-- Reads the local variables around a call. -/
def readLocals (n : Node) : ReadM LocalDecls := do
  match n with
  | .seq _ _ _ => return .innermost (← texts n)
  | .map _ _ entries => return .byFrame (← readFrames entries)
  | n => if ← isNothing n then return .innermost [] else throw (.refused (n.mark.line + 1))

/-- Reads one entry of a step. -/
def readStepEntry (key : String) (v : Node) (s : StepDecl) : ReadM StepDecl :=
  match key with
  | "id" => return { s with id := ← text v }
  | "in" => return { s with cls := ← text v }
  | "static" => return { s with isStatic := ← truth v }
  | "explicit_ctor" => return { s with inExplicitCtor := ← truth v }
  | "deprecated_context" => return { s with isDeprecated := ← truth v }
  | "handled" => return { s with handled := ← texts v }
  | "locals" => return { s with locals := ← readLocals v }
  | "call" => return { s with call := ← text v }
  | "new" => return { s with new := ← text v }
  | "this" => return { s with isThis := ← truth v }
  | "super" => return { s with isSuper := ← truth v }
  | "outer" => return { s with outer := ← optional readExpr v }
  | "receiver" => return { s with receiver := ← optional readExpr v }
  | "type_args" => return { s with typeArgs := ← texts v }
  | "args" => return { s with args := ← list "[]fixture.exprDoc" readExpr v }
  | "body" => return { s with body := ← optional readBody v }
  | "complete" => return { s with complete := ← text v }
  | _ => return s

/-- Reads a step of the program. -/
def readStep (n : Node) : ReadM StepDecl := do
  let s ← record "fixture.plain" false readStepEntry {} n
  return { s with place := .ofNode n }

/-- Reads a document, with member classes down to a depth. -/
def read (depth : Nat) (n : Node) : ReadM Document :=
  record "fixture.document" false (fun key v (d : Document) =>
    match key with
    | "options" => return { d with options := ← optional readOptions v }
    | "classes" => return { d with classes := ← list "[]fixture.classDoc" (readClass depth) v }
    | "imports" => return { d with imports := ← readImports v }
    | "program" => return { d with program := ← list "[]fixture.stepDoc" readStep v }
    | _ => return d) {} n

/-- Reads the document that a text holds. A text that says nothing is an empty document.
Member classes cannot be nested deeper than the text is long. -/
def ofText (src : String) : Except DocumentFault Document :=
  match document? src with
  | .error f => .error (.malformed f)
  | .ok none => .ok {}
  | .ok (some n) =>
    match (read src.length n).run [] with
    | .error (.malformed f) => .error (.malformed f)
    | .error (.refused line) => .error (.locals line)
    | .ok (d, []) => .ok d
    | .ok (_, ms) => .error (.misfits ms)

end Document

end CallResolution
