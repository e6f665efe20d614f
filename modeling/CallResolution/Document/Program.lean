import CallResolution.Call.Basic
import CallResolution.Document.Classes
import CallResolution.Resolve.Session

/-!
# Programs of documents

The static imports and the steps of a document become a program. A step with a problem is
reported and left out; an expression with a problem is reported and gets the bad type.
-/

namespace CallResolution.Loader

open Source Text

/-! ## Imports -/

/-- Adds the import of a single static member. -/
def importSingle (p : Place) (prog : Program) (src : String) : LoadM Program := do
  match (splitLast? '.' src).filter fun s => s.1 ≠ "" && s.2 ≠ "" with
  | none =>
    fault .badStep p src s!"single static import {quote src} must name Type.member"
    return prog
  | some (cls, name) =>
    match ← classOf? cls {} p with
    | some type => return { prog with singleImports := prog.singleImports ++ [{ type, name }] }
    | none => return prog

/-- Adds the import of all static members of a class. -/
def importAll (p : Place) (prog : Program) (src : String) : LoadM Program := do
  let cls := if src.endsWith ".*" then (src.dropEnd 2).toString else src
  match ← classOf? cls {} p with
  | some type => return { prog with classImports := prog.classImports ++ [{ type }] }
  | none => return prog

/-- Adds the static imports. -/
def imports (d : ImportDecls) (prog : Program) : LoadM Program := do
  let prog ← d.single.foldlM (importSingle d.place) prog
  d.onDemand.foldlM (importAll d.place) prog

/-! ## Surroundings of calls -/

/-- Reads declarations of local variables. -/
def localsOf (sc : Scope) (p : Place) : List String → LoadM (List Local)
  | [] => return []
  | src :: rest => do
    match ← localOf src sc p with
    | some (name, type) => return ⟨name, type⟩ :: (← localsOf sc p rest)
    | none => localsOf sc p rest

/-- Reads the exceptions that are caught or declared, leaving out those with a problem. -/
def handledOf (sc : Scope) (p : Place) : List String → LoadM (List TypeId)
  | [] => return []
  | src :: rest => do
    let t ← typeOf src sc p
    let more ← handledOf sc p rest
    return if (← getTypes).isBad t then more else t :: more

/-- Adds local variables to one of the frames. -/
def addLocals (frames : List Frame) (i : Nat) (ls : List Local) : List Frame :=
  frames.modify i fun f => { f with locals := f.locals ++ ls }

/-- Adds the local variables of several classes to the frames. -/
def frameLocals (st : StepDecl) (sc : Scope) : List Frame → List FrameLocals → LoadM (List Frame)
  | frames, [] => return frames
  | frames, fl :: rest => do
    match ← classOf? fl.frame sc fl.place with
    | none => frameLocals st sc frames rest
    | some t =>
      let cls := (← getTypes).classOf t
      match frames.findIdx? (·.type = cls) with
      | none =>
        fault .badStep fl.place fl.frame s!"{fl.frame} does not enclose {st.cls}"
        frameLocals st sc frames rest
      | some i =>
        let ls ← localsOf { cls } fl.place fl.decls
        frameLocals st sc (addLocals frames i ls) rest

/-- What is called, as problems are reported for it. -/
def shownCall (st : StepDecl) : String :=
  if st.call ≠ "" then st.call
  else if st.new ≠ "" then "new " ++ st.new
  else if st.isThis then "this"
  else if st.isSuper then "super"
  else st.id

/-- The classes around a call: the one that the step names and those around it. -/
def envOf (st : StepDecl) : LoadM (Option Env) := do
  if st.cls = "" then
    fault .badStep st.place (shownCall st) s!"step {quote st.id} needs in: naming its enclosing class"
    return none
  match ← classOf? st.cls {} st.place with
  | none => return none
  | some t =>
    let s ← getTypes
    let inner := s.classOf t
    let sc : Scope := { cls := inner }
    let handled ← handledOf sc st.place st.handled
    let frames := (s.enclosing inner).map fun type => ({ type } : Frame)
    let frames := frames.modify 0 fun f =>
      { f with isStatic := st.isStatic, inExplicitCtor := st.inExplicitCtor, isDeprecated := st.isDeprecated, handled }
    match st.locals with
    | .innermost decls => return some ⟨addLocals frames 0 (← localsOf sc st.place decls)⟩
    | .byFrame fls => return some ⟨← frameLocals st sc frames fls⟩

/-! ## Expressions -/

/-- How many of some conditions hold. -/
def countTrue (bs : List Bool) : Nat :=
  bs.countP (· = true)

/-- How many forms an expression has; it should have one. -/
def exprForms (d : ExprDecl) : Nat :=
  countTrue [d.type ≠ "", d.isNull, d.classLiteral ≠ "", d.new ≠ "", d.call ≠ "", d.typeName ≠ "", d.localName ≠ "",
    d.isThis, d.isSuper]

/-- An expression of the bad type. -/
def badExpr (span : Span) : Expr :=
  { form := .value, type := .bad, span }

/-- The argument of the type of a class literal. -/
def literalArg (s : TypeStore) (t : TypeId) : TypeM TypeArg := do
  if t = .void then
    return (s.classNamed? (langPackage ++ ".Void")).elim ⟨.unbounded, .none⟩ .exact
  else if s.isPrimitive t then return .exact (s.box t)
  else if s.isReference t then return .exact (← TypeStore.erasure t)
  else return ⟨.unbounded, .none⟩

/-- A class literal. -/
def classLiteral (d : ExprDecl) (sc : Scope) : LoadM Expr := do
  let span ← span d.place d.classLiteral
  let t ← typeOf d.classLiteral sc d.place
  let s ← getTypes
  if s.isBad t then return { form := .classLiteral .none, type := t, span }
  let type ← onTypes do TypeStore.apply .class_ [← literalArg s t]
  return { form := .classLiteral t, type, span }

/-- A local variable of the nearest class that has it. -/
def localExpr (env : Env) (d : ExprDecl) (span : Span) : LoadM Expr := do
  let found := env.frames.zipIdx.findSome? fun (f, j) =>
    (f.locals.find? (·.name = d.localName)).map fun l => (l, j)
  match found with
  | some (l, j) => return { form := .localVar l.name (env.via j), type := l.type, span }
  | none =>
    fault .badStep d.place d.localName s!"no local {d.localName} is visible here"
    return { form := .localVar d.localName [], type := .bad, span }

/-- The value of an earlier call site. -/
def callExpr (prog : Program) (d : ExprDecl) (span : Span) : LoadM Expr := do
  match prog.labelled? d.call with
  | some site => return { form := .call site.id, type := .none, span := ← Loader.span d.place d.call }
  | none =>
    fault .unknownSite d.place d.call s!"no earlier step has id {quote d.call}"
    return badExpr span

/-- The current instance as one of its superclass. -/
def superExpr (inner : TypeId) (d : ExprDecl) (span : Span) : LoadM Expr := do
  let s ← getTypes
  match (s.classInfo? inner).filter (·.super.isSome) with
  | some info => return { form := .super, type := info.super, span }
  | none =>
    fault .badStep d.place "" s!"{s.qualifiedName inner} has no superclass"
    return badExpr span

/-- An argument, receiver or enclosing instance. -/
def exprOf (prog : Program) (env : Env) (d : ExprDecl) : LoadM Expr := do
  let one ← span d.place ""
  let sc : Scope := { cls := env.this }
  if exprForms d ≠ 1 then
    fault .badStep d.place ""
      ("expression needs exactly one of type, null, class_literal, new, call, type_name, local, this"
        ++ " or super")
    return badExpr one
  else if d.isNull then return { form := .null, type := .null, span := one }
  else if d.type ≠ "" then
    let type ← typeOf d.type sc d.place
    return { form := if d.isConst then .literal else .value, type, span := ← span d.place d.type }
  else if d.classLiteral ≠ "" then classLiteral d sc
  else if d.new ≠ "" then
    let type ← typeOf d.new sc d.place
    return { form := .creation ((← getTypes).classOf type), type, span := ← span d.place d.new }
  else if d.call ≠ "" then callExpr prog d one
  else if d.typeName ≠ "" then
    match ← classOf? d.typeName sc d.place with
    | some t => return { form := .typeName t, type := t, span := ← span d.place d.typeName }
    | none => return badExpr one
  else if d.localName ≠ "" then localExpr env d one
  else if d.isThis then return { form := .this [env.this], type := env.this, span := one }
  else superExpr env.this d one

/-- Arguments, in order. -/
def exprsOf (prog : Program) (env : Env) : List ExprDecl → LoadM (List Expr)
  | [] => return []
  | d :: ds => do
    let e ← exprOf prog env d
    return e :: (← exprsOf prog env ds)

/-- An enclosing instance or receiver, when there is one. -/
def exprOf? (prog : Program) (env : Env) : Option ExprDecl → LoadM (Option Expr)
  | none => return none
  | some d => return some (← exprOf prog env d)

/-! ## Steps -/

/-- Reads explicit type arguments, which have to be reference types. -/
def typeArgsOf (sc : Scope) (p : Place) : List String → LoadM (List TypeId)
  | [] => return []
  | src :: rest => do
    let t ← typeOf src sc p
    let s ← getTypes
    if s.isBad t || s.isReference t then return t :: (← typeArgsOf sc p rest)
    else
      fault .badTypeExpr p src s!"type argument {src} is not a reference type"
      return .bad :: (← typeArgsOf sc p rest)

/-- What a step calls. -/
def callOf (prog : Program) (env : Env) (st : StepDecl) : LoadM Call := do
  if st.call ≠ "" then return .method st.call (← exprOf? prog env st.receiver)
  else if st.new ≠ "" then
    let cls ← typeOf st.new { cls := env.this } st.place
    let outer ← exprOf? prog env st.outer
    match st.body with
    | none => return .new cls outer none
    | some b => return .new cls outer (some { span := ← span b.place "", captures := b.captures })
  else if st.isThis then return .this
  else return .super (← exprOf? prog env st.outer)

/-- What is wrong with the shape of a call, when something is. -/
def shapeFault? (st : StepDecl) : Option String :=
  if st.receiver.isSome && st.call = "" then some "only method calls take a receiver"
  else if st.outer.isSome && (st.call ≠ "" || st.isThis) then
    some "only new and super take an enclosing instance"
  else if st.body.isSome && st.new = "" then some "only new takes a class body"
  else none

/-- Adds a call whose surroundings are known. -/
def addCall (prog : Program) (env : Env) (st : StepDecl) : LoadM Program := do
  let sc : Scope := { cls := env.this }
  let span ← span st.place (shownCall st)
  let typeArgs ← typeArgsOf sc st.place st.typeArgs
  let args ← exprsOf prog env st.args
  let call ← callOf prog env st
  return prog.addSite env fun id => { id, label := st.id, call, typeArgs, args, span }

/-- Adds a call. -/
def callStep (prog : Program) (st : StepDecl) : LoadM Program := do
  let refuse (msg : String) : LoadM Program := do
    fault .badStep st.place (shownCall st) msg
    return prog
  if countTrue [st.call ≠ "", st.new ≠ "", st.isThis, st.isSuper] ≠ 1 then
    refuse s!"step {quote st.id} needs exactly one of call, new, this, super or complete"
  else if (prog.labelled? st.id).isSome then refuse s!"step id {quote st.id} is used twice"
  else
    match ← envOf st with
    | none => return prog
    | some env =>
      match shapeFault? st with
      | some msg => refuse msg
      | none => addCall prog env st

/-- Adds the completion of a local class. -/
def completeStep (prog : Program) (st : StepDecl) : LoadM Program := do
  match ← classOf? st.complete {} st.place with
  | none => return prog
  | some cls =>
    if ((← getTypes).classInfo? cls).any (·.flags.isLocal) then
      return prog.addComplete cls (← span st.place st.complete)
    else
      fault .badStep st.place st.complete s!"{st.complete} is not a local class"
      return prog

/-- Adds a step. -/
def addStep (prog : Program) (st : StepDecl) : LoadM Program :=
  if st.complete ≠ "" then completeStep prog st else callStep prog st

end CallResolution.Loader

namespace CallResolution

/-- A loaded document. -/
structure Loaded where
  /-- The universe, with what was reported. -/
  world : Universe
  /-- The program. -/
  program : Program
  /-- The options that the document sets. -/
  options : OptionOverrides
  /-- The declared classes, in the order of declaration. -/
  classes : List TypeId
  deriving Repr, Inhabited

namespace Document

open Source

/-- Reads the program of a document whose classes are declared. -/
def programM (d : Document) : LoadM Program := do
  let prog ← Loader.imports d.imports { path := (← get).file.path }
  d.program.foldlM Loader.addStep prog

/-- Loads a document. -/
def loadM (d : Document) : LoadM (Program × OptionOverrides) := do
  let options ← Loader.options d.options
  Loader.buildUniverse d.classes
  let prog ← programM d
  return (prog, options)

/-- Loads the document of a file. -/
def load (d : Document) (f : File) : Loaded :=
  let loaded := loadM d { file := f, world := Universe.initial }
  { world := loaded.2.world, program := loaded.1.1, options := loaded.1.2, classes := loaded.2.classes.map (·.id) }

/-- Reads the document that the content of a file stands for. -/
def ofContent (s : Text.Bytes) : Except DocumentFault Document :=
  ofText (Text.textOf s)

end Document

/-- A session on a loaded document, with the options it does not set taken from others. -/
def Loaded.session (l : Loaded) (base : Options) : Session :=
  { world := l.world, program := l.program, options := l.options.apply base }

end CallResolution
