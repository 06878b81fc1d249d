import RunParams.Registry
import RunParams.Tree

/-!
# Contexts

A context joins a registry of parameters with a tree of run-time values. The value of a parameter is the one in the tree or else
the current default; both are texts, read as a value of the parameter's type.
-/

namespace RunParams

/-- What names a parameter: its registered name, or a declaration. -/
inductive Reference
  | named (name : String)
  | declared (declaration : Declaration)

/-- The name that a reference refers to. -/
def Reference.name : Reference → String
  | .named name => name
  | .declared d => d.parameterName

/-- Why an operation on a context fails. -/
inductive Failure
  | registry (error : RegistryError)
  | read (error : ReadError)
  | tree (error : TreeError)
  /-- A value to keep has no text. -/
  | noText (error : Fault)
  /-- Something other than a declaration was to be registered. -/
  | notDeclaration (text : String)
  /-- A report was asked for a name that is not registered. -/
  | missing (name : String)
  deriving DecidableEq

/-- The wording of a failure. -/
def Failure.message (score : Suggestion.Scorer) : Failure → String
  | .registry e => e.message score
  | .read e => e.message
  | .tree e => e.message
  | .noText e => e.message
  | .notDeclaration text => s!"Expected a Parameter subclass, got {Text.literal text}"
  | .missing name => Text.literal name

/-- The failure that an error of an assignment is. -/
def Failure.ofAssign : AssignError → Failure
  | .tree e => .tree e
  | .noText e => .noText e

/-- A registry, whose finalizers are the names to read back, and the run-time values. -/
structure Context where
  registry : Registry String
  tree : Tree

/-- All known keys: the registered ones with a run-time value, the registered ones without, and the others. -/
structure Partition where
  runtime : List String
  compileTime : List String
  unknown : List String
  deriving DecidableEq, Repr

/-- A run-time value beside the default that it replaces. -/
structure Setting where
  value : String
  default : String
  deriving DecidableEq, Repr

/-- The keys of a partition with their texts. -/
structure Snapshot where
  runtime : List (String × Setting)
  compileTime : List (String × String)
  unused : List (String × String)
  deriving DecidableEq, Repr

namespace Context

/-- The context in which nothing is registered and nothing set. -/
def empty : Context := ⟨.empty, .empty⟩

/-! ### Values -/

/-- The record of a reference. A checked access needs a closed registry and a registered name; otherwise the record of an
unregistered declaration is its own. -/
def info (ctx : Context) (ref : Reference) (checked : Bool) (verb : String) : Except Failure Record :=
  if checked then do
    (ctx.registry.requireClosed s!"Parameters can only be {verb} after _all_ of them have been registered.").mapError
      .registry
    (ctx.registry.lookup "Accessing" ref.name).mapError .registry
  else
    match ctx.registry.find? ref.name, ref with
    | some r, _ => .ok r
    | none, .named name => (ctx.registry.lookup "Accessing" name).mapError .registry
    | none, .declared d => (Record.ofDeclaration d "").mapError .noText

/-- The value that a record has in a tree. The default must be readable even where the tree holds a text. -/
def valueOf (tree : Tree) (r : Record) : Except ReadError Value := do
  let default ← r.defaultValue
  match tree.get? r.name with
  | none => return default
  | some text => r.parse text ""

/-- The value of a parameter. -/
def get (ctx : Context) (ref : Reference) (checked : Bool) : Except Failure Value := do
  let r ← ctx.info ref checked "retrieved"
  (valueOf ctx.tree r).mapError .read

/-- Whether a parameter has a run-time value. -/
def isSet (ctx : Context) (ref : Reference) (checked : Bool) : Except Failure Bool := do
  let r ← ctx.info ref checked "checked"
  return ctx.tree.hasKey r.name

/-- The text to keep as the new default of a parameter, which must be readable. -/
def newDefault (ctx : Context) (ref : Reference) (value : Value) : Except Failure String := do
  let r ← (ctx.registry.lookup "Setting the default of" ref.name).mapError .registry
  let text ← value.toText.mapError .noText
  let _ ← (r.parse text "").mapError .read
  return text

/-- Replaces the default of a registered parameter. -/
def setDefault (ctx : Context) (ref : Reference) (value : Value) : Context × Option Failure :=
  match ctx.newDefault ref value with
  | .error e => (ctx, some e)
  | .ok text => ({ ctx with registry := ctx.registry.modify ref.name fun r => { r with default := text } }, none)

/-! ### Registration -/

/-- The record to register for a reference, which must be a declaration. -/
def recordOf (ref : Reference) (usage : String) : Except Failure Record :=
  match ref with
  | .named name => .error (.notDeclaration name)
  | .declared d => (Record.ofDeclaration d usage).mapError .noText

/-- Registers a declared parameter, to be read back when registration ends. -/
def register (ctx : Context) (ref : Reference) (usage : String) : Context × Option Failure :=
  match recordOf ref usage with
  | .error e => (ctx, some e)
  | .ok r =>
    match ctx.registry.register r (some r.name) with
    | (reg, .ok _) => ({ ctx with registry := reg }, none)
    | (reg, .error e) => ({ ctx with registry := reg }, some (.registry e))

/-- Leaves a parameter out of the usage message. -/
def hide (ctx : Context) (ref : Reference) : Context × Option Failure :=
  let (reg, error) := ctx.registry.hide ref.name
  ({ ctx with registry := reg }, error.map .registry)

/-- The finalizer of a name: it reads the parameter back. -/
def readBack (tree : Tree) (name : String) (reg : Registry String) : Task String Failure :=
  match (Context.mk reg tree).get (.named name) true with
  | .ok _ => .done
  | .error e => .fail e

/-- Closes the registry and reads every parameter back, up to the first that cannot be read. -/
def endRegistration (ctx : Context) : Context × Option Failure :=
  match ctx.registry.close (readBack ctx.tree) with
  | .error e => (ctx, some (.registry e))
  | .ok closing => ({ ctx with registry := closing.registry }, closing.error)

/-- Writes a run-time value. -/
def set (ctx : Context) (path value : String) : Context × Option Failure :=
  let (tree, error) := ctx.tree.set path value
  ({ ctx with tree }, error.map .tree)

/-- Writes the text of any value as a run-time value. -/
def assign (ctx : Context) (path : String) (value : Value) : Context × Option Failure :=
  let (tree, error) := ctx.tree.assign path value.display
  ({ ctx with tree }, error.map .ofAssign)

/-! ### Reports -/

/-- The text that a registered parameter resolves to. -/
def effectiveText (ctx : Context) (name : String) : Except Failure String :=
  match ctx.registry.find? name with
  | none => .error (.missing name)
  | some r => .ok ((ctx.tree.get? name).getD r.default)

/-- All known keys, the run-time ones in tree order and the others in ascending order. -/
def partition (ctx : Context) : Partition :=
  { runtime := ctx.tree.keys.filter ctx.registry.contains
    compileTime := ctx.registry.sortedNames.filter (!ctx.tree.hasKey ·)
    unknown := ctx.tree.keys.filter (!ctx.registry.contains ·) }

/-- A key with its run-time value. -/
def withValue (ctx : Context) (key : String) : String × String :=
  (key, (ctx.tree.get? key).getD "")

/-- The run-time values of registered parameters, and the others. -/
def lists (ctx : Context) : Except Failure (List (String × String) × List (String × String)) := do
  (ctx.registry.requireClosed
    "Parameter lists can only be retrieved after _all_ of them have been registered.").mapError .registry
  let p := ctx.partition
  return (p.runtime.map ctx.withValue, p.unknown.map ctx.withValue)

/-- The default of a name; empty if it is not registered. -/
def defaultText (ctx : Context) (name : String) : String :=
  ((ctx.registry.find? name).map (·.default)).getD ""

/-- All known keys with their texts. -/
def snapshot (ctx : Context) : Snapshot :=
  let p := ctx.partition
  { runtime := p.runtime.map fun key => (key, ⟨(ctx.withValue key).2, ctx.defaultText key⟩)
    compileTime := p.compileTime.map fun key => (key, (ctx.tree.get? key).getD (ctx.defaultText key))
    unused := p.unknown.map ctx.withValue }

end Context

end RunParams
