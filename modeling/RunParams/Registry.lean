import RunParams.Parameter
import RunParams.Spelling
import RunParams.Suggestion

/-!
# The registry

The registry keeps the records of parameters. It starts open: parameters may be registered and hidden, each registration with a
finalizer. Closing it runs the pending finalizers once, in order and up to the first that fails; clearing it opens it again.
-/

namespace RunParams

/-- Whether parameters may still be registered. -/
inductive Phase
  | opened
  | closed
  deriving DecidableEq, Repr

/-- The name of a phase. -/
def Phase.name : Phase → String
  | .opened => "open"
  | .closed => "closed"

/-- Why the registry refuses. -/
inductive RegistryError
  /-- The registry is closed; the text says what that forbids. -/
  | closed (text : String)
  /-- The registry is open; the text says what that forbids. -/
  | stillOpen (text : String)
  /-- The name to register is no key. -/
  | notKey (error : NameError)
  /-- The name to register is a key, but spells the canonical name in another way. -/
  | notCanonical (name canonical : String)
  /-- The name is registered with another type or usage. -/
  | conflict (name : String)
  /-- The name is not registered, `action` was what needed it, and these names are. -/
  | unknown (action name : String) (known : List String)
  deriving DecidableEq

/-- The wording for a name that is not registered. -/
def unknownName (action name : String) (suggestions : List String) : String :=
  let refusal := s!"{action} parameter '{name}' without prior registration is not allowed."
  if suggestions.isEmpty then refusal else refusal ++ " " ++ Suggestion.question suggestions

/-- The wording of a registry error. Of an unknown name it suggests known ones that are like it. -/
def RegistryError.message (score : Suggestion.Scorer) : RegistryError → String
  | .closed text => text
  | .stillOpen text => text
  | .notKey e => e.message ""
  | .notCanonical name canonical => s!"Parameter '{name}' is not spelled canonically, use '{canonical}'"
  | .conflict name => s!"Parameter '{name}' registered twice with non-matching characteristics."
  | .unknown action name known => unknownName action name (Suggestion.suggest score name known)

/-- The records in the order of their registration, the finalizers that have not run, and the phase. -/
structure Registry (φ : Type) where
  records : List Record
  pending : List φ
  phase : Phase

/-- What a finalizer does to a registry: it ends well or badly, or attempts a registration and goes on with its result. -/
inductive Task (φ ε : Type)
  | done
  | fail (error : ε)
  | register (record : Record) (finalizer : Option φ) (next : Except RegistryError Bool → Task φ ε)

/-- The outcome of closing: the registry, the finalizers that were run, and the error of the last one if it failed. -/
structure Closing (φ ε : Type) where
  registry : Registry φ
  ran : List φ
  error : Option ε

namespace Registry

variable {φ ε : Type}

/-- The registry in which nothing has been registered. -/
def empty : Registry φ := ⟨[], [], .opened⟩

/-- Whether parameters may still be registered. -/
def isOpen (reg : Registry φ) : Bool :=
  reg.phase == .opened

/-- The record of a name. -/
def find? (reg : Registry φ) (name : String) : Option Record :=
  reg.records.find? (·.name == name)

/-- Whether a name is registered. -/
def contains (reg : Registry φ) (name : String) : Bool :=
  (reg.find? name).isSome

/-- The registered names in the order of their registration. -/
def names (reg : Registry φ) : List String :=
  reg.records.map (·.name)

/-- The registered names in ascending order. -/
def sortedNames (reg : Registry φ) : List String :=
  reg.names.mergeSort fun a b => decide (a ≤ b)

/-- The records in ascending order of their names. -/
def sortedRecords (reg : Registry φ) : List Record :=
  reg.sortedNames.filterMap reg.find?

/-- Refuses with the given text unless the registry is open. -/
def requireOpen (reg : Registry φ) (text : String) : Except RegistryError Unit :=
  if reg.isOpen then .ok () else .error (.closed text)

/-- Refuses with the given text unless the registry is closed. -/
def requireClosed (reg : Registry φ) (text : String) : Except RegistryError Unit :=
  if reg.isOpen then .error (.stillOpen text) else .ok ()

/-- The record of a name; `action` says what it is needed for. -/
def lookup (reg : Registry φ) (action name : String) : Except RegistryError Record :=
  match reg.find? name with
  | some r => .ok r
  | none => .error (.unknown action name reg.names)

/-- Changes the record of a name. -/
def modify (reg : Registry φ) (name : String) (f : Record → Record) : Registry φ :=
  { reg with records := reg.records.map fun r => if r.name = name then f r else r }

/-- Whether a record may be registered, and if so whether it is new. -/
def admits (reg : Registry φ) (r : Record) : Except RegistryError Bool := do
  reg.requireOpen s!"Parameter registration was already closed before the parameter '{r.name}' was registered."
  let canonical ← (Spelling.canonicalize true r.name).mapError .notKey
  if canonical ≠ r.name then throw (.notCanonical r.name canonical)
  match reg.find? r.name with
  | none => return true
  | some known => if known.same r then return false else throw (.conflict r.name)

/-- Registers a record with a finalizer. Registering the same parameter again changes nothing; the answer tells whether it was
new. -/
def register (reg : Registry φ) (r : Record) (finalizer : Option φ) : Registry φ × Except RegistryError Bool :=
  match reg.admits r with
  | .ok true =>
    ({ reg with records := reg.records ++ [r], pending := reg.pending ++ finalizer.toList }, .ok true)
  | answer => (reg, answer)

/-- Leaves a parameter out of the usage message. -/
def hide (reg : Registry φ) (name : String) : Registry φ × Option RegistryError :=
  match
    (do
      reg.requireOpen s!"Parameter '{name}' declared as hidden when parameter registration was already closed."
      reg.lookup "Hiding" name : Except RegistryError Record) with
  | .ok _ => (reg.modify name fun r => { r with hidden := true }, none)
  | .error e => (reg, some e)

/-- Does what a finalizer asks for. -/
def perform (reg : Registry φ) : Task φ ε → Registry φ × Option ε
  | .done => (reg, none)
  | .fail error => (reg, some error)
  | .register r finalizer next =>
    let (reg, answer) := reg.register r finalizer
    reg.perform (next answer)

/-- Runs finalizers in order up to the first that fails. -/
def finish (task : φ → Registry φ → Task φ ε) (reg : Registry φ) : List φ → Closing φ ε
  | [] => ⟨reg, [], none⟩
  | f :: fs =>
    match reg.perform (task f reg) with
    | (reg, some error) => ⟨reg, [f], some error⟩
    | (reg, none) =>
      let rest := finish task reg fs
      { rest with ran := f :: rest.ran }

/-- Closes the registry and runs the pending finalizers, none of which stays pending. -/
def close (reg : Registry φ) (task : φ → Registry φ → Task φ ε) : Except RegistryError (Closing φ ε) := do
  reg.requireOpen "Parameter registration was already closed. It is only possible to close it once."
  return finish task { reg with phase := .closed, pending := [] } reg.pending

end Registry

end RunParams
