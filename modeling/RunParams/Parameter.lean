import RunParams.Value

/-!
# Parameters

A parameter is declared with a name, a default and perhaps a type, some of which it may take over from declarations that it
extends. The record of a parameter is what the registry keeps of it.
-/

namespace RunParams

/-- The default and the type that one declaration states. A type may be stated to be none, and is then that of the default. -/
structure Traits where
  value : Option Value
  type : Option (Option ValueType)

/-- A declaration: its own name, the name to register if another one is given, what it states, and what the declarations state
that it extends, the nearest first. -/
structure Declaration where
  name : String
  label : Option String
  own : Traits
  bases : List Traits

namespace Declaration

/-- The name under which a declaration is registered. An empty label counts as none. -/
def parameterName (d : Declaration) : String :=
  match d.label with
  | some label => if label.isEmpty then d.name else label
  | none => d.name

/-- The default: the nearest one stated. -/
def value (d : Declaration) : Value :=
  ((d.own :: d.bases).findSome? (·.value)).getD .nothing

/-- The type: the nearest one stated, or else that of the default. -/
def type (d : Declaration) : Option ValueType :=
  match (d.own :: d.bases).findSome? (·.type) with
  | some (some t) => some t
  | _ => d.value.type?

end Declaration

/-- What is known of a parameter: its name, its type, what it is for, the text of its current default, and whether the usage
message leaves it out. -/
structure Record where
  name : String
  type : Option ValueType
  usage : String
  default : String
  hidden : Bool

/-! ### Comparing records

A class holds functions, so that two types cannot be compared in general. But any type can be compared with one of the language, and
any record with one that has such a type. -/

instance ValueType.decEqBasic (t : ValueType) (b : BasicType) : Decidable (t = .basic b) :=
  match t with
  | .basic a => decidable_of_iff (a = b) (by simp)
  | .declared _ => .isFalse nofun

instance Record.decEqBasic (r : Record) (name usage default : String) (b : BasicType) (hidden : Bool) :
    Decidable (r = ⟨name, some (.basic b), usage, default, hidden⟩) :=
  match r with
  | ⟨_, none, _, _, _⟩ => .isFalse (by simp)
  | ⟨n, some t, u, d, h⟩ =>
    decidable_of_iff (n = name ∧ t = .basic b ∧ u = usage ∧ d = default ∧ h = hidden) (by simp)

section

variable (r : Record) [∀ s, Decidable (s = r)]

instance Record.decMem (records : List Record) : Decidable (r ∈ records) :=
  decidable_of_iff (∃ s ∈ records, s = r) (by simp)

instance Record.decEqSome (found : Option Record) : Decidable (found = some r) :=
  match found with
  | none => .isFalse nofun
  | some s => decidable_of_iff (s = r) (by simp)

instance Record.decEqCons (records more : List Record) [∀ others, Decidable (others = more)] : Decidable (records = r :: more) :=
  match records with
  | [] => .isFalse nofun
  | s :: others => decidable_of_iff (s = r ∧ others = more) (by simp)

end

namespace Record

/-- The record of a declaration. -/
def ofDeclaration (d : Declaration) (usage : String) : Except Fault Record := do
  return ⟨d.parameterName, d.type, usage, ← d.value.toText, false⟩

/-- The name of the type; empty without one. -/
def typeName (r : Record) : String :=
  (r.type.map (·.name)).getD ""

/-- The kind of the type; a parameter without one is a flag. -/
def kind (r : Record) : Kind :=
  (r.type.map (·.kind)).getD .flag

/-- Whether two records describe the same registration. Their defaults may differ, and what is hidden. -/
def same (a b : Record) : Bool :=
  a.name == b.name && a.typeName == b.typeName && a.usage == b.usage

/-- Reads a text as a value of the parameter; `key` is the name to give in errors, if not the parameter's own. -/
def parse (r : Record) (text : String) (key : String) : Except ReadError Value :=
  coerce r.type text (if key.isEmpty then r.name else key)

/-- The current default as a value. -/
def defaultValue (r : Record) : Except ReadError Value :=
  r.parse r.default ""

/-- The current default as it is shown. -/
def shownDefault (r : Record) : String :=
  match r.kind with
  | .boolean => if r.default == "0" then "false" else "true"
  | .string => s!"\"{r.default}\""
  | _ => r.default

end Record

end RunParams
