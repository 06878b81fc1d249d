import RunParams.Context

/-!
# Snapshots as documents

A snapshot is written as a YAML document of nested mappings. Every key and value is a scalar between double quotes that holds
nothing but printable ASCII, so that it is read back as the text that it is.
-/

namespace RunParams.Yaml

/-- A character inside a quoted scalar. -/
def scalarChar (c : Char) : List Char :=
  if c = '"' ∨ c = '\\' then ['\\', c]
  else if ' ' ≤ c ∧ c ≤ '~' then [c]
  else '\\' :: 'U' :: Text.hex 8 c.toNat

/-- A quoted scalar. -/
def scalar (s : String) : String :=
  String.ofList ('"' :: s.toList.flatMap scalarChar ++ ['"'])

/-- The longest key that stands on one line with its value. -/
def simpleKeyLength : Nat := 128

/-- The lines of a key with what follows its colon on the same line. -/
def keyLines (key rest : String) : List String :=
  let name := scalar key
  if name.length ≤ simpleKeyLength then [s!"{name}:{rest}"] else [s!"? {name}", s!":{rest}"]

/-- The lines of a key with a text. -/
def textEntry (key value : String) : List String :=
  keyLines key (" " ++ scalar value)

/-- The lines of a key with a mapping, given the lines of each of its entries. -/
def mappingEntry (key : String) (entries : List (List String)) : List String :=
  if entries.isEmpty then keyLines key " \x7b\x7d"
  else keyLines key "" ++ entries.flatten.map ("  " ++ ·)

/-- The lines of a key with a run-time value and the default that it replaces. -/
def settingEntry (key : String) (v : Setting) : List String :=
  mappingEntry key [textEntry "value" v.value, textEntry "default" v.default]

/-- The document of a snapshot. -/
def ofSnapshot (s : Snapshot) : String :=
  let lines :=
    mappingEntry "runtime" (s.runtime.map fun (key, v) => settingEntry key v)
      ++ mappingEntry "compile_time" (s.compileTime.map fun (key, v) => textEntry key v)
      ++ mappingEntry "unused" (s.unused.map fun (key, v) => textEntry key v)
  String.join (lines.map (· ++ "\n"))

end RunParams.Yaml
