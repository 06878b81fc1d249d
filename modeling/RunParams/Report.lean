import RunParams.Context

/-!
# Reports

Keys and their values as text, one `key="value"` to a line, and all values of a context in three sections.
-/

namespace RunParams.Report

/-- A key with its value. -/
def pair (key value : String) : String :=
  s!"{key}=\"{value}\""

/-- A line with a key and its value. -/
def pairLine (key value : String) : String :=
  pair key value ++ "\n"

/-- A line with a key, its value, and the default that it replaces. -/
def settingLine (key : String) (setting : Setting) : String :=
  s!"{pair key setting.value} # default: \"{setting.default}\"\n"

/-- The lines of registered keys with their effective values, and with their defaults if `defaults` is set. -/
def listing (ctx : Context) (keys : List String) (defaults : Bool) : Except Failure String := do
  let rows ← keys.mapM fun key => do
    let value ← ctx.effectiveText key
    return if defaults then settingLine key ⟨value, ctx.defaultText key⟩ else pairLine key value
  return String.join rows

/-- The lines of keys with their run-time values. -/
def unusedListing (tree : Tree) (keys : List String) : String :=
  String.join (keys.map fun key => pairLine key ((tree.get? key).getD ""))

/-- Lines for keys below a header; left out if there are no keys. -/
def titled (header : String) (keys : List String) (lines : String) : String :=
  if keys.isEmpty then "" else s!"# [{header}]\n" ++ lines

/-- The run-time values that no parameter uses; empty if there are none. -/
def unused (ctx : Context) : String :=
  let keys := ctx.partition.unknown
  titled "unused run-time specified parameters" keys (unusedListing ctx.tree keys)

/-- All values of a context: those set at run time, those left at their defaults, and the unused ones. -/
def values (ctx : Context) : Except Failure String := do
  let p := ctx.partition
  let runtime ← listing ctx p.runtime true
  let compileTime ← listing ctx p.compileTime false
  return titled "known parameters which were specified at run-time" p.runtime runtime
    ++ titled "parameters which were specified at compile-time" p.compileTime compileTime ++ unused ctx

end RunParams.Report
