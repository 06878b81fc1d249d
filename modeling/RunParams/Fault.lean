/-!
# Faults

Some of what a program does is up to code outside the library: to the types that it declares for its parameters, and to the
console. Whatever goes wrong there is a fault, of which the class and the wording are known.
-/

namespace RunParams

/-- An error of code outside the library: the name of its class, and its wording. -/
structure Fault where
  className : String
  message : String
  deriving DecidableEq, Repr

end RunParams
