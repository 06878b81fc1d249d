/-!
# Suggestions

For a misspelled name, the known names most like it. How alike two names are is for a scorer to say.
-/

namespace RunParams.Suggestion

/-- A score from 0 to 100 for how alike two texts are. -/
abbrev Scorer := String → String → Float

/-- The least score of a name that is suggested. -/
def defaultScore : Float := 60

/-- The most names that are suggested. -/
def defaultCount : Nat := 3

/-- The options whose score is at least `least`, the best first and equal ones in their order, at most `count` of them. -/
def similar (score : Scorer) (least : Float) (count : Nat) (unknown : String) (options : List String) : List String :=
  if unknown.isEmpty then []
  else
    let scored := options.map fun option => (option, score unknown option)
    let kept := scored.filter fun (_, score) => least ≤ score
    ((kept.mergeSort fun x y => decide (y.2 ≤ x.2)).take count).map (·.1)

/-- The suggestions for a name that is not known. -/
def suggest (score : Scorer) (unknown : String) (options : List String) : List String :=
  similar score defaultScore defaultCount unknown options

/-- The question that offers suggestions; empty if there are none. -/
def question : List String → String
  | [] => ""
  | [name] => s!"Did you mean '{name}'?"
  | names =>
    let quoted := ", ".intercalate (names.map fun name => s!"'{name}'")
    s!"Did you mean one of: {quoted}?"

end RunParams.Suggestion
