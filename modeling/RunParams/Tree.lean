import RunParams.Fault
import RunParams.Spelling
import RunParams.Text.Literal

/-!
# Trees of values

Run-time values are kept as text in a tree: each node has leaves with values and named sub-trees, both in the order of their
first write. A dotted path leads to a leaf through sub-trees; no name is both a leaf and a sub-tree of one node.
-/

namespace RunParams

/-- A tree is its sub-trees in order, and then its leaves in order. -/
inductive Tree
  | leaves (values : List (String × String))
  | branch (name : String) (child rest : Tree)
  deriving DecidableEq, Repr

/-- Why a value cannot be written. -/
inductive TreeError
  /-- A segment on the way to the path holds a value. -/
  | valueInTheWay (segment path : String)
  /-- The path leads to a sub-tree. -/
  | isSubTree (path : String)
  deriving DecidableEq

/-- The wording of a tree error. -/
def TreeError.message : TreeError → String
  | .valueInTheWay segment path => s!"Cannot create sub-tree '{segment}' of '{path}': it already holds a value"
  | .isSubTree path => s!"Cannot assign a value to '{path}': it is a sub-tree"

/-- Why a value is not assigned: its path cannot be written to, or it has no text. -/
inductive AssignError
  | tree (error : TreeError)
  | noText (error : Fault)
  deriving DecidableEq

/-- A path: the names of the sub-trees on the way and of the leaf, at least one name in all. -/
structure Path where
  first : String
  rest : List String
  deriving DecidableEq, Repr

/-- The path that a text spells with dots between the names. -/
def Path.ofString (s : String) : Path :=
  match Spelling.segments s with
  | [] => ⟨"", []⟩
  | name :: names => ⟨name, names⟩

/-- Gives a name a value, at the end if the name is new. -/
def putValue (name value : String) : List (String × String) → List (String × String)
  | [] => [(name, value)]
  | (n, v) :: more => if n = name then (n, value) :: more else (n, v) :: putValue name value more

namespace Tree

/-- The tree without values. -/
def empty : Tree := leaves []

/-- The leaves of the top node. -/
def values : Tree → List (String × String)
  | leaves vs => vs
  | branch _ _ rest => rest.values

/-- The sub-trees of the top node. -/
def subs : Tree → List (String × Tree)
  | leaves _ => []
  | branch name child rest => (name, child) :: rest.subs

/-- The value of a leaf of the top node. -/
def value? (t : Tree) (name : String) : Option String :=
  t.values.lookup name

/-- A sub-tree of the top node. -/
def child? (t : Tree) (name : String) : Option Tree :=
  t.subs.lookup name

/-- Gives a leaf of the top node a value. -/
def setValue (name value : String) : Tree → Tree
  | leaves vs => leaves (putValue name value vs)
  | branch n child rest => branch n child (rest.setValue name value)

/-- Puts a sub-tree in the place of the one with its name, or behind all others. -/
def setChild : (t : Tree) → (name : String) → (child : Tree) → Tree
  | leaves vs, name, child => branch name child (leaves vs)
  | branch n c rest, name, child =>
    if n = name then branch n child rest else branch n c (rest.setChild name child)

/-! ### Reading -/

/-- The value at the end of a path. -/
def getFrom (t : Tree) (name : String) : List String → Option String
  | [] => t.value? name
  | next :: more => (t.child? name).bind fun child => child.getFrom next more

/-- The sub-tree at the end of a path. -/
def subFrom (t : Tree) (name : String) : List String → Option Tree
  | [] => t.child? name
  | next :: more => (t.child? name).bind fun child => child.subFrom next more

/-- The value at a path. -/
def get? (t : Tree) (path : String) : Option String :=
  let p := Path.ofString path
  t.getFrom p.first p.rest

/-- The sub-tree at a path. -/
def sub? (t : Tree) (path : String) : Option Tree :=
  let p := Path.ofString path
  t.subFrom p.first p.rest

/-- Whether a path leads to a value. -/
def hasKey (t : Tree) (path : String) : Bool :=
  (t.get? path).isSome

/-- Whether a path leads to a sub-tree. -/
def hasSub (t : Tree) (path : String) : Bool :=
  (t.sub? path).isSome

/-- The keys below the sub-trees of the top node, each sub-tree's in turn, its own leaves before those below them. -/
def subKeys (lead : String) : Tree → List String
  | leaves _ => []
  | branch name child rest =>
    let below := lead ++ name ++ "."
    (child.values.map (below ++ ·.1)) ++ child.subKeys below ++ rest.subKeys lead

/-- The full path of every leaf: the leaves of a node first, then each of its sub-trees. -/
def flatten (lead : String) (t : Tree) : List String :=
  t.values.map (lead ++ ·.1) ++ t.subKeys lead

/-- The full paths of all leaves. -/
def keys (t : Tree) : List String :=
  t.flatten ""

/-- The number of leaves. -/
def size (t : Tree) : Nat :=
  t.keys.length

/-- Whether a tree has neither leaves nor sub-trees. -/
def isEmpty (t : Tree) : Bool :=
  t.values.isEmpty && t.subs.isEmpty

/-! ### Writing -/

/-- Writes a value at the end of a path; `path` is the whole of it, for errors. Missing sub-trees are made on the way. -/
def setFrom (path value : String) (t : Tree) (name : String) : List String → Tree × Option TreeError
  | [] =>
    if (t.child? name).isSome then (t, some (.isSubTree path)) else (t.setValue name value, none)
  | next :: more =>
    if (t.value? name).isSome then (t, some (.valueInTheWay name path))
    else
      let (child, error) := ((t.child? name).getD empty).setFrom path value next more
      (t.setChild name child, error)

/-- Writes a value at a path: the tree afterwards, and the error if the path leads through a value or to a sub-tree. -/
def set (t : Tree) (path value : String) : Tree × Option TreeError :=
  let p := Path.ofString path
  t.setFrom path value p.first p.rest

/-- Makes the sub-trees on the way to the end of a path that can be written to. -/
def makeWayFrom (path : String) (t : Tree) (name : String) : List String → Tree × Option TreeError
  | [] => (t, if (t.child? name).isSome then some (.isSubTree path) else none)
  | next :: more =>
    if (t.value? name).isSome then (t, some (.valueInTheWay name path))
    else
      let (child, error) := ((t.child? name).getD empty).makeWayFrom path next more
      (t.setChild name child, error)

/-- Makes the sub-trees on the way to a path. -/
def makeWay (t : Tree) (path : String) : Tree × Option TreeError :=
  let p := Path.ofString path
  t.makeWayFrom path p.first p.rest

/-- Assigns the text of a value to a path. The way is made first, and stays if the value turns out to have no text. -/
def assign (t : Tree) (path : String) (shown : Except Fault String) : Tree × Option AssignError :=
  match t.makeWay path with
  | (t, some e) => (t, some (.tree e))
  | (t, none) =>
    match shown with
    | .error e => (t, some (.noText e))
    | .ok text => ((t.set path text).1, none)

/-- Acts on the sub-tree at the end of a path. Where there is none, the action sees an empty tree and the tree stays. -/
def withinFrom {α : Type} (act : Tree → Tree × α) (t : Tree) (name : String) (more : List String) : Tree × α :=
  match t.child? name, more with
  | none, _ => (t, (act empty).2)
  | some child, [] =>
    let (child, result) := act child
    (t.setChild name child, result)
  | some child, next :: more =>
    let (child, result) := child.withinFrom act next more
    (t.setChild name child, result)

/-- Acts on the sub-tree at a path. -/
def within {α : Type} (t : Tree) (path : String) (act : Tree → Tree × α) : Tree × α :=
  let p := Path.ofString path
  t.withinFrom act p.first p.rest

/-! ### Showing -/

/-- One line per leaf, its value between quotes. -/
def leafLines (values : List (String × String)) : String :=
  String.join (values.map fun (name, value) => s!"{name} = \"{value}\"\n")

/-- The sections of the sub-trees of the top node, each under a header with its full name. -/
def sections (lead : String) : Tree → String
  | leaves _ => ""
  | branch name child rest =>
    s!"[ {lead}{name} ]\n" ++ leafLines child.values ++ child.sections (lead ++ name ++ ".") ++ rest.sections lead

/-- The tree as text with a section for each sub-tree. -/
def report (lead : String) (t : Tree) : String :=
  leafLines t.values ++ t.sections lead

end Tree

/-- A dictionary whose entries are texts and dictionaries, in the order in which their names came first. -/
inductive Dictionary
  | nil
  | text (name value : String) (rest : Dictionary)
  | nested (name : String) (inner rest : Dictionary)
  deriving DecidableEq, Repr

namespace Dictionary

/-- The dictionary of leaves. -/
def ofValues : List (String × String) → Dictionary
  | [] => nil
  | (name, value) :: more => text name value (ofValues more)

/-- Gives a name a dictionary, in the place of its entry, or at the end if the name is new. -/
def put : (d : Dictionary) → (name : String) → (inner : Dictionary) → Dictionary
  | nil, name, inner => nested name inner nil
  | text n v rest, name, inner => if n = name then nested name inner rest else text n v (rest.put name inner)
  | nested n d rest, name, inner => if n = name then nested name inner rest else nested n d (rest.put name inner)

end Dictionary

namespace Tree

/-- Puts the dictionaries of the sub-trees of the top node into a dictionary, one after the other. -/
def putSubs (done : Dictionary) : Tree → Dictionary
  | leaves _ => done
  | branch name child rest => rest.putSubs (done.put name (child.putSubs (.ofValues child.values)))

/-- The tree as a dictionary with a dictionary for each sub-tree. -/
def toDict (t : Tree) : Dictionary :=
  t.putSubs (.ofValues t.values)

end Tree

end RunParams
