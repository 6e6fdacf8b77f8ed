import ModelRegistry.Binary64

namespace ModelRegistry.Toml

inductive Value
  | text (s : String)
  | integer (i : Int)
  | float (x : Binary64)
  | boolean (b : Bool)
  | moment (s : String)
  | array (elements : List Value)
  | table (members : List (String × Value))

inductive Origin
  | header
  | implied
  | dotted
  deriving DecidableEq, Repr

inductive Node
  | leaf (v : Value)
  | table (origin : Origin) (members : List (String × Node))
  | tables (elements : List (List (String × Node)))

namespace Node

mutual

def value : Node → Value
  | leaf v => v
  | table _ members => .table (valuesOf members)
  | tables elements => .array (tablesOf elements).reverse

def valuesOf : List (String × Node) → List (String × Value)
  | [] => []
  | (k, n) :: rest => (k, n.value) :: valuesOf rest

def tablesOf : List (List (String × Node)) → List Value
  | [] => []
  | t :: rest => .table (valuesOf t) :: tablesOf rest

end

end Node

abbrev Members := List (String × Node)

namespace Members

def get? (m : Members) (key : String) : Option Node := m.lookup key

def set (m : Members) (key : String) (n : Node) : Members :=
  if (m.get? key).isSome then m.map (fun e => if e.1 == key then (key, n) else e)
  else m ++ [(key, n)]

/-- Changes the table at the end of a path. Tables on the way that are missing are made. A path in a
dotted key does not lead into a table that a header names. `act` is told whether the table is one
that dotted keys made. -/
def visit (inKey : Bool) (act : Bool → Members → Option Members) :
    List String → Bool → Members → Option Members
  | [], isDotted, m => act isDotted m
  | key :: path, _, m =>
    match m.get? key with
    | none => do
      let inner ← visit inKey act path inKey []
      return m.set key (.table (if inKey then .dotted else .implied) inner)
    | some (.leaf _) => none
    | some (.table origin inner) =>
      if inKey && origin == .header then none
      else do
        let inner ← visit inKey act path (origin == .dotted) inner
        return m.set key (.table origin inner)
    | some (.tables []) => none
    | some (.tables (latest :: earlier)) => do
      let latest ← visit inKey act path false latest
      return m.set key (.tables (latest :: earlier))

def assign (path : List String) (key : String) (v : Value) (m : Members) : Option Members :=
  visit true (fun isDotted m =>
    if isDotted == path.isEmpty || (m.get? key).isSome then none
    else some (m ++ [(key, .leaf v)])) path false m

def openTable (path : List String) (key : String) (m : Members) : Option Members :=
  visit false (fun _ m =>
    match m.get? key with
    | none => some (m ++ [(key, .table .header [])])
    | some (.table .implied inner) => some (m.set key (.table .header inner))
    | some _ => none) path false m

def openElement (path : List String) (key : String) (m : Members) : Option Members :=
  visit false (fun _ m =>
    match m.get? key with
    | none => some (m ++ [(key, .tables [[]])])
    | some (.tables elements) => some (m.set key (.tables ([] :: elements)))
    | some _ => none) path false m

def assignIn (table path : List String) (key : String) (v : Value) (m : Members) :
    Option Members :=
  visit false (fun _ m => m.assign path key v) table false m

end Members

end ModelRegistry.Toml
