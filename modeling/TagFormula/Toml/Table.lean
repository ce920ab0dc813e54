import TagFormula.Toml.Value

/-!
# TOML: building the tables

A document names its tables in headers and in dotted keys, in any order, but defines each one once.
`Node` keeps how a table came about, because that decides what may still be added to it.
-/

namespace TagFormula.Toml

/-- How a table came about. -/
inductive Origin where
  /-- It lies on the way to a table named in a header. -/
  | implied
  /-- It lies on the way to a key. -/
  | dotted
  /-- It is named in a header itself, or is the whole document. -/
  | header
  deriving DecidableEq, Repr

/-- A part of a document that is being built. -/
inductive Node where
  | leaf (value : Value)
  | table (origin : Origin) (fields : List (String × Node))
  /-- An array of tables, each begun by a header. -/
  | tables (earlier : List (List (String × Node))) (last : List (String × Node))

/-- The fields of a table that is being built, in the order of their first mention. -/
abbrev Fields := List (String × Node)

namespace Fields

def get? (fields : Fields) (key : String) : Option Node :=
  (fields.find? (·.1 = key)).map (·.2)

/-- Put a field in the place of the one with its key, or at the end. -/
def put (fields : Fields) (key : String) (node : Node) : Fields :=
  if fields.any (·.1 = key) then fields.map fun field => if field.1 = key then (key, node) else field
  else fields ++ [(key, node)]

/-- Change the table at the end of a path, whose origin the change is told; tables on the way are
added as needed. A path of dots leads through no table that a header names. -/
def update? (dotted : Bool) (change : Origin → Fields → Option Fields) (origin : Origin)
    (fields : Fields) : (path : List String) → Option Fields
  | [] => change origin fields
  | key :: path => do
    let node ← match fields.get? key with
      | none =>
        let origin := if dotted then .dotted else .implied
        (update? dotted change origin [] path).map (.table origin)
      | some (.leaf _) => none
      | some (.table origin inner) =>
        if dotted && origin = .header then none
        else (update? dotted change origin inner path).map (.table origin)
      | some (.tables earlier last) =>
        (update? dotted change .header last path).map (.tables earlier)
    some (fields.put key node)

/-- Add a value under the last key of a path. The key must be new, and the table that it is added to
must be one that the path itself made, or the one that it starts from. -/
def addValue? (fields : Fields) (path : List String) (key : String) (value : Value) :
    Option Fields :=
  let change (origin : Origin) (inner : Fields) :=
    if (inner.get? key).isSome || (origin ≠ .dotted && !path.isEmpty) then none
    else some (inner.put key (.leaf value))
  fields.update? true change .header path

/-- Begin the table that a header names. It must be new, or known only from other headers' paths. -/
def addTable? (fields : Fields) (path : List String) (key : String) : Option Fields :=
  let change (_ : Origin) (inner : Fields) :=
    match inner.get? key with
    | none => some (inner.put key (.table .header []))
    | some (.table .implied known) => some (inner.put key (.table .header known))
    | some _ => none
  fields.update? false change .header path

/-- Begin the next table of the array that a header names. -/
def addElement? (fields : Fields) (path : List String) (key : String) : Option Fields :=
  let change (_ : Origin) (inner : Fields) :=
    match inner.get? key with
    | none => some (inner.put key (.tables [] []))
    | some (.tables earlier last) => some (inner.put key (.tables (earlier ++ [last]) []))
    | some _ => none
  fields.update? false change .header path

end Fields

mutual

def Node.toValue : Node → Value
  | .leaf value => value
  | .table _ fields => .table (fieldsToValues fields)
  | .tables earlier last => .array (tablesToValues earlier ++ [.table (fieldsToValues last)])

def fieldsToValues : List (String × Node) → List (String × Value)
  | [] => []
  | (key, node) :: rest => (key, node.toValue) :: fieldsToValues rest

def tablesToValues : List (List (String × Node)) → List Value
  | [] => []
  | fields :: rest => .table (fieldsToValues fields) :: tablesToValues rest

end

end TagFormula.Toml
