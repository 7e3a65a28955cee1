import BlockPlan.Value.Basic

/-!
# Graphs of values

Values read from a document may share members and hold themselves. Before they become closed
`Value`s they are a `Graph`: numbered cells, each a scalar or a container whose members are
cells given by number. A container is the same object wherever it is reached from, so a map
changed through one place (`Graph.putEntry`) is changed for every place that holds it.

Cell 0 of every graph is the one not-a-number that all documents share (`Graph.empty`), so
that it is one key of a map however often it is written; each other not-a-number is a cell of
its own and equals nothing but itself (`Graph.sameKey`).

`Graph.term g i` is the closed value of cell `i`: the graph unfolded from `i`, where a member
that is a container on the way down from `i` becomes `back` of it. Every container that lies on
a cycle is a `knot` of its number, so that it is known as the same container wherever it stands
again.
A cell from which no cycle can be reached (`Graph.acyclicCells`) is unfolded once and its value
shared wherever the cell stands again, so a graph that holds a container many times costs no
more to unfold than it has cells.
-/

namespace BlockPlan

/-- One object of a graph: a scalar, or a container whose members are cells given by number. -/
inductive Cell where
  | scalar (v : Value)
  | list (items : List Nat)
  | tuple (items : List Nat)
  | map (entries : List (Nat × Nat))
  | set (members : List Nat)
  deriving Inhabited

/-- The cells a cell holds, each key before its value. -/
def Cell.members : Cell → List Nat
  | .scalar _ => []
  | .list xs | .tuple xs | .set xs => xs
  | .map es => es.flatMap fun (k, v) => [k, v]

/-- A cell number of a graph appended after another of `size` cells: the shared not-a-number
stays at 0, every other cell moves up. -/
def Cell.shifted (size i : Nat) : Nat := if i == 0 then 0 else size + i - 1

/-- A cell whose members moved up. -/
def Cell.shift (size : Nat) : Cell → Cell
  | .scalar v => .scalar v
  | .list xs => .list (xs.map (Cell.shifted size))
  | .tuple xs => .tuple (xs.map (Cell.shifted size))
  | .set xs => .set (xs.map (Cell.shifted size))
  | .map es => .map (es.map fun (k, v) => (Cell.shifted size k, Cell.shifted size v))

/-- Numbered cells. -/
structure Graph where
  cells : Array Cell
  deriving Inhabited

namespace Graph

/-- The graph that holds only the shared not-a-number, at 0. -/
def empty : Graph := ⟨#[.scalar (.float Value.nan)]⟩

/-- The cell of a number; a number without cell stands for null. -/
def cell (g : Graph) (i : Nat) : Cell := g.cells[i]?.getD (.scalar .null)

def add (g : Graph) (c : Cell) : Graph × Nat := (⟨g.cells.push c⟩, g.cells.size)

def put (g : Graph) (i : Nat) (c : Cell) : Graph := ⟨g.cells.setIfInBounds i c⟩

/-- Whether two cells are one key of a map: the same cell, or scalars equal as keys. -/
def sameKey (g : Graph) (i j : Nat) : Bool :=
  i == j ||
    match g.cell i, g.cell j with
    | .scalar a, .scalar b => a.eqv b
    | _, _ => false

/-- The entries of a map cell, none for other cells. -/
def entries (g : Graph) (i : Nat) : List (Nat × Nat) :=
  match g.cell i with
  | .map es => es
  | _ => []

def isMap (g : Graph) (i : Nat) : Bool := g.cell i matches .map _

/-- Puts cell `v` under key `k` of map cell `m`: in place of the value of the same key, which
stays, or at the end. -/
def putEntry (g : Graph) (m k v : Nat) : Graph :=
  let es := g.entries m
  if es.any (fun e => g.sameKey k e.1) then
    g.put m (.map (es.map fun e => if g.sameKey k e.1 then (e.1, v) else e))
  else g.put m (.map (es ++ [(k, v)]))

def lookup (g : Graph) (m k : Nat) : Option Nat :=
  ((g.entries m).find? fun e => g.sameKey k e.1).map (·.2)

/-- Adds the cells of a closed value and gives the number of its own; `env` gives the cells of
the knots around it. -/
def addValue (g : Graph) (env : List (Nat × Nat)) (v : Value) : Graph × Nat :=
  match v with
  | .back j =>
    match env.lookup j with
    | some i => (g, i)
    | none => g.add (.scalar .null)
  | .knot j body =>
    let (g, i) := g.add (.scalar .null)
    let (g, b) := addValue g ((j, i) :: env) body
    (g.put i (g.cell b), i)
  | .list xs =>
    let (g, ids) := xs.attach.foldl (fun (acc : Graph × List Nat) ⟨x, _⟩ =>
      let (g, i) := addValue acc.1 env x
      (g, acc.2 ++ [i])) (g, [])
    g.add (.list ids)
  | .tuple xs =>
    let (g, ids) := xs.attach.foldl (fun (acc : Graph × List Nat) ⟨x, _⟩ =>
      let (g, i) := addValue acc.1 env x
      (g, acc.2 ++ [i])) (g, [])
    g.add (.tuple ids)
  | .set xs =>
    let (g, ids) := xs.attach.foldl (fun (acc : Graph × List Nat) ⟨x, _⟩ =>
      let (g, i) := addValue acc.1 env x
      (g, acc.2 ++ [i])) (g, [])
    g.add (.set ids)
  | .map kvs =>
    let (g, es) := kvs.attach.foldl (fun (acc : Graph × List (Nat × Nat)) ⟨(k, x), _⟩ =>
      let (g, i) := addValue acc.1 env k
      let (g, j) := addValue g env x
      (g, acc.2 ++ [(i, j)])) (g, [])
    g.add (.map es)
  | other => g.add (.scalar other)
termination_by sizeOf v
decreasing_by
  all_goals simp_wf
  all_goals
    first
    | omega
    | have h := List.sizeOf_lt_of_mem ‹_›
      (try simp only [Prod.mk.sizeOf_spec] at h)
      omega

/-- The cells of `h` after those of `g`, the shared not-a-number of both at 0; a cell `i` of
`h` is `Cell.shifted g.cells.size i` of the result. -/
def append (g h : Graph) : Graph :=
  ⟨g.cells ++ (h.cells.extract 1 h.cells.size).map (Cell.shift g.cells.size)⟩

/-- How far the search for cycles has come at a cell. -/
inductive Visit where
  | unseen
  | active
  | done (acyclic : Bool)

/-- Visits cell `i` and the cells it reaches, depth first, and marks each with whether no cycle
can be reached from it; `fuel` bounds the depth. -/
def search (g : Graph) : Nat → Array Visit → Nat → Array Visit
  | 0, marks, _ => marks
  | fuel + 1, marks, i =>
    match marks[i]? with
    | some .unseen =>
      let kids := (g.cell i).members
      let marks := kids.foldl (fun m k => search g fuel m k) (marks.setIfInBounds i .active)
      let ok := kids.all fun k => marks[k]? matches some (.done true)
      marks.setIfInBounds i (.done ok)
    | _ => marks

/-- Whether no cycle can be reached from each cell. -/
def acyclicCells (g : Graph) : Array Bool :=
  let n := g.cells.size
  let marks := (List.range n).foldl (fun m i => search g (n + 1) m i) (Array.replicate n .unseen)
  marks.map fun v => v matches .done true

/-- Whether cell `target` can be reached from the cells of `todo` through cells that reach a
cycle; `seen` marks the cells already looked through, and `fuel` bounds the steps. -/
def reachesBack (g : Graph) (acyclic : Array Bool) (target : Nat) :
    Nat → List Nat → Array Bool → Bool
  | 0, _, _ => false
  | _, [], _ => false
  | fuel + 1, i :: rest, seen =>
    if i == target then true
    else if seen[i]?.getD true || acyclic[i]?.getD true then reachesBack g acyclic target fuel rest seen
    else reachesBack g acyclic target fuel ((g.cell i).members ++ rest) (seen.setIfInBounds i true)

/-- Whether each cell lies on a cycle: it can be reached from its own members. -/
def cyclicCells (g : Graph) (acyclic : Array Bool) : Array Bool :=
  let n := g.cells.size
  let steps := g.cells.foldl (fun acc c => acc + c.members.length + 1) 1
  (Array.range n).map fun i =>
    !(acyclic[i]?.getD true) &&
      reachesBack g acyclic i steps (g.cell i).members (Array.replicate n false)

/-- Unfolds cell `i` below the containers of `path`: its value, and the containers of `path` it
refers back to. The values of cells that reach no cycle are kept in the state once made. -/
def unfold (g : Graph) (acyclic cyclic : Array Bool) : Nat → List Nat → Nat →
    StateM (Array (Option Value)) (Value × List Nat)
  | 0, _, _ => pure (.null, [])
  | fuel + 1, path, i => do
    match (← get)[i]? with
    | some (some v) => pure (v, [])
    | _ =>
      match g.cell i with
      | .scalar v => pure (v, [])
      | c =>
        if path.contains i then pure (.back i, [i])
        else
          let inner := unfold g acyclic cyclic fuel (i :: path)
          let items := fun (xs : List Nat) => do
            let rs ← xs.mapM inner
            pure (rs.map (·.1), (rs.flatMap (·.2)).eraseDups)
          let (body, refs) ← match c with
            | .list xs => do let (vs, r) ← items xs; pure (Value.list vs, r)
            | .tuple xs => do let (vs, r) ← items xs; pure (Value.tuple vs, r)
            | .set xs => do let (vs, r) ← items xs; pure (Value.set vs, r)
            | .map es => do
              let rs ← es.mapM fun (k, x) => do
                let (kv, kr) ← inner k
                let (xv, xr) ← inner x
                pure ((kv, xv), kr ++ xr)
              pure (Value.map (rs.map (·.1)), (rs.flatMap (·.2)).eraseDups)
            | .scalar v => pure (v, [])
          let v := if refs.contains i || cyclic[i]?.getD false then Value.knot i body else body
          if acyclic[i]?.getD false then modify (·.setIfInBounds i (some v))
          pure (v, refs.filter (· != i))

/-- The closed value of cell `i`. -/
def term (g : Graph) (i : Nat) : Value :=
  let n := g.cells.size
  let acyclic := acyclicCells g
  let ((v, _), _) := Id.run ((unfold g acyclic (cyclicCells g acyclic) (n + 1) [] i).run
    (Array.replicate n none))
  v

end Graph

end BlockPlan
