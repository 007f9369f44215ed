import ShaderWeave.Schedule.Heap

/-!
# Generation Order

Nodes are numbered in order of registration, and each lists the nodes it depends on.
`generationOrder` puts dependencies first and, among the nodes that are ready at the same time, the
earliest registered one. The result depends only on the set of dependencies, and it is the least such
order.

For each node the dependencies that are not placed yet are counted, each once, and the nodes that are
ready wait in a heap. A step takes the least of them, and its dependents have one dependency less to wait
for. If no node is ready although some are not placed, there is a cycle, and the first node that still
waits is reported.
-/

namespace ShaderWeave

/-- Put a number into an ascending list, unless it is there. -/
def insertOnce (n : Nat) : List Nat → List Nat
  | [] => [n]
  | m :: rest =>
    if n < m then n :: m :: rest
    else if n = m then m :: rest
    else m :: insertOnce n rest

/-- The numbers of a list in ascending order, each once. -/
def ascending (ns : List Nat) : List Nat := ns.foldr insertOnce []

/-- Nodes that are being placed. -/
structure Scheduler where
  /-- How many dependencies of each node are not placed yet. -/
  pending : List Nat
  /-- The nodes that depend on each node. -/
  dependents : List (List Nat)
  /-- The nodes that are not placed but all of whose dependencies are. -/
  ready : Heap := .empty

namespace Scheduler

/-- How many dependencies of a node are not placed yet. -/
def pendingOf (s : Scheduler) (node : Nat) : Nat := s.pending.getD node 0

/-- The nodes that depend on a node. -/
def dependentsOf (s : Scheduler) (node : Nat) : List Nat := s.dependents.getD node []

/-- Count a dependency of a node. -/
def addDependency (node : Nat) (s : Scheduler) (dependency : Nat) : Scheduler :=
  { s with
    pending := s.pending.modify node (· + 1)
    dependents := s.dependents.modify dependency (· ++ [node]) }

/-- Count the dependencies of a node. -/
def addDependencies (s : Scheduler) : List Nat × Nat → Scheduler
  | (dependencies, node) => (ascending dependencies).foldl (addDependency node) s

/-- The dependencies of all nodes counted. -/
def counted (deps : List (List Nat)) : Scheduler :=
  deps.zipIdx.foldl addDependencies
    { pending := List.replicate deps.length 0, dependents := List.replicate deps.length [] }

/-- Nothing is placed yet, and the nodes without dependencies are ready. -/
def initial (deps : List (List Nat)) : Scheduler :=
  let s := counted deps
  let ready := (List.range s.pending.length).filter (s.pendingOf · == 0)
  { s with ready := ready.foldl .insert .empty }

/-- One dependency of a node is placed. The node is ready if it was the last one. -/
def release (s : Scheduler) (node : Nat) : Scheduler :=
  let left := s.pendingOf node - 1
  { s with
    pending := s.pending.set node left
    ready := if left = 0 then s.ready.insert node else s.ready }

/-- Place at most `limit` nodes, as long as one is ready. Returns them in order. -/
def run : (limit : Nat) → Scheduler → List Nat × Scheduler
  | 0, s => ([], s)
  | limit + 1, s =>
    match s.ready.takeLeast? with
    | none => ([], s)
    | some (node, ready) =>
      let (order, stopped) := run limit ((s.dependentsOf node).foldl release { s with ready })
      (node :: order, stopped)

end Scheduler

/-- The generation order of the nodes `0, …, deps.length - 1`, where `deps` lists the dependencies of
each. If there is none, the first node from which a cycle can be reached. -/
def generationOrder (deps : List (List Nat)) : Except Nat (List Nat) :=
  let (order, stopped) := Scheduler.run deps.length (Scheduler.initial deps)
  if order.length = deps.length then .ok order
  else .error (((List.range deps.length).find? (0 < stopped.pendingOf ·)).getD 0)

/-- Why a table of dependencies has no generation order. -/
inductive OrderError where
  /-- A cycle can be reached from this node, and from no earlier one. -/
  | cycle (node : Nat)
  /-- A node depends on one that does not exist. -/
  | unknownDependency
deriving DecidableEq

/-- The generation order of a table of dependencies that may name nodes that do not exist. -/
def dependencyOrder (deps : List (List Nat)) : Except OrderError (List Nat) :=
  if deps.any (·.any (deps.length ≤ ·)) then .error .unknownDependency
  else (generationOrder deps).mapError .cycle

end ShaderWeave
