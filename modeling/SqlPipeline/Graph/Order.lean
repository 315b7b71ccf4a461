import SqlPipeline.Graph.Basic
import SqlPipeline.NameMap

/-!
# Topological order

Nodes are placed one after another, always the least one whose parents have all been placed. Every
node counts the parents that it waits for; a count that would fall below zero would end the sort
without a result.
-/

namespace SqlPipeline

/-- A topological sort in progress. -/
structure Sorting where
  /-- How many parents each node waits for. -/
  waiting : NameMap Nat
  /-- The nodes that wait for no parent and have not been placed. -/
  ready : NameSet
  /-- The nodes that have been placed, in order. -/
  placed : List String

namespace Sorting

/-- The sort before the first node is placed. -/
def start (graph : Graph) : Sorting :=
  { waiting := .ofList (graph.nodes.toList.map fun name => (name, (graph.parents name).length))
    ready := graph.nodes.filter fun name => (graph.parents name).isEmpty
    placed := [] }

/-- Let a node wait for one parent less; nothing if it waits for none. -/
def release? (sorting : Sorting) (name : String) : Option Sorting :=
  match sorting.waiting.get? name with
  | none => some sorting
  | some 0 => none
  | some (rest + 1) =>
    some { sorting with
      waiting := sorting.waiting.insert name rest
      ready := if rest = 0 then sorting.ready.insert name else sorting.ready }

/-- Place nodes for as long as one is ready, at most the given number of them. -/
def run? (graph : Graph) : Nat → Sorting → Option Sorting
  | 0, sorting => some sorting
  | fuel + 1, sorting =>
    match sorting.ready.popLeast? with
    | none => some sorting
    | some (name, ready) => do
      let placed := sorting.placed ++ [name]
      let sorting ← (graph.children name).foldlM release? { sorting with ready, placed }
      run? graph fuel sorting

end Sorting

namespace Graph

/-- The order in which nodes are placed one after another, as far as it goes. -/
def placedOrder? (graph : Graph) : Option (List String) :=
  (Sorting.run? graph graph.size (.start graph)).map (·.placed)

/-- The nodes in the least order that puts every parent before its children; nothing if there is no
such order. -/
def topologicalSort? (graph : Graph) : Option (List String) :=
  graph.placedOrder?.filter fun placed => placed.length = graph.size

end Graph

end SqlPipeline
