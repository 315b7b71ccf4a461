import SqlPipeline.Graph.Basic

/-!
# Cycles

A depth-first search from every node in turn finds a cycle if there is one: the search meets a node
again that is still on the path that leads there.
-/

namespace SqlPipeline.Graph

/-- Search from a node along a path, which lists the nodes on the way with the latest one first. The
result is the nodes that lead to no cycle, or else a cycle from a node back to itself. -/
def search (graph : Graph) : Nat → List String → List String → String →
    Except (List String) (List String)
  | 0, _, done, _ => .ok done
  | fuel + 1, path, done, name =>
    if name ∈ path then .error (name :: (path.takeWhile (· ≠ name)).reverse ++ [name])
    else if name ∈ done then .ok done
    else do
      let done ← (graph.children name).foldlM (search graph fuel (name :: path)) done
      .ok (name :: done)

/-- A cycle as a list of nodes, each of which the next one depends on; the first node is also the
last one. -/
def findCycle? (graph : Graph) : Option (List String) :=
  match graph.nodes.toList.foldlM (graph.search (graph.size + 1) []) [] with
  | .ok _ => none
  | .error cycle => some cycle

end SqlPipeline.Graph
