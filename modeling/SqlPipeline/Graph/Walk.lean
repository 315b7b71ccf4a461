import SqlPipeline.Graph.Basic

/-!
# Walks

A breadth-first walk lists the names that can be reached, level by level. Each level holds the names
that no earlier level holds, in the order in which the level before lists their neighbours.
-/

namespace SqlPipeline

namespace Walk

/-- The names of a list that have not been seen, each at its first occurrence. -/
def fresh (seen : List String) : List String → List String
  | [] => []
  | name :: names =>
    if name ∈ seen then fresh seen names else name :: fresh (name :: seen) names

/-- The unseen names of a frontier, and level by level what can be reached from them. The walk ends
at an empty level or after the given number of levels. -/
def levels (next : String → List String) : Nat → List String → List String → List String
  | 0, _, _ => []
  | fuel + 1, seen, frontier =>
    match fresh seen frontier with
    | [] => []
    | name :: names =>
      let level := name :: names
      level ++ levels next fuel (seen ++ level) (level.flatMap next)

end Walk

namespace Graph

/-- The names that can be reached from a start in one step or more, nearest first, where `next`
lists neighbours among the nodes of the graph and names in `seen` are passed over. -/
def walk (graph : Graph) (next : String → List String) (seen start : List String) : List String :=
  Walk.levels next (graph.size + 1) seen start

/-- The other nodes that depend on a node, nearest first. -/
def descendants (graph : Graph) (name : String) : List String :=
  graph.walk graph.children [name] (graph.children name)

/-- The other nodes that a node depends on, nearest first. -/
def ancestors (graph : Graph) (name : String) : List String :=
  graph.walk graph.parents [name] (graph.parents name)

/-- Whether another node depends on a node. -/
def hasPath (graph : Graph) (source target : String) : Bool :=
  (graph.descendants source).contains target

end Graph

end SqlPipeline
