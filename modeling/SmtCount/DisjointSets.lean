/-!
# Disjoint sets

A partition of the indices below `n` that is made coarser by joining classes: a forest in which each
index points to its parent and the roots stand for the classes.

A root keeps a *rank*, which bounds the height of its tree, and of two trees that are joined the one
of lower rank goes below the other.  Searching the root of an index halves the path it walks: each
index it visits is made to point to its grandparent.

## Main definitions

* `DisjointSets n` — the forest.
* `DisjointSets.find` — the root of an index, and the forest after the search.
* `DisjointSets.union` — joins the classes of two indices.
-/

namespace SmtCount

/-- A forest over the indices below `n`. -/
structure DisjointSets (n : Nat) where
  /-- The parent of each index; a root is its own parent. -/
  parent : Vector (Fin n) n
  /-- The rank of each index. -/
  rank : Vector Nat n

namespace DisjointSets

variable {n : Nat}

/-- Every index in a class of its own. -/
def singletons (n : Nat) : DisjointSets n where
  parent := Vector.ofFn id
  rank := Vector.replicate n 0

/-- Makes the parent of `i` point elsewhere. -/
def setParent (s : DisjointSets n) (i p : Fin n) : DisjointSets n :=
  { s with parent := s.parent.set i p }

/-- Walks from `i` to the root of its tree, halving the path, in at most `steps` steps. -/
def climb : Nat → DisjointSets n → Fin n → Fin n × DisjointSets n
  | 0, s, i => (i, s)
  | steps + 1, s, i =>
    if s.parent[i] = i then (i, s)
    else
      -- the tree below `i` moves up by one, and the walk goes on from there
      let grandparent := s.parent[s.parent[i]]
      climb steps (s.setParent i grandparent) grandparent

/-- The root of the tree that holds `i`, and the forest with the path to it halved.  A path visits no
index twice, so it has no more than `n` steps. -/
def find (s : DisjointSets n) (i : Fin n) : Fin n × DisjointSets n :=
  climb n s i

/-- Puts one of two different roots below the other: the one of lower rank, or else the second, and
then the rank of the first grows. -/
def link (s : DisjointSets n) (a b : Fin n) : DisjointSets n :=
  if s.rank[a] < s.rank[b] then s.setParent a b
  else if s.rank[a] = s.rank[b] then
    { s.setParent b a with rank := s.rank.set a (s.rank[a] + 1) }
  else s.setParent b a

/-- Joins the classes of `i` and `j`. -/
def union (s : DisjointSets n) (i j : Fin n) : DisjointSets n :=
  let (a, s) := s.find i
  let (b, s) := s.find j
  if a = b then s else s.link a b

/-- The roots of some indices, searched one after another. -/
def findAll (s : DisjointSets n) : List (Fin n) → List (Fin n)
  | [] => []
  | i :: is =>
    let (r, s) := s.find i
    r :: s.findAll is

end DisjointSets

end SmtCount
