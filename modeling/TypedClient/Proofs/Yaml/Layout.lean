import TypedClient.Proofs.Yaml.SharedScan
import TypedClient.Yaml.Merge

/-
  This file says which table of nodes is built for a JSON text: a
  collection stands in front of its parts, and the nodes of each
  part follow those of the part before it.

  Key definitions include:
    * `Json.Source.nodes`
    * `Json.Source.order`

  Key theorems include:
    * `Json.Source.length_nodes`
-/

namespace TypedClient

open Yaml (Node Place Entry Tag)

------------------------------------------------------------
-- The nodes of a tree
------------------------------------------------------------

namespace Json

/- The node of a key. -/
def Key.node (k : Key) : Node :=
  .scalar .str k.spelling.value

/- The node of a word or a number. -/
def plainNode (cs : List Char) : Node :=
  .scalar (Tag.ofPlain (RawText.ofChars cs)) (RawText.ofChars cs)

mutual

/- The number of nodes of a value. -/
def Source.size : Source → Nat
  | .word _ _ => 1
  | .number _ => 1
  | .string _ => 1
  | .emptyArray _ => 1
  | .array _ v others => 1 + v.size + others.size
  | .emptyObject _ => 1
  | .object _ _ v others => 2 + v.size + others.size

/- The number of nodes of the rest of an array. -/
def Items.size : Items → Nat
  | .nil _ => 0
  | .cons _ _ v others => v.size + others.size

/- The number of nodes of the rest of an object. -/
def Members.size : Members → Nat
  | .nil _ => 0
  | .cons _ _ _ v others => 1 + v.size + others.size

end

/- The places of the items behind the first `n` nodes. -/
def Items.places (n : Place) : Items → List Place
  | .nil _ => []
  | .cons _ _ v others => n :: others.places (n + v.size)

/- The entries of the members behind the first `n` nodes. -/
def Members.entries (n : Place) : Members → List Entry
  | .nil _ => []
  | .cons _ _ _ v others =>
      (n, n + 1) :: others.entries (n + 1 + v.size)

mutual

/- The nodes of a value behind `n` others. -/
def Source.nodes (n : Place) : Source → List Node
  | .word w _ => [plainNode w.1.toList]
  | .number m => [plainNode m.text]
  | .string s => [.scalar .str s.value]
  | .emptyArray _ => [.sequence .seq []]
  | .array _ v others =>
      .sequence .seq ((n + 1) :: others.places (n + 1 + v.size)) ::
        (v.nodes (n + 1) ++ others.nodes (n + 1 + v.size))
  | .emptyObject _ => [.mapping .map []]
  | .object _ k v others =>
      .mapping .map
          ((n + 1, n + 2) :: others.entries (n + 2 + v.size)) ::
        k.node :: (v.nodes (n + 2) ++ others.nodes (n + 2 + v.size))

/- The nodes of the rest of an array behind `n` others. -/
def Items.nodes (n : Place) : Items → List Node
  | .nil _ => []
  | .cons _ _ v others => v.nodes n ++ others.nodes (n + v.size)

/- The nodes of the rest of an object behind `n` others. -/
def Members.nodes (n : Place) : Members → List Node
  | .nil _ => []
  | .cons _ _ k v others =>
      k.node :: (v.nodes (n + 1) ++ others.nodes (n + 1 + v.size))

end

mutual

/- The places of a value in the order of their completion. -/
def Source.order (n : Place) : Source → List Place
  | .word _ _ => [n]
  | .number _ => [n]
  | .string _ => [n]
  | .emptyArray _ => [n]
  | .array _ v others =>
      v.order (n + 1) ++ others.order (n + 1 + v.size) ++ [n]
  | .emptyObject _ => [n]
  | .object _ _ v others =>
      (n + 1) :: (v.order (n + 2) ++
        others.order (n + 2 + v.size)) ++ [n]

/- The same order in the rest of an array. -/
def Items.order (n : Place) : Items → List Place
  | .nil _ => []
  | .cons _ _ v others => v.order n ++ others.order (n + v.size)

/- The same order in the rest of an object. -/
def Members.order (n : Place) : Members → List Place
  | .nil _ => []
  | .cons _ _ _ v others =>
      n :: (v.order (n + 1) ++ others.order (n + 1 + v.size))

end

mutual

/- There are as many nodes as the size says. -/
theorem Source.length_nodes
    (v : Source)
    (n : Place) : (v.nodes n).length = v.size := by
  cases v with
  | word w hWord => rfl
  | number m => rfl
  | string s => rfl
  | emptyArray g => rfl
  | array g v others =>
      simp only [Source.nodes, List.length_cons,
        List.length_append, v.length_nodes, others.length_nodes,
        Source.size]
      omega
  | emptyObject g => rfl
  | object g k v others =>
      simp only [Source.nodes, List.length_cons,
        List.length_append, v.length_nodes, others.length_nodes,
        Source.size]
      omega

theorem Items.length_nodes
    (i : Items)
    (n : Place) : (i.nodes n).length = i.size := by
  cases i with
  | nil g => rfl
  | cons g a v others =>
      simp only [Items.nodes, List.length_append, v.length_nodes,
        others.length_nodes, Items.size]

theorem Members.length_nodes
    (m : Members)
    (n : Place) : (m.nodes n).length = m.size := by
  cases m with
  | nil g => rfl
  | cons g a k v others =>
      simp only [Members.nodes, List.length_cons,
        List.length_append, v.length_nodes, others.length_nodes,
        Members.size]
      omega

end

end Json

end TypedClient
