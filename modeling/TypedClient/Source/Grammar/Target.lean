import TypedClient.Source.Grammar.Basic

/-
  This file holds the grammar of targets: what an assignment, a
  loop, a context or a deletion may name.

  Key definitions include:
    * `Source.Grammar.ofTarget`
-/

namespace TypedClient

namespace Source

namespace Grammar

open Peg

/- A member or an item of something, with nothing behind it. -/
def places : List Peg :=
  [node .member (all [target .base, word ".", name,
      notAhead (target .suffix)]),
    node .subscript (all [target .base,
      between "[" "]" [expression .slices],
      notAhead (target .suffix)])]

/- A link of a base, which has something behind it. -/
def link (p : Peg) : Peg :=
  all [p, ahead (target .suffix)]

/- What a rule of targets accepts. -/
def ofTarget : Rule.Target → Peg
  | .several =>
      first [
        all [target .single, notAhead (word ",")],
        node .tuple (all [target .single,
          many (all [word ",", target .single]),
          maybe (word ",")])]
  | .listItems => commaList (target .single)
  | .tupleItems =>
      first [
        all [target .single,
          several (all [word ",", target .single]),
          maybe (word ",")],
        all [target .single, word ","]]
  | .single =>
      first [
        node .starred (all [word "*", notAhead (word "*"),
          target .single]),
        target .unstarred]
  | .unstarred => first (places ++ [target .atom])
  | .atom =>
      first [
        name,
        between "(" ")" [target .unstarred],
        node .tuple (between "(" ")" [maybe (target .tupleItems)]),
        node .list (between "[" "]" [maybe (target .listItems)])]
  | .annotated =>
      first [
        target .place,
        name,
        between "(" ")" [target .annotated]]
  | .place => first places
  | .base =>
      chain (link (expression .atom)) [
        (.member, link (all [word ".", name])),
        (.subscript,
          link (between "[" "]" [expression .slices])),
        (.call, link (expression .generator)),
        (.call,
          link (between "(" ")"
            [maybe (expression .arguments)]))]
  | .suffix => oneOf ["(", "[", "."]
  | .deleted => commaList (target .deletedItem)
  | .deletedItem => first (places ++ [target .deletedAtom])
  | .deletedAtom =>
      first [
        name,
        between "(" ")" [target .deletedItem],
        between "(" ")" [maybe (target .deleted)],
        between "[" "]" [maybe (target .deleted)]]

end Grammar

end Source

end TypedClient
