import TypedClient.Source.Grammar.Basic

/-
  This file holds the grammar of the patterns of a choice.

  Key definitions include:
    * `Source.Grammar.ofPattern`
-/

namespace TypedClient

namespace Source

namespace Grammar

open Peg

/- What must not stand behind the name of a value. -/
def behindValue : Peg :=
  notAhead (oneOf [".", "(", "="])

/- The constants of patterns. -/
def plainLiterals : List Peg :=
  [all [pattern .signed, notAhead (oneOf ["+", "-"])],
    pattern .complex,
    expression .strings,
    oneOf ["None", "True", "False"]]

/- What a rule of patterns accepts. -/
def ofPattern : Rule.Pattern → Peg
  | .top => first [pattern .openSequence, pattern .single]
  | .single => first [pattern .alias, pattern .either]
  | .alias =>
      first [
        all [pattern .either, word "as", pattern .target],
        retry (pattern .badAlias)]
  | .either => Peg.list (word "|") (pattern .closed)
  | .closed =>
      first [
        pattern .literal, pattern .capture, pattern .wildcard,
        pattern .value, pattern .group, pattern .sequence,
        pattern .mapping, pattern .record]
  | .literal => first plainLiterals
  | .key => first plainLiterals
  | .complex =>
      all [pattern .signedReal, oneOf ["+", "-"],
        pattern .imaginary]
  | .signed => first [number, all [word "-", number]]
  | .signedReal =>
      first [pattern .real, all [word "-", pattern .real]]
  | .real =>
      first [
        all [notAhead Peg.imaginary, number],
        complain (.atMark "real number required in complex literal")
          (mark number)]
  | .imaginary =>
      first [
        Peg.imaginary,
        complain (.atMark
            "imaginary number required in complex literal")
          (mark number)]
  | .capture => pattern .target
  | .target => all [notAhead (soft "_"), name, behindValue]
  | .wildcard => soft "_"
  | .value => all [pattern .dotted, behindValue]
  | .dotted => all [name, several (all [word ".", name])]
  | .nameOrDotted => all [name, many (all [word ".", name])]
  | .group => between "(" ")" [pattern .single]
  | .sequence =>
      first [
        between "[" "]" [maybe (pattern .items)],
        between "(" ")" [maybe (pattern .openSequence)]]
  | .openSequence =>
      all [pattern .item, word ",", maybe (pattern .items)]
  | .items => commaList (pattern .item)
  | .item => first [pattern .star, pattern .single]
  | .star =>
      first [
        all [word "*", pattern .target],
        all [word "*", pattern .wildcard]]
  | .mapping =>
      first [
        between openBrace closeBrace [],
        between openBrace closeBrace
          [pattern .rest, maybe (word ",")],
        between openBrace closeBrace
          [pattern .pairs, word ",", pattern .rest,
            maybe (word ",")],
        between openBrace closeBrace
          [pattern .pairs, maybe (word ",")]]
  | .pairs => Peg.list (word ",") (pattern .pair)
  | .pair =>
      all [first [pattern .key, pattern .dotted], word ":",
        pattern .single]
  | .rest => all [word "**", pattern .target]
  | .record =>
      first [
        all [pattern .nameOrDotted, between "(" ")" []],
        all [pattern .nameOrDotted, between "(" ")"
          [pattern .placed, maybe (word ",")]],
        all [pattern .nameOrDotted, between "(" ")"
          [pattern .keywords, maybe (word ",")]],
        all [pattern .nameOrDotted, between "(" ")"
          [pattern .placed, word ",", pattern .keywords,
            maybe (word ",")]],
        retry (pattern .badRecord)]
  | .placed => Peg.list (word ",") (pattern .single)
  | .keywords => Peg.list (word ",") (pattern .keyword)
  | .keyword => all [name, word "=", pattern .single]
  | .badAlias =>
      first [
        complain (.atMark "cannot use '_' as a target")
          (all [pattern .either, word "as", mark (soft "_")]),
        complain (.atMark "invalid pattern target")
          (all [pattern .either, word "as", notAhead name,
            mark (expression .single)])]
  | .badRecord =>
      complain (.atMark
          "positional patterns follow keyword patterns")
        (all [pattern .nameOrDotted, word "(",
          pattern .badPlaced])
  | .badPlaced =>
      all [maybe (all [pattern .placed, word ","]),
        pattern .keywords, word ",", mark (pattern .placed)]

end Grammar

end Source

end TypedClient
