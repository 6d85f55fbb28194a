/-
  WebBaseline.Script.Grammar.Tags

  Markup between values: elements, fragments, and the values embedded in them.
-/

import WebBaseline.Script.Grammar.Basic

namespace WebBaseline.Script.Grammar

open WebBaseline.Syntax

/-! ## Tags -/

/-- The name of a tag: a dotted name, or one with hyphens or a colon. -/
def tagNameRule : R :=
  Rule.chain
      (Rule.lexeme .identifier anyWord ++ .absent (.flush .token (Scan.text "-") ||| sym ":"))
      (.wrap .member .object (op "." ++ .named .property plainProperty)) |||
    (Rule.lexeme .token markupName ++ (sym ":" ++ .lexeme .token markupName).opt)

/-- A value in braces; it may be left out. -/
def embeddedRule : R :=
  .node .tag (sym "\x7b" ++ (spread (p .expression) ||| p .expressions).opt ++ sym "\x7d")

/-- An attribute of a tag, or all members of an object as attributes. -/
def attributeRule : R :=
  .node .tag
    (p .embedded |||
      (Rule.lexeme .token markupName ++ (sym ":" ++ .lexeme .token markupName).opt ++
        (op "=" ++ (tagQuoted ||| p .embedded ||| p .element)).opt))

/-- A tag up to where it is closed. It may be nameless, and then has no attributes. -/
def tagHeadRule : R :=
  .absent (sym "</") ++ sym "<" ++
    (p .tagName ++ (p .typeArguments).opt ++ .many (p .attribute)).opt

/-- What may stand between tags. -/
def tagContentRule : R :=
  .flush .literal markupText ||| .flush .literal characterReference ||| p .embedded |||
    p .element

/-- A tag that is an element by itself, or one tag that opens an element and one
    that closes it; the names of the two may differ. -/
def elementRule : R :=
  .node .tag
    (p .tagHead ++
      (sym "/>" ||| (sym ">" ++ .many (p .tagContent) ++ sym "</" ++ (p .tagName).opt ++ sym ">")))

end WebBaseline.Script.Grammar
