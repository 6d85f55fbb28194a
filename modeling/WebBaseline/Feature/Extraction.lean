/-
  WebBaseline.Feature.Extraction

  The features that a source uses, in any language.
-/

import WebBaseline.Feature.Language
import WebBaseline.Feature.Occurrence
import WebBaseline.Markup.Features
import WebBaseline.Script.Features
import WebBaseline.Stylesheet.Features

namespace WebBaseline.Feature

/-- How a script is written, by its file's extension: files of typed scripts are
    read without markup between expressions, all others with it. -/
def dialectOf (path : Files.Path) : Script.Dialect :=
  match (Files.Path.extension? path).map Text.asciiLowercase with
  | some "ts" => .typed
  | some "mts" => .typed
  | some "cts" => .typed
  | _ => .markup

/-- The features that a text in a language uses; its path tells how it is written. -/
def extract (language : Language) (path : Files.Path) (text : String) : List Occurrence :=
  match language with
  | .script => Script.features (dialectOf path) text
  | .stylesheet => Stylesheet.features text
  | .markup => Markup.features text

end WebBaseline.Feature
