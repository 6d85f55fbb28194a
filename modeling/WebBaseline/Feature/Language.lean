/-
  WebBaseline.Feature.Language

  The languages that web sources are written in, and how a file's name tells
  which one it is.
-/

import WebBaseline.Files.Path
import WebBaseline.Text.Lowercase

namespace WebBaseline.Feature

/-- A language of web sources. -/
inductive Language where
  | script
  | stylesheet
  | markup
  deriving DecidableEq, Repr, Inhabited

namespace Language

/-- All languages. -/
def all : List Language := [script, stylesheet, markup]

/-- The word for a language. -/
def word : Language → String
  | script => "script"
  | stylesheet => "stylesheet"
  | markup => "markup"

/-- The language of a word. -/
def ofWord? (s : String) : Option Language := all.find? (fun l => l.word == s)

/-- The name by which a language is known. -/
def name : Language → String
  | script => "JavaScript/TypeScript"
  | stylesheet => "CSS"
  | markup => "HTML"

/-- The extensions of files in a language, in lower case. -/
def extensions : Language → List String
  | script => ["js", "jsx", "mjs", "cjs", "ts", "tsx", "mts", "cts"]
  | stylesheet => ["css", "scss", "less"]
  | markup => ["html", "htm"]

/-- The language of files with an extension, in letters of either case. -/
def ofExtension? (extension : String) : Option Language :=
  let lower := Text.asciiLowercase extension
  all.find? (fun l => l.extensions.contains lower)

/-- The language of the file at a path. -/
def ofPath? (path : Files.Path) : Option Language :=
  (Files.Path.extension? path).bind ofExtension?

end Language

end WebBaseline.Feature
