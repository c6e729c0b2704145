import Minifier.Path
import Minifier.RuleSet.Basic
import Minifier.Stamp
import Minifier.Text.Case
import Minifier.Text.Lines

/-!
# Headers of combined files

A header is made from a template, in which fields between double braces stand for the name of the
rule set. Templates are looked up by name among given ones first, then among the built-in ones.
Main definitions: `Template.ofString`, `Template.fill`, `header`.
-/

set_option autoImplicit false

namespace Minifier

/-- A part of a template: plain text, the capitalized name of the rule set, its name, or the moment
of writing. -/
inductive TemplatePart where
  | plain (text : List Char)
  | title
  | ruleName
  | moment
  deriving DecidableEq, Repr

/-- A template is a list of parts. -/
abbrev Template := List TemplatePart

namespace Template

/-- A text without the line feed at its end. -/
def dropLastLineFeed (text : List Char) : List Char :=
  if text.getLast? = some '\n' then text.dropLast else text

/-- The fields, by the names that stand for them. -/
def fields : List (List Char × TemplatePart) :=
  [("title".toList, .title), ("rules.name".toList, .ruleName)]

/-- The text after a number of blanks. -/
def skipSpaces : List Char → List Char :=
  List.dropWhile (· == ' ')

/-- The field that a text starts with, after the braces that open it, and what follows the braces
that close it. -/
def fieldAt? (text : List Char) : Option (TemplatePart × List Char) :=
  fields.findSome? fun (name, part) =>
    let inner := skipSpaces text
    if name.isPrefixOf inner then
      match skipSpaces (inner.drop name.length) with
      | '}' :: '}' :: rest => some (part, rest)
      | _ => none
    else none

/-- Puts a character in front of a template. -/
def consChar (c : Char) : Template → Template
  | .plain text :: rest => .plain (c :: text) :: rest
  | parts => .plain [c] :: parts

/-- The parts of a text; the fuel is its length. -/
def partsOf : Nat → List Char → Template
  | 0, _ => []
  | _ + 1, [] => []
  | fuel + 1, c :: rest =>
    match c, rest with
    | '{', '{' :: inner =>
      match fieldAt? inner with
      | some (part, after) => part :: partsOf fuel after
      | none => consChar c (partsOf fuel rest)
    | _, _ => consChar c (partsOf fuel rest)

/-- Reads a template; one line feed at its end is dropped. -/
def ofString (source : String) : Template :=
  let text := dropLastLineFeed (unifyLines source.toList)
  partsOf text.length text

/-- Writes a template out for a rule set. -/
def fill (template : Template) (rules : String) (stamp : Stamp) : String :=
  "".intercalate (template.map fun
    | .plain text => String.ofList text
    | .title => capitalize rules
    | .ruleName => rules
    | .moment => stamp.text)

/-- The template for combined files of PHP. -/
def laravel : Template :=
  [.plain "<?php\n/**\n * Combined ".toList, .title,
    .plain " files - Generated by FileMinifier\n * Date: ".toList, .moment, .plain "\n */".toList]

/-- The built-in templates. -/
def builtIn : List (String × Template) :=
  [("laravel_header.j2", laravel)]

/-- The folders and the name of a template, without empty parts and single dots; a name that leads
upwards is none. -/
def nameParts? (name : String) : Option (List String) :=
  let parts := slashParts name
  if parts.contains ".." then none else some (parts.filter fun part => part != "" && part != ".")

/-- The template of a given name, among given ones and then among the built-in ones. -/
def find? (given : List (String × String)) (name : String) : Option Template := do
  let parts ← nameParts? name
  let key := "/".intercalate parts
  match given.lookup key with
  | some source => some (ofString source)
  | none => builtIn.lookup key

end Template

/-- A template that does not exist. -/
structure MissingTemplate where
  name : String
  deriving DecidableEq, Repr

/-- The header of a combined file; a rule set without a template has an empty one. -/
def header (given : List (String × String)) (rules : RuleSet) (stamp : Stamp) :
    Except MissingTemplate String :=
  match rules.headerTemplate with
  | none => .ok ""
  | some name =>
    if name.isEmpty then .ok ""
    else
      match Template.find? given name with
      | some template => .ok (template.fill rules.name stamp)
      | none => .error ⟨name⟩

end Minifier
