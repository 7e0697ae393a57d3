import Polyglot.Settings.Basic

/-!
Finding the settings of a directory: the nearest file of that name in it or above it, or else in a
directory directly below it.
-/
namespace Polyglot

/-- The steps to a place as they are written. Empty ones and single dots lead nowhere. -/
abbrev Path := List String

namespace Path

def isIdle (step : String) : Bool := step == "" || step == "."

/-- Without idle steps at the end. -/
def trimEnd (p : Path) : Path := (p.reverse.dropWhile isIdle).reverse

/-- The paths above one; `fuel` bounds their number. -/
def above : Nat → Path → List Path
  | 0, _ => []
  | fuel + 1, p =>
    match trimEnd p with
    | [] => []
    | steps => trimEnd steps.dropLast :: above fuel steps.dropLast

/-- A path as it is written, and those above it. -/
def ancestors (p : Path) : List Path := p :: above p.length p

/-- The path to a name in a directory; a slash at its end is not doubled. -/
def child (p : Path) (name : String) : Path :=
  (if p.getLast? = some "" then p.dropLast else p) ++ [name]

/-- A path behind a directory, without idle steps at its ends. -/
def render (p : Path) : String := "/".intercalate (trimEnd (p.dropWhile isIdle))

end Path

/-- Files with their contents, and directories; all directories of files are there. -/
structure FileTree where
  files : List (Path × String) := []
  folders : List Path := []

namespace FileTree

/-- Every directory on the way to a path, the root included. -/
def foldersTo : Path → List Path
  | [] => [[]]
  | name :: rest => [] :: (foldersTo rest).map (name :: ·)

def ofFiles (files : List (Path × String)) (folders : List Path) : FileTree :=
  ⟨files, ((files.flatMap fun f => foldersTo f.1.dropLast) ++ folders.flatMap foldersTo).eraseDups⟩

def isFolder (tree : FileTree) (p : Path) : Bool := p.isEmpty || tree.folders.contains p

/-- The place that a path leads to: each step but the last must lead to a directory, and two dots
lead back. -/
def resolve? (tree : FileTree) : Path → Path → Option Path
  | here, [] => some here
  | here, name :: rest =>
    if !tree.isFolder here then none
    else if name = ".." then tree.resolve? here.dropLast rest
    else if Path.isIdle name then tree.resolve? here rest
    else tree.resolve? (here ++ [name]) rest

def read? (tree : FileTree) (p : Path) : Option String :=
  (tree.resolve? [] p).bind fun q => (tree.files.find? (·.1 = q)).map (·.2)

/-- The directories directly below one, by name. -/
def foldersIn (tree : FileTree) (p : Path) : List Path :=
  match tree.resolve? [] p with
  | none => []
  | some here =>
    let names := tree.folders.filterMap fun f =>
      if f.dropLast = here ∧ f ≠ [] then f.getLast? else none
    (names.mergeSort fun a b => a ≤ b).map fun n => Path.child p n

end FileTree

namespace Settings

def fileName : String := "settings.toml"

/-- Where settings are looked for, in order. -/
def candidates (tree : FileTree) (start : Path) : List Path :=
  Path.ancestors start ++ tree.foldersIn start

/-- The settings for a directory, and the directory that they were found in. -/
def discover (tree : FileTree) (start : Path) : Settings × Path :=
  let found := (candidates tree start).findSome? fun dir =>
    (tree.read? (Path.child dir fileName)).map fun content => (ofFile (some content), dir)
  found.getD ({}, start)

end Settings

end Polyglot
