/-
Files below a working directory.

A place is a list of parts from the working directory, or from the root. `locate` follows a path part by part, so a
path that goes through something that is no directory leads nowhere, even if it comes back at once.
-/
import KeyHold.Fault
import KeyHold.Files.Path

namespace KeyHold

abbrev Place := List String

/-- texts by their place, and the directories that are there -/
structure Files where
  texts : List (Place × String) := []
  dirs : List Place := []
deriving Inhabited

/-- what is at a path -/
inductive Found where
  | nothing
  | directory
  | text (s : String)
deriving DecidableEq, Repr

namespace Files

/-- the place that a part of a path leads to -/
def step (here : Place) (part : String) : Place :=
  if part ≠ ".." then here ++ [part]
  else
    match here.getLast? with
    | none | some ".." => here ++ [".."]
    | some "/" => here
    | some _ => here.dropLast

/-- the working directory, what is above it, and the root are always there -/
def isDir (files : Files) (p : Place) : Bool := p.all (· == "..") || p == ["/"] || files.dirs.contains p

/-- the place of the first part of a path -/
def origin (path : String) : Place := if Path.root path.toList = "" then [] else ["/"]

/-- the place a path leads to, if every part but the last is a directory -/
def follow (files : Files) (path : String) : Option Place :=
  (Path.parts path.toList).foldlM (fun here part => if files.isDir here then some (step here part) else none)
    (origin path)

def locate (files : Files) (path : String) : Found :=
  match files.follow path with
  | none => .nothing
  | some p =>
    if files.isDir p then .directory
    else
      match files.texts.lookup p with
      | some s => .text s
      | none => .nothing

/-- whether a path ends in a slash or a dot part, which only directories have -/
def namesDirectory (path : String) : Bool :=
  match (Text.splitAt '/' path.toList).getLast? with
  | some last => path ≠ "" && (last == [] || last == ['.'])
  | none => false

/-- line ends of any kind as line feeds -/
def lineFeeds : List Char → List Char
  | '\x0d' :: '\n' :: rest => '\n' :: lineFeeds rest
  | '\x0d' :: rest => '\n' :: lineFeeds rest
  | c :: rest => c :: lineFeeds rest
  | [] => []

/-- the text at a path -/
def read (files : Files) (path : String) : Except Fault String :=
  match files.locate path with
  | .nothing => .error (.noFile path)
  | .directory => if path = "" then .error (.noFile path) else .error (.isDirectory path)
  | .text s =>
    if namesDirectory path then .error (.notDirectory path) else .ok (String.ofList (lineFeeds s.toList))

/-- the places that the parts of a path lead through, and the last one -/
def way (path : String) : List Place × Place :=
  (Path.parts path.toList).foldl (fun (ps, here) part => (ps ++ [here], step here part)) ([], origin path)

/-- with a text at a path, and the directories on the way to it -/
def add (path text : String) (files : Files) : Files :=
  let (dirs, p) := way path
  { texts := (p, text) :: files.texts.filter (·.1 ≠ p), dirs := files.dirs ++ dirs }

/-- whether a path ends in a dot part, slashes behind it aside -/
def endsInDot (path : String) : Bool := ((Text.splitAt '/' path.toList).filter (· ≠ [])).getLast? == some ['.']

/-- with a text written to a path; the directories on the way to it must be there -/
def write (path text : String) (files : Files) : Except Fault Files :=
  match files.follow path with
  | none => .error (.noFile path)
  | some p =>
    if files.isDir p then .error (if path = "" then .noFile path else .isDirectory path)
    else if namesDirectory path then
      .error (if !endsInDot path then .isDirectory path
        else if (files.texts.lookup p).isSome then .notDirectory path
        else .noFile path)
    else .ok { files with texts := (p, text) :: files.texts.filter (·.1 ≠ p) }

/-- with a directory at a path, and those on the way to it -/
def makeDir (path : String) (files : Files) : Except Fault Files :=
  let (dirs, p) := way path
  let isText (p : Place) : Bool := (files.texts.lookup p).isSome
  if isText p then .error (.fileExists (Path.normal path))
  else if dirs.any isText then .error (.notDirectory (Path.normal path))
  else .ok { files with dirs := files.dirs ++ dirs ++ [p] }

def ofList (texts : List (String × String)) : Files := texts.foldl (fun files (p, s) => files.add p s) {}

end Files
end KeyHold
