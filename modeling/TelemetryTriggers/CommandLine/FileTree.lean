import TelemetryTriggers.Error

/-!
# Files

A command sees files only by their contents.  A tree of files finds the contents by
walking along the steps of a path: each step has to leave from a directory and has to
end at something that exists, and only what the last step ends at may be a file.

Main definitions: `Files`, the contents by path; `FileTree`, files with a working
directory; `FileTree.walk` and `FileTree.read`.

Main statement: `walk_eq_follow`, a walk that succeeds ends where its steps point.
-/

namespace TelemetryTriggers
namespace CommandLine

abbrev Files : Type :=
  String → Except FileError String

abbrev Place : Type :=
  List String

namespace Place

def step (place : Place) : String → Place
  | "" => place
  | "." => place
  | ".." => place.dropLast
  | name => place ++ [name]

def follow (place : Place) (steps : List String) : Place :=
  steps.foldl step place

end Place

/-- Files by their places, and the directory from which paths start.  A directory
exists if something stands in it, and the ones that are listed exist in any case. -/
structure FileTree where
  home : Place
  directories : List Place
  files : List (Place × String)

namespace FileTree

def nameLimit : Nat :=
  255

def pathLimit : Nat :=
  4095

/-!
# Places
-/

def start (home : Place) (path : String) : Place :=
  if path.startsWith "/" then [] else home

def steps (path : String) : List String :=
  path.splitOn "/"

def text? (t : FileTree) (place : Place) : Option String :=
  t.files.lookup place

def isDirectory (t : FileTree) (place : Place) : Bool :=
  (t.home :: t.directories ++ t.files.map (·.1.dropLast)).any (place.isPrefixOf ·)

def holds (t : FileTree) (place : Place) : Bool :=
  t.isDirectory place || (t.text? place).isSome

/-!
# Walks
-/

/-- Takes one step.  It is the kind of the place left that is looked at first, and
then the length of the name. -/
def enter (t : FileTree) (place : Place) (name : String) : Except FileError Place :=
  if t.isDirectory place = false then .error .notDirectory
  else if nameLimit < name.utf8ByteSize then .error .nameTooLong
  else if t.holds (place.step name) then .ok (place.step name)
  else .error .missing

def walk (t : FileTree) : Place → List String → Except FileError Place
  | place, [] => .ok place
  | place, name :: names =>
      match t.enter place name with
      | .error cause => .error cause
      | .ok next => t.walk next names

def read (t : FileTree) : Files := fun path =>
  if path.toList.contains '\x00' then .error .zeroByte
  else if pathLimit < path.utf8ByteSize then .error .nameTooLong
  else
    match t.walk (start t.home path) (steps path) with
    | .error cause => .error cause
    | .ok place =>
        match t.text? place with
        | some text => .ok text
        | none => .error .directory

/-!
# A tree of a system
-/

def systemDirectories : List String :=
  ["bin", "boot", "dev", "etc", "home", "lib", "media", "mnt", "opt", "proc", "root",
    "run", "sbin", "srv", "sys", "tmp", "usr", "var"]

def scratch : Place :=
  ["tmp", "scratch"]

/-- A system that holds some files, named from its scratch directory, and besides
them only the empty device. -/
def ofFiles (files : List (String × String)) : FileTree where
  home := scratch
  directories := systemDirectories.map ([·])
  files :=
    files.map (fun (path, text) => ((start scratch path).follow (steps path), text)) ++
      [(["dev", "null"], "")]

/-!
# Where walks end
-/

theorem eq_step_of_enter {t : FileTree} {place next : Place} {name : String}
    (h : t.enter place name = .ok next) : next = place.step name := by
  unfold enter at h
  split at h
  · cases h
  · split at h
    · cases h
    · split at h
      · cases h
        rfl
      · cases h

theorem walk_eq_follow {t : FileTree} {place last : Place} {names : List String}
    (h : t.walk place names = .ok last) : last = place.follow names := by
  induction names generalizing place with
  | nil =>
      cases h
      rfl
  | cons name names ih =>
      cases hnext : t.enter place name with
      | error cause => simp [walk, hnext] at h
      | ok next =>
          rw [walk, hnext] at h
          rw [ih h, eq_step_of_enter hnext]
          rfl

end FileTree
end CommandLine
end TelemetryTriggers
