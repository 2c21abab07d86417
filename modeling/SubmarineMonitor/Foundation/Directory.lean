import Mathlib.Logic.Function.Basic
import Mathlib.Data.List.TakeWhile

/-!
# A directory of files

One directory as a function from names to entries: files, symbolic links that lead out of the
directory, and everything else. A file is looked at, opened for appending and appended to through a
link as well as directly, while removing a link leaves what it leads to alone. Paths are only split
into the part in front of the last slash and the name behind it.

## Names, not paths

The directory is a function, so a name stands for one entry and there is no order among entries. A
program that goes through a directory and treats each entry by itself is the function applied to all
names, and nothing has to be said about the sequence in which an iterator presents them, or about
changes behind its back.

A link is an entry with the content of what it leads to, or without one if that is missing. It leads
out of the directory, so two names never have the same file behind them; links within the directory
are left out. The distinction that matters is kept: appending through a link changes the target and
removing the link does not.

Whether an opening succeeds is decided outside, by permissions and by the state of the disk, and is
an argument. What cannot be opened at all, such as a subdirectory, fails whatever the argument says.

Contents are lists of bytes. Appending adds at the end, and there is no other way to write; a file
that is truncated on opening is not described here.
-/

namespace Directory

/-- One entry of a directory. -/
inductive Entry
  | regular (content : List UInt8)
  /-- A symbolic link, with the content of the regular file it leads to, if it leads to one. -/
  | symlink (target : Option (List UInt8))
  /-- A directory, for one. -/
  | other
  deriving DecidableEq

/-- The content of the regular file behind an entry. -/
def Entry.content : Entry → Option (List UInt8)
  | .regular content => some content
  | .symlink target => target
  | .other => none

/-- `is_regular_file()`, which follows links. -/
def Entry.isRegularFile (entry : Entry) : Bool :=
  entry.content.isSome

/-- The entries of a directory, by name. -/
abbrev Dir := List UInt8 → Option Entry

/-- The content of the file of this name. -/
def contentOf (dir : Dir) (name : List UInt8) : Option (List UInt8) :=
  (dir name).bind Entry.content

/-- The entry with more bytes at the end of its file. -/
def Entry.append (bytes : List UInt8) : Entry → Entry
  | .regular content => .regular (content ++ bytes)
  | .symlink target => .symlink (target.map (· ++ bytes))
  | .other => .other

/-- Append to the file of this name, if it is still there. -/
def append (dir : Dir) (name bytes : List UInt8) : Dir :=
  Function.update dir name ((dir name).map (Entry.append bytes))

/-- Open the file of this name for appending, which creates it if it is missing; `ok` is whether the
system lets that happen. What is neither a file nor a link cannot be opened. -/
def openAppend (dir : Dir) (name : List UInt8) (ok : Bool) : Option Dir :=
  if ¬ok then none
  else
    match dir name with
    | none => some (Function.update dir name (some (.regular [])))
    | some (.regular _) => some dir
    | some (.symlink target) =>
      some (Function.update dir name (some (.symlink (some (target.getD [])))))
    | some .other => none

theorem contentOf_append (dir : Dir) (name bytes : List UInt8) :
    contentOf (append dir name bytes) name = (contentOf dir name).map (· ++ bytes) := by
  rw [contentOf, contentOf, append, Function.update_self]
  rcases dir name with _ | _ | _ | _ <;> rfl

/-- **An opened file is there**, with what it held. -/
theorem contentOf_openAppend {dir dir' : Dir} {name : List UInt8} {ok : Bool}
    (h : openAppend dir name ok = some dir') :
    contentOf dir' name = some ((contentOf dir name).getD []) := by
  rw [openAppend] at h
  split at h
  · cases h
  split at h
  · rename_i hnone
    obtain rfl := Option.some.inj h
    rw [contentOf, contentOf, Function.update_self, hnone]
    rfl
  · rename_i content hregular
    obtain rfl := Option.some.inj h
    rw [contentOf, hregular]
    rfl
  · rename_i target hlink
    obtain rfl := Option.some.inj h
    rw [contentOf, contentOf, Function.update_self, hlink]
    rfl
  · cases h

/-! ### Paths -/

/-- `filename()` of a path: what stands behind its last slash. -/
def filename (path : List UInt8) : List UInt8 :=
  (path.reverse.takeWhile (· != 0x2F)).reverse

end Directory
