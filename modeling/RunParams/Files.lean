import RunParams.Text.Lines
import RunParams.Text.Utf8

/-!
# Files

Text files are read as UTF-8 with their line ends unified. The system may refuse to open a file, and the bytes may be no text.
A directory can be held in memory; paths lead through it as through one on disk.
-/

namespace RunParams

/-- Why the system does not open a file. -/
inductive SystemError
  | permission
  | notFound
  | notDirectory
  | isDirectory
  | nameTooLong
  | other (number : Nat) (reason : String)
  deriving DecidableEq

/-- The number of a system error. -/
def SystemError.number : SystemError → Nat
  | .notFound => 2
  | .permission => 13
  | .notDirectory => 20
  | .isDirectory => 21
  | .nameTooLong => 36
  | .other number _ => number

/-- The wording of a system error. -/
def SystemError.reason : SystemError → String
  | .notFound => "No such file or directory"
  | .permission => "Permission denied"
  | .notDirectory => "Not a directory"
  | .isDirectory => "Is a directory"
  | .nameTooLong => "File name too long"
  | .other _ reason => reason

/-- The system error with a number; `reason` is its wording, should the number not be known. -/
def SystemError.ofNumber (number : Nat) (reason : String) : SystemError :=
  match [notFound, permission, notDirectory, isDirectory, nameTooLong].find? (·.number == number) with
  | some e => e
  | none => other number reason

/-- The wording of a system error about a path. -/
def SystemError.message (e : SystemError) (path : String) : String :=
  s!"[Errno {e.number}] {e.reason}: {Text.literal path}"

/-- Why the text of a file cannot be had. -/
inductive FileError
  | unread (path : String) (error : SystemError)
  | unwritten (path : String) (error : SystemError)
  | undecodable (error : Text.Utf8.DecodeError)
  /-- A path may not hold the null character. -/
  | nullInPath
  deriving DecidableEq

/-- The wording of a file error. -/
def FileError.message : FileError → String
  | .unread path e => s!"Failed to read from \"{path}\": {e.message path}"
  | .unwritten path e => s!"Failed to dump YAML to \"{path}\": {e.message path}."
  | .undecodable e => e.message
  | .nullInPath => "embedded null byte"

/-- The text of the bytes of a file. -/
def fileText (bytes : List UInt8) : Except Text.Utf8.DecodeError String :=
  (Text.Utf8.decode bytes).map fun s => String.ofList (Text.unifyNewlines s)

/-- A directory held in memory: its files with their contents. The name of a file in a directory below has slashes. -/
structure Directory where
  files : List (String × List UInt8)

namespace Directory

/-- What a place in a directory is. -/
inductive Entry
  | file (bytes : List UInt8)
  | directory
  | missing

/-- The parts of a path between its slashes. -/
def parts (path : String) : List String :=
  (path.toList.splitOn '/').map String.ofList

/-- What the place at the end of parts is. -/
def entry (d : Directory) (place : List String) : Entry :=
  match d.files.find? fun (name, _) => parts name == place with
  | some (_, bytes) => .file bytes
  | none =>
    if place = [] ∨ d.files.any (fun (name, _) => place.isPrefixOf (parts name)) then .directory else .missing

/-- The most bytes in a part of a path. -/
def maxPartBytes : Nat := 255

/-- Follows the parts of a path from a directory. An empty part and `.` stay where they are, and above the directory held in
memory there is nothing but directories. -/
def follow (d : Directory) (place : List String) : List String → Except SystemError (List String)
  | [] => .ok place
  | part :: rest =>
    match d.entry place with
    | .file _ => .error .notDirectory
    | .missing => .error .notFound
    | .directory =>
      if part = "" ∨ part = "." then d.follow place rest
      else if part = ".." then
        if place = [] then (if rest.all fun p => ["", ".", ".."].contains p then .ok [] else .error .notFound)
        else d.follow place.dropLast rest
      else if part.utf8ByteSize > maxPartBytes then .error .nameTooLong
      else d.follow (place ++ [part]) rest

/-- Follows a path. -/
def resolve (d : Directory) (path : String) : Except SystemError (List String) :=
  if path.isEmpty then .error .notFound
  else if path.front = '/' then
    (if (parts path).all fun p => ["", ".", ".."].contains p then .ok [] else .error .notFound)
  else d.follow [] (parts path)

/-- The bytes of the file at a path. -/
def readBytes (d : Directory) (path : String) : Except SystemError (List UInt8) := do
  match d.entry (← d.resolve path) with
  | .file bytes => return bytes
  | .directory => throw .isDirectory
  | .missing => throw .notFound

/-- The text of the file at a path. -/
def readText (d : Directory) (path : String) : Except FileError String := do
  if path.contains '\x00' then throw .nullInPath
  let bytes ← (d.readBytes path).mapError (.unread path)
  (fileText bytes).mapError .undecodable

/-- A path without the slashes at its end. -/
def withoutSlashes (path : String) : String :=
  String.ofList (path.toList.reverse.dropWhile (· == '/')).reverse

/-- The place at which a file can be written. A path that ends in a slash is that of a directory. -/
def writable (d : Directory) (path : String) : Except FileError (List String) := do
  if path.contains '\x00' then throw .nullInPath
  let named := withoutSlashes path
  if named.isEmpty && !path.isEmpty then throw (.unwritten path .isDirectory)
  let place ← (d.resolve named).mapError (.unwritten path)
  match d.entry place with
  | .directory => throw (.unwritten path .isDirectory)
  | _ => if named = path then return place else throw (.unwritten path .isDirectory)

end Directory

end RunParams
