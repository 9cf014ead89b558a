import ImageBuild.Archive.Listing

/-!
# Finding a file in an archive

An uploaded context is an archive with a Dockerfile in it. `Summary.ofArchive`
counts the entries and reads the first one at the wanted path. Paths are
compared without what leads to the root of the context.
-/

namespace ImageBuild.Archive

def dropSlashes (path : List Char) : List Char := path.dropWhile (· == '/')

/-- A path without leading steps to the directory itself. -/
def dropDots : List Char → List Char
  | '.' :: '/' :: rest => dropDots rest
  | path => path

/-- A path as it is compared with others: without leading `./`, and then
without leading slashes. -/
def normalPath (path : String) : List Char := dropSlashes (dropDots path.toList)

/-- Why an uploaded context is not usable. -/
inductive ContextFault where
  | archive (fault : Fault)
  /-- the wanted file is not well-formed text -/
  | notText
  deriving DecidableEq

namespace ContextFault

def message : ContextFault → String
  | .archive fault => fault.message
  | .notText => "stream did not contain valid UTF-8"

end ContextFault

/-- What an engine has to know about a context. -/
structure Summary where
  entries : Nat
  /-- the text of the wanted file, if there is one -/
  file : Option String
  deriving DecidableEq

namespace Summary

def find? (wanted : String) (entries : List Entry) : Option Entry :=
  entries.find? fun e => normalPath e.path == normalPath wanted

/-- Looks for the wanted file in an archive. A file that is not text is found
before what comes behind it is listed. -/
def ofArchive (wanted : String) (data : ByteArray) : Except ContextFault Summary :=
  let listing := Listing.ofArchive data
  let summary (file : Option String) : Except ContextFault Summary :=
    match listing.fault with
    | some fault => .error (.archive fault)
    | none => .ok ⟨listing.entries.length, file⟩
  match find? wanted listing.entries with
  | none => summary none
  | some e =>
    match String.fromUTF8? (e.layout.read data) with
    | none => .error .notText
    | some text => summary (some text)

end Summary
end ImageBuild.Archive
