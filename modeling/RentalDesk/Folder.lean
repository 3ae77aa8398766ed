import RentalDesk.Archive

/-!
# Folders

A program that is run in a folder finds its files by paths. A path is walked step by step: an empty
step and a point stay where they are, two points go up, and any other step goes down; only folders
can be left by a step. Of what lies outside the folder only the null device and the usual folders at
the root are known.
-/

namespace RentalDesk

/-- What is found at the end of a path. -/
inductive Found where
  | file (content : Bytes)
  | folder
deriving DecidableEq

/-- What can be read of a catalog. A folder can be opened like a file, but it has no rows. -/
def Found.source : Found → Bytes
  | .file content => content
  | .folder => []

/-- Files and folders by their steps from a folder. The root has nothing above it. -/
structure Folder where
  files : List (List String × Bytes)
  folders : List (List String)
  isRoot : Bool

namespace Folder

def steps (path : String) : List String := path.splitOn "/"

def stays (step : String) : Bool := step == "" || step == "."

def goesUp (step : String) : Bool := step == ".."

def ofFiles (files : List (String × Bytes)) : Folder where
  files := files.map fun (name, content) => ((steps name).filter fun step => !stays step, content)
  folders := []
  isRoot := false

def root : Folder where
  files := [(["dev", "null"], [])]
  folders := ["bin", "dev", "etc", "home", "lib", "opt", "proc", "root", "run", "sys", "tmp",
    "usr", "var"].map fun name => [name]
  isRoot := true

def found (f : Folder) (place : List String) : Except StreamCause Found :=
  match f.files.find? (·.1 = place) with
  | some (_, content) => .ok (.file content)
  | none =>
    if place = [] ∨ f.folders.contains place ∨ f.files.any fun file => place.isPrefixOf file.1 then
      .ok .folder
    else .error .notFound

/-- What is found outside a folder: the folders above it. -/
def foundAbove (rest : List String) : Except StreamCause Found :=
  if rest.all fun step => stays step || goesUp step then .ok .folder else .error .notFound

def walk (f : Folder) : List String → List String → Except StreamCause Found
  | place, [] => f.found place
  | place, step :: rest => do
    match ← f.found place with
    | .file _ => throw .notFolder
    | .folder =>
      if stays step then walk f place rest
      else if ¬ goesUp step then walk f (place ++ [step]) rest
      else if place ≠ [] ∨ f.isRoot then walk f place.dropLast rest
      else foundAbove rest

def find (f : Folder) (path : String) : Except StreamCause Found :=
  if path = "" then .error .notFound
  else if path.startsWith "/" then root.walk [] (steps path)
  else f.walk [] (steps path)

end Folder

end RentalDesk
